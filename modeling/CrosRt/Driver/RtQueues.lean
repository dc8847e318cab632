import Mathlib.Order.Lattice
import Mathlib.Order.MinMax
import Mathlib.Order.Bounds.Basic
import Mathlib.Algebra.Order.Group.Unbundled.Int
import CrosRt.Foundations.TracedArray
import CrosRt.Foundations.Draining

/-! # The priority queues and the real-time server

`struct priority_queue` with its operations, the scan `get_next_highest_priority` and `rt_poll`, all
of `r8169_main.c`. The socket buffers are of an arbitrary type. `rt_poll` is run without concurrent
insertion, which is how its callers in the single-CPU setting see it: interrupts are off.
-/

namespace CrosRt
set_option autoImplicit false

/-- `struct priority_queue`: declared with 100 queues. -/
abbrev PriorityQueue (F : Type*) := TracedArray (List F)

structure RtQueues (F : Type*) where
  priorityInUse : TracedArray Bool
  pq : PriorityQueue F
  highestPri : ℤ

/-- What one `rt_poll` does: the buffers handed to `napi_gro_receive` in order, its return value
and the state left. -/
structure RtPoll (F : Type*) where
  delivered : List F
  ret : ℤ
  state : RtQueues F

section Model
variable {F : Type*}

def priorityQueueInit (pq : PriorityQueue F) : PriorityQueue F :=
  (List.range 101).foldl (fun (pq : PriorityQueue F) (i : ℕ) => pq.write i []) pq

def priorityQueueInsert (pq : PriorityQueue F) (skb : F) (priority : ℤ) : PriorityQueue F :=
  pq.write priority (pq.cell priority ++ [skb])

/-- `priority_queue_remove`: the queue is looked at once, and once more if it holds a buffer. -/
def priorityQueueRemove (pq : PriorityQueue F) (priority : ℤ) : Option F × PriorityQueue F :=
  match pq.cell priority with
  | [] => (none, pq.touch priority)
  | skb :: rest => (some skb, (pq.touch priority).write priority rest)

def priorityQueueEmpty (pq : PriorityQueue F) (priority : ℤ) : Bool × PriorityQueue F :=
  ((pq.cell priority).isEmpty, pq.touch priority)

/-- The loop of `get_next_highest_priority` from `i` down to 1. -/
def scanDown (inUse : TracedArray Bool) : ℕ → ℤ × TracedArray Bool
  | 0 => (1, inUse)
  | i + 1 =>
      let inUse := inUse.touch (i + 1)
      if inUse.cell (i + 1) then (i + 1, inUse) else scanDown inUse i

def getNextHighestPriority (inUse : TracedArray Bool) (currentHighestPriority : ℤ) :
    ℤ × TracedArray Bool :=
  scanDown inUse (currentHighestPriority - 1).toNat

/-- The `while (tmp_skb != NULL)` loop of `rt_poll`, with a round for every buffer in the queue and
one for the last, empty, removal. -/
def rtDrain (s : RtQueues F) : List F × PriorityQueue F :=
  drain (fun pq => priorityQueueRemove pq s.highestPri) ((s.pq.cell s.highestPri).length + 1) s.pq

def rtPoll (s : RtQueues F) : RtPoll F :=
  let drained := rtDrain s
  let ret : ℤ := if drained.1.isEmpty then 0 else 1
  let (empty, pq) := priorityQueueEmpty drained.2 s.highestPri
  if empty then
    if s.highestPri < 2 then
      ⟨drained.1, ret, { s with pq := pq, highestPri := 1 }⟩
    else
      let (next, inUse) := getNextHighestPriority s.priorityInUse s.highestPri
      ⟨drained.1, ret, ⟨inUse, pq, next⟩⟩
  else ⟨drained.1, ret, { s with pq := pq }⟩

def highestPrio (s : RtQueues F) : ℤ := s.highestPri

end Model

/-! ## The scan -/

section Scan

theorem scanDown_cell (inUse : TracedArray Bool) (i : ℕ) :
    (scanDown inUse i).2.cell = inUse.cell := by
  induction i generalizing inUse with
  | zero => rfl
  | succ i ih =>
    rw [scanDown]
    by_cases h : (inUse.touch ((i : ℤ) + 1)).cell ((i : ℤ) + 1) = true
    · rw [if_pos h]
      rfl
    · rw [if_neg h, ih]
      rfl

/-- The scan stops at the highest flag set, or falls through to 1. -/
theorem scanDown_fst (inUse : TracedArray Bool) (i : ℕ) :
    (1 ≤ (scanDown inUse i).1 ∧ (scanDown inUse i).1 ≤ i ∧
        inUse.cell (scanDown inUse i).1 = true ∧
        ∀ q : ℤ, (scanDown inUse i).1 < q → q ≤ i → inUse.cell q = false) ∨
      ((scanDown inUse i).1 = 1 ∧ ∀ q : ℤ, 1 ≤ q → q ≤ i → inUse.cell q = false) := by
  induction i generalizing inUse with
  | zero => exact Or.inr ⟨rfl, fun q h₁ h₂ => by simp at h₂; omega⟩
  | succ i ih =>
    rw [scanDown]
    by_cases h : (inUse.touch ((i : ℤ) + 1)).cell ((i : ℤ) + 1) = true
    · rw [if_pos h]
      refine Or.inl ⟨by simp only; omega, by simp, by simpa using h, fun q h₁ h₂ => ?_⟩
      push_cast at h₂
      simp only at h₁
      omega
    · rw [if_neg h]
      have htop : inUse.cell ((i : ℤ) + 1) = false := by simpa using h
      have hstep : ∀ q : ℤ, q ≤ (i + 1 : ℕ) → q ≤ i ∨ q = (i : ℤ) + 1 := by
        intro q hq
        push_cast at hq
        omega
      rcases ih (inUse.touch ((i : ℤ) + 1)) with ⟨h₁, h₂, h₃, h₄⟩ | ⟨h₁, h₂⟩
      · refine Or.inl ⟨h₁, by push_cast; omega, h₃, fun q hlt hle => ?_⟩
        rcases hstep q hle with hq | rfl
        · exact h₄ q hlt hq
        · exact htop
      · refine Or.inr ⟨h₁, fun q hlt hle => ?_⟩
        rcases hstep q hle with hq | rfl
        · exact h₂ q hlt hq
        · exact htop

variable (inUse : TracedArray Bool) (h : ℤ)

theorem getNext_cell : (getNextHighestPriority inUse h).2.cell = inUse.cell := scanDown_cell ..

theorem getNext_pos : 1 ≤ (getNextHighestPriority inUse h).1 := by
  rcases scanDown_fst inUse (h - 1).toNat with ⟨h₁, _⟩ | ⟨h₁, _⟩
  · exact h₁
  · exact le_of_eq h₁.symm

theorem getNext_lt (hh : 2 ≤ h) : (getNextHighestPriority inUse h).1 < h := by
  unfold getNextHighestPriority
  rcases scanDown_fst inUse (h - 1).toNat with ⟨_, h₂, _⟩ | ⟨h₁, _⟩ <;> omega

theorem le_getNext_of_inUse {q : ℤ} (h₁ : 1 ≤ q) (hlt : q < h) (hq : inUse.cell q = true) :
    q ≤ (getNextHighestPriority inUse h).1 := by
  have hle : q ≤ ((h - 1).toNat : ℤ) := by omega
  rcases scanDown_fst inUse (h - 1).toNat with ⟨_, _, _, hnone⟩ | ⟨_, hnone⟩
  · by_contra hgt
    have := hnone q (by unfold getNextHighestPriority at hgt; omega) hle
    rw [hq] at this
    exact absurd this (by simp)
  · have := hnone q h₁ hle
    rw [hq] at this
    exact absurd this (by simp)

/-- `n` is the highest flag set in `1 .. h - 1`, or 1 where no flag is set there. -/
def HighestBelow (n : ℤ) : Prop :=
  IsGreatest {q | 1 ≤ q ∧ q < h ∧ inUse.cell q = true} n ∨
    (n = 1 ∧ ∀ q, 1 ≤ q → q < h → inUse.cell q = false)

theorem getNext_highestBelow : HighestBelow inUse h (getNextHighestPriority inUse h).1 := by
  have hrange : ∀ q : ℤ, 1 ≤ q → (q ≤ ((h - 1).toNat : ℤ) ↔ q < h) := by
    intro q hq
    omega
  rcases scanDown_fst inUse (h - 1).toNat with ⟨hpos, hle, hset, hnone⟩ | ⟨hone, hnone⟩
  · refine Or.inl ⟨⟨hpos, (hrange _ hpos).mp hle, hset⟩, ?_⟩
    rintro q ⟨hq, hlt, hflag⟩
    by_contra hgt
    have hclear := hnone q (not_le.mp hgt) ((hrange q hq).mpr hlt)
    rw [hflag] at hclear
    cases hclear
  · exact Or.inr ⟨hone, fun q hq hlt => hnone q hq ((hrange q hq).mpr hlt)⟩

theorem getNext_inUse_or :
    inUse.cell (getNextHighestPriority inUse h).1 = true ∨
      (getNextHighestPriority inUse h).1 = 1 := by
  rcases scanDown_fst inUse (h - 1).toNat with ⟨_, _, hinUse, _⟩ | ⟨hone, _⟩
  · exact Or.inl hinUse
  · exact Or.inr hone

end Scan

/-! ## The queue operations -/

section Queues
variable {F : Type*}

@[simp] theorem priorityQueueInsert_cell_self (pq : PriorityQueue F) (skb : F) (p : ℤ) :
    (priorityQueueInsert pq skb p).cell p = pq.cell p ++ [skb] := by
  simp [priorityQueueInsert]

theorem priorityQueueInsert_cell_ne (pq : PriorityQueue F) (skb : F) {p q : ℤ} (h : q ≠ p) :
    (priorityQueueInsert pq skb p).cell q = pq.cell q := by
  simp [priorityQueueInsert, h]

theorem priorityQueueRemove_takesFront (p : ℤ) :
    TakesFront (fun pq : PriorityQueue F => priorityQueueRemove pq p) (fun pq => pq.cell p) where
  fst := by
    intro pq
    unfold priorityQueueRemove
    cases pq.cell p <;> rfl
  snd := by
    intro pq
    unfold priorityQueueRemove
    cases h : pq.cell p with
    | nil => simp [h]
    | cons skb rest => simp

theorem priorityQueueRemove_cell_ne (pq : PriorityQueue F) {p q : ℤ} (h : q ≠ p) :
    (priorityQueueRemove pq p).2.cell q = pq.cell q := by
  unfold priorityQueueRemove
  cases pq.cell p with
  | nil => rfl
  | cons skb rest => simp [h]

theorem rtDrain_fst (s : RtQueues F) : (rtDrain s).1 = s.pq.cell s.highestPri :=
  drain_fst_of_le (priorityQueueRemove_takesFront s.highestPri) (Nat.le_succ _)

theorem rtDrain_cell_self (s : RtQueues F) : (rtDrain s).2.cell s.highestPri = [] :=
  view_drain_of_le (priorityQueueRemove_takesFront s.highestPri) (Nat.le_succ _)

theorem rtDrain_cell_ne (s : RtQueues F) {q : ℤ} (h : q ≠ s.highestPri) :
    (rtDrain s).2.cell q = s.pq.cell q := by
  refine drain_invariant (P := fun pq => pq.cell q = s.pq.cell q) ?_ _ s.pq rfl
  intro pq hpq
  rw [priorityQueueRemove_cell_ne pq h]
  exact hpq

end Queues

/-! ## What one `rt_poll` does -/

section Poll
variable {F : Type*} (s : RtQueues F)

theorem rtPoll_eq : rtPoll s =
    ⟨s.pq.cell s.highestPri, if (s.pq.cell s.highestPri).isEmpty then 0 else 1,
      if s.highestPri < 2 then
        { s with pq := (rtDrain s).2.touch s.highestPri, highestPri := 1 }
      else
        ⟨(getNextHighestPriority s.priorityInUse s.highestPri).2,
          (rtDrain s).2.touch s.highestPri,
          (getNextHighestPriority s.priorityInUse s.highestPri).1⟩⟩ := by
  unfold rtPoll priorityQueueEmpty
  simp only [rtDrain_fst, rtDrain_cell_self, List.isEmpty_nil, if_true]
  by_cases h : s.highestPri < 2
  · rw [if_pos h, if_pos h]
  · rw [if_neg h, if_neg h]

@[simp] theorem rtPoll_delivered : (rtPoll s).delivered = s.pq.cell s.highestPri := by
  rw [rtPoll_eq]

theorem rtPoll_pq : (rtPoll s).state.pq = (rtDrain s).2.touch s.highestPri := by
  rw [rtPoll_eq]
  by_cases h : s.highestPri < 2
  · rw [if_pos h]
  · rw [if_neg h]

@[simp] theorem rtPoll_cell_self : (rtPoll s).state.pq.cell s.highestPri = [] := by
  rw [rtPoll_pq, TracedArray.touch_cell, rtDrain_cell_self]

theorem rtPoll_cell_ne {q : ℤ} (h : q ≠ s.highestPri) :
    (rtPoll s).state.pq.cell q = s.pq.cell q := by
  rw [rtPoll_pq, TracedArray.touch_cell, rtDrain_cell_ne s h]

@[simp] theorem rtPoll_inUse_cell :
    (rtPoll s).state.priorityInUse.cell = s.priorityInUse.cell := by
  rw [rtPoll_eq]
  by_cases h : s.highestPri < 2
  · rw [if_pos h]
  · rw [if_neg h]
    exact getNext_cell ..

theorem rtPoll_highest_of_lt (h : s.highestPri < 2) : (rtPoll s).state.highestPri = 1 := by
  rw [rtPoll_eq, if_pos h]

theorem rtPoll_highest_of_ge (h : 2 ≤ s.highestPri) :
    (rtPoll s).state.highestPri = (getNextHighestPriority s.priorityInUse s.highestPri).1 := by
  rw [rtPoll_eq, if_neg (not_lt.mpr h)]

theorem rtPoll_highest_pos : 1 ≤ (rtPoll s).state.highestPri := by
  by_cases h : s.highestPri < 2
  · exact le_of_eq (rtPoll_highest_of_lt s h).symm
  · rw [rtPoll_highest_of_ge s (by omega)]
    exact getNext_pos ..

theorem rtPoll_highest_le (hpos : 1 ≤ s.highestPri) :
    (rtPoll s).state.highestPri ≤ max 1 (s.highestPri - 1) := by
  by_cases h : s.highestPri < 2
  · rw [rtPoll_highest_of_lt s h]
    omega
  · rw [rtPoll_highest_of_ge s (by omega)]
    have := getNext_lt s.priorityInUse s.highestPri (by omega)
    omega

theorem rtPoll_highestBelow :
    HighestBelow s.priorityInUse s.highestPri (rtPoll s).state.highestPri := by
  by_cases h : s.highestPri < 2
  · rw [rtPoll_highest_of_lt s h]
    exact Or.inr ⟨rfl, fun q hq hlt => absurd hlt (by omega)⟩
  · rw [rtPoll_highest_of_ge s (not_lt.mp h)]
    exact getNext_highestBelow ..

theorem rtPoll_ret : (rtPoll s).ret = if (rtPoll s).delivered = [] then 0 else 1 := by
  rw [rtPoll_eq]
  cases s.pq.cell s.highestPri <;> rfl

/-- **One `rt_poll` serves one priority.** It hands over the queue of the highest priority in order
and leaves it empty, touches no other queue and no flag, reports whether there was a frame, and
moves to the next priority in use below. -/
theorem rtPoll_serves_highest :
    (rtPoll s).delivered = s.pq.cell s.highestPri ∧
      (∀ q, q ≠ s.highestPri → (rtPoll s).state.pq.cell q = s.pq.cell q) ∧
      (∀ q, (rtPoll s).state.priorityInUse.cell q = s.priorityInUse.cell q) ∧
      (rtPoll s).state.pq.cell s.highestPri = [] ∧
      (rtPoll s).ret = (if (rtPoll s).delivered = [] then 0 else 1) ∧
      HighestBelow s.priorityInUse s.highestPri (rtPoll s).state.highestPri :=
  ⟨rtPoll_delivered s, fun _ => rtPoll_cell_ne s, fun q => congrFun (rtPoll_inUse_cell s) q,
    rtPoll_cell_self s, rtPoll_ret s, rtPoll_highestBelow s⟩

end Poll

/-! ## No buffer above the highest priority -/

section Bounded
variable {F : Type*} {s : RtQueues F}

/-- Buffers of priority 2 and more only wait in queues up to the highest priority. -/
structure RtQueues.Bounded (s : RtQueues F) : Prop where
  highest_pos : 1 ≤ s.highestPri
  highest_le : s.highestPri ≤ 99
  nonempty_le : ∀ q, 2 ≤ q → s.pq.cell q ≠ [] → q ≤ s.highestPri

/-- Between a waiting buffer, or at its own priority, and the highest priority a flag is set, so
the scan does not pass the buffer. -/
def RtQueues.ScanReaches (s : RtQueues F) : Prop :=
  ∀ q, 2 ≤ q → q < s.highestPri → s.pq.cell q ≠ [] →
    ∃ p, q ≤ p ∧ p < s.highestPri ∧ s.priorityInUse.cell p = true

/-- **`rt_poll` strands no buffer** that the scan reaches. -/
theorem RtQueues.Bounded.rtPoll (h : s.Bounded) (hscan : s.ScanReaches) :
    (rtPoll s).state.Bounded where
  highest_pos := rtPoll_highest_pos s
  highest_le := by
    have := rtPoll_highest_le s h.highest_pos
    have := h.highest_le
    omega
  nonempty_le := by
    intro q hq hne
    have hq' : q ≠ s.highestPri := by
      rintro rfl
      exact hne (rtPoll_cell_self s)
    rw [rtPoll_cell_ne s hq'] at hne
    have hle := h.nonempty_le q hq hne
    obtain ⟨p, hqp, hp, hinUse⟩ := hscan q hq (by omega) hne
    rw [rtPoll_highest_of_ge s (by omega)]
    exact le_trans hqp (le_getNext_of_inUse _ _ (by omega) hp hinUse)

/-- A buffer that the scan does not reach is left above the new highest priority. -/
theorem rtPoll_highest_lt_of_none {q : ℤ} (hq : 2 ≤ q) (hlt : q < s.highestPri)
    (hnone : ∀ p, q ≤ p → p < s.highestPri → s.priorityInUse.cell p ≠ true) :
    (rtPoll s).state.highestPri < q := by
  rw [rtPoll_highest_of_ge s (by omega)]
  by_contra hge
  rcases getNext_inUse_or s.priorityInUse s.highestPri with hinUse | hone
  · exact hnone _ (by omega) (getNext_lt _ _ (by omega)) hinUse
  · omega

theorem RtQueues.Bounded.insert (h : s.Bounded) (skb : F) {p : ℤ} (hp : 1 ≤ p) (hp' : p ≤ 99) :
    RtQueues.Bounded
      { s with pq := priorityQueueInsert s.pq skb p, highestPri := max s.highestPri p } where
  highest_pos := le_trans hp (le_max_right _ _)
  highest_le := max_le h.highest_le hp'
  nonempty_le := by
    intro q hq hne
    by_cases hqp : q = p
    · exact hqp ▸ le_max_right _ _
    · simp only [priorityQueueInsert_cell_ne s.pq skb hqp] at hne
      exact le_trans (h.nonempty_le q hq hne) (le_max_left _ _)

theorem RtQueues.Bounded.of_same {t : RtQueues F} (h : s.Bounded) (hpq : t.pq = s.pq)
    (hpri : t.highestPri = s.highestPri) : t.Bounded where
  highest_pos := by rw [hpri]; exact h.highest_pos
  highest_le := by rw [hpri]; exact h.highest_le
  nonempty_le := by rw [hpri, hpq]; exact h.nonempty_le

end Bounded

/-! ## Queues covered by the flags -/

section Covered
variable {F : Type*} {s : RtQueues F}

/-- Moreover every waiting buffer has a priority in use. -/
structure RtQueues.Covered (s : RtQueues F) : Prop extends s.Bounded where
  nonempty_inUse : ∀ q, 2 ≤ q → s.pq.cell q ≠ [] → s.priorityInUse.cell q = true

theorem RtQueues.Covered.scanReaches (h : s.Covered) : s.ScanReaches :=
  fun q hq hlt hne => ⟨q, le_refl q, hlt, h.nonempty_inUse q hq hne⟩

theorem RtQueues.Covered.rtPoll (h : s.Covered) : (rtPoll s).state.Covered where
  toBounded := h.toBounded.rtPoll h.scanReaches
  nonempty_inUse := by
    intro q hq hne
    rw [rtPoll_inUse_cell]
    by_cases hq' : q = s.highestPri
    · rw [hq', rtPoll_cell_self] at hne
      exact absurd rfl hne
    · rw [rtPoll_cell_ne s hq'] at hne
      exact h.nonempty_inUse q hq hne

theorem RtQueues.Covered.insert (h : s.Covered) (skb : F) {p : ℤ} (hp : 1 ≤ p) (hp' : p ≤ 99)
    (hinUse : s.priorityInUse.cell p = true) :
    RtQueues.Covered
      { s with pq := priorityQueueInsert s.pq skb p, highestPri := max s.highestPri p } where
  toBounded := h.toBounded.insert skb hp hp'
  nonempty_inUse := by
    intro q hq hne
    by_cases hqp : q = p
    · exact hqp ▸ hinUse
    · simp only [priorityQueueInsert_cell_ne s.pq skb hqp] at hne
      exact h.nonempty_inUse q hq hne

theorem RtQueues.Covered.of_flags {t : RtQueues F} (h : s.Covered) (hpq : t.pq = s.pq)
    (hpri : t.highestPri = s.highestPri)
    (hflags : ∀ q, 2 ≤ q → s.priorityInUse.cell q = true → t.priorityInUse.cell q = true) :
    t.Covered where
  toBounded := h.toBounded.of_same hpq hpri
  nonempty_inUse := by
    intro q hq hne
    rw [hpq] at hne
    exact hflags q hq (h.nonempty_inUse q hq hne)

end Covered

end CrosRt
