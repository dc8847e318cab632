import Mathlib.Data.BitVec
import CrosRt.Foundations.LabelledRuns

/-! # `__do_softirq` with deferred reception

One call of `__do_softirq` of `kernel/softirq.c`. While interrupts are enabled, handlers and
interrupts raise softirqs (`__raise_softirq_irqoff`) between any two statements; `ksoftirqd_test` may
change at any time, and the outcome of `time_before(jiffies, end) && !need_resched()` is arbitrary.
The call is in a softirq context of its own, so no interrupt runs softirqs inside it.

Where the reception is deferred, its bit goes from the local copy back into the mask of the CPU, and
the call ends by waking `ksoftirqd` and not by the test for a restart.
-/

namespace CrosRt.Kernel
set_option autoImplicit false

open LabelledRuns

def netRxSoftirq : ℕ := 3

def rxBitmask : BitVec 32 := 1#32 <<< netRxSoftirq

def orSoftirqPending (mask : BitVec 32) (nr : ℕ) : BitVec 32 := mask ||| 1#32 <<< nr

/-- `ffs`: the position of the lowest bit set, counted from 1, and 0 when there is none. -/
def ffs (x : BitVec 32) : ℕ := if x = 0 then 0 else x.ctz.toNat + 1

/-- Interrupts are enabled from the end of `restart` to the end of `loop`. -/
inductive SoftirqPc
  | restart
  | loop
  | irqDisabled
  | returned
  deriving DecidableEq, Repr

/-- What has happened to a vector: it was raised, or its action was started. -/
inductive Occurrence
  | raised (vec : ℕ)
  | ran (vec : ℕ)
  deriving DecidableEq, Repr

/-- The local variables, the pending mask of the CPU, whether the call has woken `ksoftirqd`, and
the occurrences since the entry, the oldest first. `h` is the index into `softirq_vec`. -/
structure SoftirqCall where
  ksoftirqdTest : ℤ
  softirqPending : BitVec 32
  pending : BitVec 32
  h : ℕ
  rxIsSet : Bool
  maxRestart : ℕ
  woken : Bool
  pc : SoftirqPc
  log : List Occurrence
  deriving DecidableEq

/-- A raise, a change of `ksoftirqd_test`, and the next statement of the call, where `again` is the
outcome of the time and rescheduling test. -/
inductive SoftirqEvent
  | raise (vec : Fin 32)
  | setTest (value : ℤ)
  | next (again : Bool)

def SoftirqEvent.statements : SoftirqEvent → ℕ
  | .next _ => 1
  | _ => 0

namespace SoftirqCall

def entry (ksoftirqdTest : ℤ) (softirqPending : BitVec 32) : SoftirqCall :=
  ⟨ksoftirqdTest, softirqPending, softirqPending, 0, false, 10, false, .restart, []⟩

/-- The statements between `restart` and the loop. -/
def restart (isKsoftirqd : Bool) (s : SoftirqCall) : SoftirqCall :=
  if s.ksoftirqdTest = 1 ∧ isKsoftirqd = false ∧ s.pending &&& rxBitmask ≠ 0 then
    { s with
      pending := s.pending ^^^ rxBitmask
      rxIsSet := true
      softirqPending := rxBitmask
      h := 0
      pc := .loop }
  else { s with softirqPending := 0, h := 0, pc := .loop }

/-- One round of the `while` loop, or its end and `local_irq_disable`. -/
def round (s : SoftirqCall) : SoftirqCall :=
  let softirqBit := ffs s.pending
  if softirqBit = 0 then { s with pc := .irqDisabled }
  else
    let vecNr := s.h + softirqBit - 1
    { s with
      log := s.log ++ [.ran vecNr]
      h := vecNr + 1
      pending := s.pending >>> softirqBit }

/-- The statements behind `local_irq_disable`. -/
def finish (again : Bool) (s : SoftirqCall) : SoftirqCall :=
  if s.rxIsSet then { s with woken := true, pc := .returned }
  else if s.softirqPending = 0 then { s with pending := s.softirqPending, pc := .returned }
  else if again then
    if s.maxRestart - 1 ≠ 0 then
      { s with
        pending := s.softirqPending, maxRestart := s.maxRestart - 1, pc := .restart }
    else
      { s with
        pending := s.softirqPending
        maxRestart := s.maxRestart - 1
        woken := true
        pc := .returned }
  else { s with pending := s.softirqPending, woken := true, pc := .returned }

def step (isKsoftirqd : Bool) (s : SoftirqCall) : SoftirqEvent → Option SoftirqCall
  | .raise vec =>
      if s.pc = .loop then
        some { s with
          softirqPending := orSoftirqPending s.softirqPending vec
          log := s.log ++ [.raised vec] }
      else none
  | .setTest value => some { s with ksoftirqdTest := value }
  | .next again =>
      match s.pc with
      | .restart => some (s.restart isKsoftirqd)
      | .loop => some s.round
      | .irqDisabled => some (s.finish again)
      | .returned => none

/-! ## Masks -/

theorem getLsbD_rxBitmask (i : ℕ) : rxBitmask.getLsbD i = decide (i = netRxSoftirq) := by
  have h : rxBitmask = BitVec.twoPow 32 3 := by decide
  rw [h, BitVec.getLsbD_twoPow]
  by_cases hi : i = netRxSoftirq
  · subst hi
    decide
  · have hne : ¬ 3 = i := fun h => hi h.symm
    simp [hi, hne]

theorem getLsbD_orSoftirqPending (mask : BitVec 32) (vec : Fin 32) (i : ℕ) :
    (orSoftirqPending mask vec).getLsbD i = (mask.getLsbD i || decide (i = vec)) := by
  have h : 1#32 <<< vec.val = BitVec.twoPow 32 vec := rfl
  rw [orSoftirqPending, BitVec.getLsbD_or, h, BitVec.getLsbD_twoPow]
  by_cases hi : i = vec
  · simp [hi]
  · have hne : ¬ vec.val = i := fun h => hi h.symm
    simp [hi, hne]

theorem and_rxBitmask_ne_zero {x : BitVec 32} :
    x &&& rxBitmask ≠ 0 ↔ x.getLsbD netRxSoftirq = true := by
  constructor
  · intro hne
    by_contra hclear
    refine hne (BitVec.eq_of_getLsbD_eq fun i _ => ?_)
    rw [BitVec.getLsbD_and, getLsbD_rxBitmask]
    by_cases hi : i = netRxSoftirq
    · subst hi
      simpa using hclear
    · simp [hi]
  · intro hset hzero
    have hbit : (x &&& rxBitmask).getLsbD netRxSoftirq = true := by
      rw [BitVec.getLsbD_and, getLsbD_rxBitmask, hset]
      simp
    rw [hzero] at hbit
    simp at hbit

theorem ffs_eq_zero {x : BitVec 32} : ffs x = 0 ↔ x = 0 := by
  unfold ffs
  by_cases h : x = 0
  · rw [if_pos h]
    exact iff_of_true rfl h
  · rw [if_neg h]
    exact iff_of_false (Nat.succ_ne_zero _) h

theorem ffs_spec {x : BitVec 32} (h : ffs x ≠ 0) :
    x.getLsbD (ffs x - 1) = true ∧ ∀ j, x.getLsbD j = true → ffs x - 1 ≤ j := by
  have hx : x ≠ 0 := fun hzero => h (ffs_eq_zero.mpr hzero)
  have hffs : ffs x - 1 = x.ctz.toNat := by
    rw [ffs, if_neg hx, Nat.add_sub_cancel]
  rw [hffs]
  refine ⟨BitVec.getLsbD_true_ctz_of_ne_zero hx, fun j hj => ?_⟩
  by_contra hlt
  rw [BitVec.getLsbD_false_of_lt_ctz (not_le.mp hlt)] at hj
  cases hj

/-! ## Nothing is lost -/

/-- The action of the vector has run after its last raise. -/
def RanSinceRaise (vec : ℕ) (log : List Occurrence) : Prop :=
  ∃ pre post, log = pre ++ .ran vec :: post ∧ .raised vec ∉ post

theorem ranSinceRaise_ran (vec : ℕ) (log : List Occurrence) :
    RanSinceRaise vec (log ++ [.ran vec]) := ⟨log, [], rfl, List.not_mem_nil⟩

theorem RanSinceRaise.append {vec : ℕ} {log : List Occurrence} (h : RanSinceRaise vec log)
    {o : Occurrence} (ho : o ≠ .raised vec) : RanSinceRaise vec (log ++ [o]) := by
  obtain ⟨pre, post, rfl, hpost⟩ := h
  refine ⟨pre, post ++ [o], by simp, ?_⟩
  rw [List.mem_append, List.mem_singleton]
  exact fun hmem => hmem.elim hpost fun heq => ho heq.symm

def Kept (s : SoftirqCall) (vec : ℕ) : Prop :=
  match s.pc with
  | .restart => s.pending.getLsbD vec = true
  | .loop => s.softirqPending.getLsbD vec = true ∨
      ∃ j, vec = s.h + j ∧ s.pending.getLsbD j = true
  | .irqDisabled => s.softirqPending.getLsbD vec = true
  | .returned => s.softirqPending.getLsbD vec = true ∧ s.woken = true

/-- `due` are the vectors pending on entry. -/
def Inv (due : ℕ → Prop) (s : SoftirqCall) : Prop :=
  ∀ vec, due vec ∨ .raised vec ∈ s.log → RanSinceRaise vec s.log ∨ s.Kept vec

theorem inv_entry (test : ℤ) (mask : BitVec 32) :
    Inv (fun vec => mask.getLsbD vec = true) (entry test mask) :=
  fun _ h => Or.inr (h.resolve_right List.not_mem_nil)

theorem inv_raise {due : ℕ → Prop} {s : SoftirqCall} (hs : s.Inv due) (hpc : s.pc = .loop)
    (vec : Fin 32) :
    Inv due { s with
      softirqPending := orSoftirqPending s.softirqPending vec
      log := s.log ++ [.raised vec] } := by
  intro i hi
  simp only [Kept, hpc]
  rw [getLsbD_orSoftirqPending]
  by_cases hiv : i = vec
  · exact Or.inr (Or.inl (by simp [hiv]))
  · have hdue : due i ∨ .raised i ∈ s.log := by
      refine hi.imp_right fun hmem => ?_
      simp only [List.mem_append, List.mem_singleton, Occurrence.raised.injEq] at hmem
      exact hmem.resolve_right hiv
    have hkept := hs i hdue
    simp only [Kept, hpc] at hkept
    refine hkept.imp (fun hran => hran.append ?_) fun hbit => hbit.imp_left fun h => ?_
    · simpa using Ne.symm hiv
    · rw [h, Bool.true_or]

theorem inv_restart {due : ℕ → Prop} {s : SoftirqCall} (hs : s.Inv due) (hpc : s.pc = .restart)
    (isKsoftirqd : Bool) : Inv due (s.restart isKsoftirqd) := by
  have hkept : ∀ vec, due vec ∨ .raised vec ∈ s.log →
      RanSinceRaise vec s.log ∨ s.pending.getLsbD vec = true := by
    intro vec hvec
    have := hs vec hvec
    simpa only [Kept, hpc] using this
  unfold restart
  split_ifs with hrx
  · refine fun vec hvec => (hkept vec hvec).imp_right fun hbit => ?_
    simp only [Kept]
    -- The bit of the reception is now in the mask, every other one still in the copy.
    by_cases hnet : vec = netRxSoftirq
    · exact Or.inl (by rw [getLsbD_rxBitmask, hnet, decide_eq_true_eq])
    · refine Or.inr ⟨vec, (Nat.zero_add vec).symm, ?_⟩
      rw [BitVec.getLsbD_xor, hbit, getLsbD_rxBitmask]
      simp [hnet]
  · exact fun vec hvec => (hkept vec hvec).imp_right fun hbit =>
      Or.inr ⟨vec, (Nat.zero_add vec).symm, hbit⟩

theorem inv_round {due : ℕ → Prop} {s : SoftirqCall} (hs : s.Inv due) (hpc : s.pc = .loop) :
    s.round.Inv due := by
  have hkept : ∀ vec, due vec ∨ .raised vec ∈ s.log → RanSinceRaise vec s.log ∨
      (s.softirqPending.getLsbD vec = true ∨
        ∃ j, vec = s.h + j ∧ s.pending.getLsbD j = true) := by
    intro vec hvec
    have := hs vec hvec
    simpa only [Kept, hpc] using this
  unfold round
  by_cases hffs : ffs s.pending = 0
  · simp only [hffs, if_true]
    refine fun vec hvec => (hkept vec hvec).imp_right fun hbit => ?_
    simp only [Kept]
    refine hbit.resolve_right ?_
    rintro ⟨j, _, hj⟩
    rw [ffs_eq_zero.mp hffs] at hj
    simp at hj
  · simp only [hffs, if_false]
    obtain ⟨_, hlowest⟩ := ffs_spec hffs
    intro vec hvec
    have hdue : due vec ∨ .raised vec ∈ s.log := by
      refine hvec.imp_right fun hmem => ?_
      simpa using hmem
    simp only [Kept, hpc]
    rcases hkept vec hdue with hran | hbit | ⟨j, rfl, hj⟩
    · exact Or.inl (hran.append (by simp))
    · exact Or.inr (Or.inl hbit)
    · have hle := hlowest j hj
      by_cases hfirst : j = ffs s.pending - 1
      · -- This is the vector whose action the round starts.
        have hvecNr : s.h + ffs s.pending - 1 = s.h + j := by omega
        rw [hvecNr]
        exact Or.inl (ranSinceRaise_ran _ _)
      · refine Or.inr (Or.inr ⟨j - ffs s.pending, by omega, ?_⟩)
        have hj' : ffs s.pending + (j - ffs s.pending) = j := by omega
        rw [BitVec.getLsbD_ushiftRight, hj']
        exact hj

theorem inv_finish {due : ℕ → Prop} {s : SoftirqCall} (hs : s.Inv due)
    (hpc : s.pc = .irqDisabled) (again : Bool) : (s.finish again).Inv due := by
  have hkept : ∀ vec, due vec ∨ .raised vec ∈ s.log →
      RanSinceRaise vec s.log ∨ s.softirqPending.getLsbD vec = true := by
    intro vec hvec
    have := hs vec hvec
    simpa only [Kept, hpc] using this
  have hwoken : ∀ vec, due vec ∨ .raised vec ∈ s.log → RanSinceRaise vec s.log ∨
      (s.softirqPending.getLsbD vec = true ∧ true = true) :=
    fun vec hvec => (hkept vec hvec).imp_right fun hbit => ⟨hbit, rfl⟩
  unfold finish
  split_ifs with hrx hnone
  · exact hwoken
  · refine fun vec hvec => (hkept vec hvec).imp_right fun hbit => ?_
    rw [hnone] at hbit
    simp at hbit
  · exact hkept
  · exact hwoken
  · exact hwoken

theorem inv_step {due : ℕ → Prop} {isKsoftirqd : Bool} {s t : SoftirqCall} {e : SoftirqEvent}
    (hs : s.Inv due) (h : step isKsoftirqd s e = some t) : t.Inv due := by
  cases e with
  | raise vec =>
    rw [step] at h
    split_ifs at h with hpc
    exact Option.some.inj h ▸ inv_raise hs hpc vec
  | setTest value =>
    obtain rfl := Option.some.inj h
    exact hs
  | next again =>
    cases hpc : s.pc <;> simp only [step, hpc] at h
    case restart => exact Option.some.inj h ▸ inv_restart hs hpc isKsoftirqd
    case loop => exact Option.some.inj h ▸ inv_round hs hpc
    case irqDisabled => exact Option.some.inj h ▸ inv_finish hs hpc again
    case returned => cases h

/-! ## Every raise is on record -/

theorem log_prefix_step {isKsoftirqd : Bool} {s t : SoftirqCall} {e : SoftirqEvent}
    (h : step isKsoftirqd s e = some t) : s.log <+: t.log := by
  cases e with
  | raise vec =>
    rw [step] at h
    split_ifs at h
    exact Option.some.inj h ▸ List.prefix_append _ _
  | setTest value => exact Option.some.inj h ▸ List.prefix_refl _
  | next again =>
    cases hpc : s.pc <;> simp only [step, hpc] at h
    case returned => cases h
    all_goals obtain rfl := Option.some.inj h
    case restart =>
      unfold restart
      split_ifs <;> exact List.prefix_refl _
    case loop =>
      simp only [round]
      split_ifs
      · exact List.prefix_refl _
      · exact List.prefix_append _ _
    case irqDisabled =>
      unfold finish
      split_ifs <;> exact List.prefix_refl _

theorem raised_mem_log {isKsoftirqd : Bool} {t : SoftirqCall} {vec : Fin 32} :
    ∀ {es : List SoftirqEvent} {s : SoftirqCall}, run (step isKsoftirqd) s es = some t →
      s.log <+: t.log ∧ (.raise vec ∈ es → .raised vec.val ∈ t.log)
  | [], s, h => by
      obtain rfl := Option.some.inj h
      exact ⟨List.prefix_refl _, fun hmem => absurd hmem List.not_mem_nil⟩
  | e :: es, s, h => by
      obtain ⟨u, hu, ht⟩ := run_cons_eq_some.mp h
      obtain ⟨hpre, hrest⟩ := raised_mem_log ht
      refine ⟨(log_prefix_step hu).trans hpre, fun hmem => ?_⟩
      rcases List.mem_cons.mp hmem with rfl | hmem
      · rw [step] at hu
        split_ifs at hu
        obtain rfl := Option.some.inj hu
        exact hpre.subset (by simp)
      · exact hrest hmem

/-! ## The reception is left to `ksoftirqd` -/

/-- The bit of the reception is not in the copy that the loop works off, and its action has not
run. -/
structure Deferred (s : SoftirqCall) : Prop where
  test : s.ksoftirqdTest = 1
  notDue : s.pc = .loop → ∀ j, s.pending.getLsbD j = true → s.h + j ≠ netRxSoftirq
  notRun : .ran netRxSoftirq ∉ s.log

theorem deferred_restart {s : SoftirqCall} (hs : s.Deferred) : (s.restart false).Deferred := by
  unfold restart
  split_ifs with hrx
  · refine ⟨hs.test, fun _ j hj => ?_, hs.notRun⟩
    rintro hnet
    obtain rfl : j = netRxSoftirq := (Nat.zero_add j).symm.trans hnet
    rw [BitVec.getLsbD_xor, and_rxBitmask_ne_zero.mp hrx.2.2, getLsbD_rxBitmask] at hj
    simp at hj
  · refine ⟨hs.test, fun _ j hj hnet => hrx ⟨hs.test, rfl, ?_⟩, hs.notRun⟩
    obtain rfl : j = netRxSoftirq := (Nat.zero_add j).symm.trans hnet
    exact and_rxBitmask_ne_zero.mpr hj

theorem deferred_round {s : SoftirqCall} (hs : s.Deferred) (hpc : s.pc = .loop) :
    s.round.Deferred := by
  unfold round
  by_cases hffs : ffs s.pending = 0
  · simp only [hffs, if_true]
    exact ⟨hs.test, (fun h => nomatch h), hs.notRun⟩
  · simp only [hffs, if_false]
    obtain ⟨hset, _⟩ := ffs_spec hffs
    have hvec := hs.notDue hpc _ hset
    refine ⟨hs.test, fun _ j hj => ?_, ?_⟩
    · rw [BitVec.getLsbD_ushiftRight] at hj
      have := hs.notDue hpc _ hj
      simp only
      omega
    · simp only [List.mem_append, List.mem_singleton, Occurrence.ran.injEq, not_or]
      exact ⟨hs.notRun, by omega⟩

theorem deferred_step {s t : SoftirqCall} {e : SoftirqEvent} (hs : s.Deferred)
    (he : ∀ v, e = .setTest v → v = 1) (h : step false s e = some t) : t.Deferred := by
  cases e with
  | raise vec =>
    rw [step] at h
    split_ifs at h with hpc
    obtain rfl := Option.some.inj h
    exact ⟨hs.test, hs.notDue, by simpa using hs.notRun⟩
  | setTest value =>
    obtain rfl := Option.some.inj h
    exact ⟨he value rfl, hs.notDue, hs.notRun⟩
  | next again =>
    cases hpc : s.pc <;> simp only [step, hpc] at h
    case restart => exact Option.some.inj h ▸ deferred_restart hs
    case loop => exact Option.some.inj h ▸ deferred_round hs hpc
    case irqDisabled =>
      obtain rfl := Option.some.inj h
      unfold finish
      split_ifs <;> exact ⟨hs.test, (fun h => nomatch h), hs.notRun⟩
    case returned => cases h

theorem deferred_run {t : SoftirqCall} :
    ∀ {es : List SoftirqEvent} {s : SoftirqCall}, s.Deferred → (∀ v, .setTest v ∈ es → v = 1) →
      run (step false) s es = some t → t.Deferred
  | [], s, hs, _, h => Option.some.inj h ▸ hs
  | e :: es, s, hs, htest, h => by
      obtain ⟨u, hu, ht⟩ := run_cons_eq_some.mp h
      have hstep : u.Deferred :=
        deferred_step hs (fun v he => htest v (he ▸ List.mem_cons_self)) hu
      exact deferred_run hstep (fun v hv => htest v (List.mem_cons_of_mem e hv)) ht

/-- **No softirq is lost.** When `__do_softirq` returns, every vector that was pending on entry or
raised during the call has run after its last raise, or its bit is set in the mask and `ksoftirqd`
has been woken. With `ksoftirqd_test` constantly 1 and another current task the call does not run the
action of the reception. -/
theorem no_softirq_lost {isKsoftirqd : Bool} {test : ℤ} {mask : BitVec 32}
    {es : List SoftirqEvent} {s : SoftirqCall}
    (h : run (step isKsoftirqd) (entry test mask) es = some s) (hreturned : s.pc = .returned) :
    (∀ vec : Fin 32, mask.getLsbD vec = true ∨ .raise vec ∈ es →
      RanSinceRaise vec s.log ∨ (s.softirqPending.getLsbD vec = true ∧ s.woken = true)) ∧
    (isKsoftirqd = false → test = 1 → (∀ v, .setTest v ∈ es → v = 1) →
      .ran netRxSoftirq ∉ s.log) := by
  constructor
  · intro vec hvec
    have hinv := run_invariant (fun _ _ _ => inv_step) (inv_entry test mask) h
    have hkept := hinv vec (hvec.imp_right (raised_mem_log h).2)
    simpa only [Kept, hreturned] using hkept
  · rintro rfl rfl htest
    have hentry : (entry 1 mask).Deferred :=
      ⟨rfl, fun hpc => absurd hpc (by simp [entry]), List.not_mem_nil⟩
    exact (deferred_run hentry htest h).notRun

/-- The reception and the timer are pending, and the timer is raised again while its action runs:
the timer has run, its bit and that of the reception are in the mask. -/
theorem no_softirq_lost_deferred :
    ∃ s, run (step false) (entry 1 0b1010)
        [.next true, .next true, .raise 1, .next true, .next true] = some s ∧
      s.log = [.ran 1, .raised 1] ∧ s.woken = true ∧
      (RanSinceRaise 1 s.log ∨ (s.softirqPending.getLsbD 1 = true ∧ s.woken = true)) ∧
      .ran netRxSoftirq ∉ s.log := by
  have hs : run (step false) (entry 1 0b1010)
      [.next true, .next true, .raise 1, .next true, .next true] =
        some ⟨1, 0b1010, 0, 2, true, 10, true, .returned, [.ran 1, .raised 1]⟩ := by decide +kernel
  obtain ⟨hkept, hdeferred⟩ := no_softirq_lost hs rfl
  refine ⟨_, hs, rfl, rfl, hkept 1 (Or.inr (by simp)), hdeferred rfl rfl ?_⟩
  intro v hv
  simp at hv

/-! ## The call returns -/

/-- The vectors of the copy are those of the word, counted from `h`. -/
def InWord (s : SoftirqCall) : Prop :=
  s.pc = .loop → s.h ≤ 32 ∧ ∀ j, s.pending.getLsbD j = true → s.h + j < 32

/-- A bound on the statements to come: at most 10 passes of at most 32 rounds. -/
def statementsLeft (s : SoftirqCall) : ℕ :=
  match s.pc with
  | .restart => 36 * s.maxRestart + 35
  | .loop => 36 * s.maxRestart + (34 - s.h)
  | .irqDisabled => 36 * s.maxRestart + 1
  | .returned => 0

theorem restart_spec (isKsoftirqd : Bool) (s : SoftirqCall) :
    (s.restart isKsoftirqd).pc = .loop ∧ (s.restart isKsoftirqd).h = 0 ∧
      (s.restart isKsoftirqd).maxRestart = s.maxRestart := by
  unfold restart
  split_ifs <;> exact ⟨rfl, rfl, rfl⟩

theorem inWord_step {isKsoftirqd : Bool} {s t : SoftirqCall} {e : SoftirqEvent}
    (hs : s.InWord) (h : step isKsoftirqd s e = some t) : t.InWord := by
  cases e with
  | raise vec =>
    rw [step] at h
    split_ifs at h
    exact Option.some.inj h ▸ hs
  | setTest value => exact Option.some.inj h ▸ hs
  | next again =>
    cases hpc : s.pc <;> simp only [step, hpc] at h
    case restart =>
      obtain rfl := Option.some.inj h
      obtain ⟨_, hzero, _⟩ := restart_spec isKsoftirqd s
      intro _
      rw [hzero]
      refine ⟨Nat.zero_le 32, fun j hj => ?_⟩
      have := BitVec.lt_of_getLsbD hj
      omega
    case loop =>
      obtain rfl := Option.some.inj h
      obtain ⟨_, hword⟩ := hs hpc
      intro hloop
      unfold round at hloop ⊢
      by_cases hffs : ffs s.pending = 0
      · simp [hffs] at hloop
      · simp only [hffs, if_false]
        have hfirst := hword _ (ffs_spec hffs).1
        refine ⟨by omega, fun j hj => ?_⟩
        rw [BitVec.getLsbD_ushiftRight] at hj
        have := hword _ hj
        omega
    case irqDisabled =>
      obtain rfl := Option.some.inj h
      intro hloop
      unfold finish at hloop
      split_ifs at hloop
    case returned => cases h

/-- Every statement lowers the bound; raises and changes of the parameter do not touch it. -/
theorem statementsLeft_step {isKsoftirqd : Bool} {s t : SoftirqCall} {e : SoftirqEvent}
    (hs : s.InWord) (h : step isKsoftirqd s e = some t) :
    t.statementsLeft + e.statements ≤ s.statementsLeft := by
  cases e with
  | raise vec =>
    rw [step] at h
    split_ifs at h
    exact Option.some.inj h ▸ le_refl _
  | setTest value => exact Option.some.inj h ▸ le_refl _
  | next again =>
    cases hpc : s.pc <;> simp only [step, hpc] at h
    case restart =>
      obtain rfl := Option.some.inj h
      obtain ⟨hloop, hzero, hmax⟩ := restart_spec isKsoftirqd s
      simp only [statementsLeft, SoftirqEvent.statements, hpc, hloop, hzero, hmax]
      omega
    case loop =>
      obtain rfl := Option.some.inj h
      obtain ⟨hle, hword⟩ := hs hpc
      unfold round
      by_cases hffs : ffs s.pending = 0
      · simp only [hffs, if_true, statementsLeft, SoftirqEvent.statements, hpc]
        omega
      · simp only [hffs, if_false, statementsLeft, SoftirqEvent.statements, hpc]
        have hfirst := hword _ (ffs_spec hffs).1
        omega
    case irqDisabled =>
      obtain rfl := Option.some.inj h
      unfold finish
      split_ifs with _ _ _ hmax
      all_goals simp only [statementsLeft, hpc, SoftirqEvent.statements]
      all_goals omega
    case returned => cases h

theorem statementsLeft_run {isKsoftirqd : Bool} {t : SoftirqCall} :
    ∀ {es : List SoftirqEvent} {s : SoftirqCall}, s.InWord → run (step isKsoftirqd) s es = some t →
      (es.map SoftirqEvent.statements).sum + t.statementsLeft ≤ s.statementsLeft
  | [], s, _, h => by
      obtain rfl := Option.some.inj h
      exact le_of_eq (Nat.zero_add _)
  | e :: es, s, hs, h => by
      obtain ⟨u, hu, ht⟩ := run_cons_eq_some.mp h
      have hstep := statementsLeft_step hs hu
      have hrest := statementsLeft_run (inWord_step hs hu) ht
      rw [List.map_cons, List.sum_cons]
      omega

/-- **`__do_softirq` returns.** Whatever is raised meanwhile, the call has a next statement until it
has returned, and it returns within 395 of them. -/
theorem returns {isKsoftirqd : Bool} {test : ℤ} {mask : BitVec 32} {es : List SoftirqEvent}
    {s : SoftirqCall} (h : run (step isKsoftirqd) (entry test mask) es = some s) :
    (es.map SoftirqEvent.statements).sum ≤ 395 ∧
      (s.pc = .returned ∨ ∀ again, ∃ t, step isKsoftirqd s (.next again) = some t) := by
  have hword : (entry test mask).InWord := fun hpc => absurd hpc (by simp [entry])
  have hbound := statementsLeft_run hword h
  have hentry : (entry test mask).statementsLeft = 395 := rfl
  refine ⟨by omega, ?_⟩
  cases hpc : s.pc
  case returned => exact Or.inl rfl
  all_goals exact Or.inr fun again => by simp [step, hpc]

end SoftirqCall

end CrosRt.Kernel
