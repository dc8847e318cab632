import CrosRt.Driver.PortRegistry
import CrosRt.Driver.RtQueues

/-! # Priority-ordered service

Ports are registered and removed, frames arrive at the priority of their port and `rt_poll` serves
them, in any order, each step atomic. `rt_poll` finds the next priority in the flags of the
registry and not in the queues, so what has to survive every step is that waiting frames are
covered by the flags (`RtQueues.Covered`). Removing a port never clears a flag of a real-time
priority, which is why frames of removed ports are still served.
-/

namespace CrosRt
set_option autoImplicit false

/-- A frame with the priority it was queued at. -/
structure RtFrame (F : Type*) where
  priority : ℤ
  skb : F
  deriving DecidableEq

/-- The registry, the priority queues and `highest_pri`. -/
structure RtService (hash : ℤ → Fin 256) (F : Type*) where
  registry : PortRegistry hash
  pq : PriorityQueue (RtFrame F)
  highestPri : ℤ

inductive RtEvent (F : Type*)
  | setPort (allocated : Bool) (priority port : ℤ)
  | removePort (port : ℤ)
  | arrive (port : ℤ) (skb : F)
  | poll

namespace RtService
open LabelledRuns

variable {hash : ℤ → Fin 256} {F : Type*}

def init : RtService hash F where
  registry := .empty
  pq := .const []
  highestPri := 1

def queues (s : RtService hash F) : RtQueues (RtFrame F) :=
  ⟨s.registry.priorityInUse, s.pq, s.highestPri⟩

def afterPoll (s : RtService hash F) : RtService hash F where
  registry := { s.registry with priorityInUse := (rtPoll s.queues).state.priorityInUse }
  pq := (rtPoll s.queues).state.pq
  highestPri := (rtPoll s.queues).state.highestPri

/-- One step. Registrations are of priorities `1 .. 99`, and a frame is queued when the priority
of its port is one of these. -/
def step (s : RtService hash F) : RtEvent F → Option (RtService hash F)
  | .setPort allocated priority port =>
      if 1 ≤ priority ∧ priority ≤ 99 then
        some { s with registry := s.registry.setPortPriority allocated priority port }
      else none
  | .removePort port => some { s with registry := s.registry.removePortPriority port }
  | .arrive port skb =>
      let priority := s.registry.getPortPriority port
      if 1 ≤ priority ∧ priority ≤ 99 then
        some { s with
          pq := priorityQueueInsert s.pq ⟨priority, skb⟩ priority
          highestPri := max s.highestPri priority }
      else none
  | .poll => some s.afterPoll

@[simp] theorem step_poll (s : RtService hash F) : step s .poll = some s.afterPoll := rfl

/-- Registering and removing change the registry only, and clear no flag of a priority other
than 0. -/
theorem step_registry {s t : RtService hash F} {e : RtEvent F}
    (harrive : ∀ port skb, e ≠ .arrive port skb) (hpoll : e ≠ .poll) (h : step s e = some t) :
    ∃ r, t = { s with registry := r } ∧
      ∀ q, q ≠ 0 → s.registry.priorityInUse.cell q = true → r.priorityInUse.cell q = true := by
  cases e with
  | setPort allocated priority port =>
    rw [step] at h
    by_cases hp : 1 ≤ priority ∧ priority ≤ 99
    · rw [if_pos hp, Option.some.injEq] at h
      refine ⟨_, h.symm, fun q _ hq => ?_⟩
      exact s.registry.inUse_setPortPriority_cell allocated priority port hq
    · rw [if_neg hp] at h
      cases h
  | removePort port =>
    rw [step, Option.some.injEq] at h
    refine ⟨_, h.symm, fun q hq hflag => ?_⟩
    exact (s.registry.inUse_removePortPriority_cell port hq).trans hflag
  | arrive port skb => exact absurd rfl (harrive port skb)
  | poll => exact absurd rfl hpoll

/-! ## The invariant -/

/-- Waiting frames are covered by the flags, so are the priorities of the table, and every frame
waits in the queue of its own priority. -/
structure Inv (s : RtService hash F) : Prop where
  covered : s.queues.Covered
  flagged : ∀ port, ∀ e ∈ s.registry.entries port, s.registry.priorityInUse.cell e.priority = true
  positive : ∀ port, ∀ e ∈ s.registry.entries port, 1 ≤ e.priority
  tagged : ∀ q, ∀ f ∈ s.pq.cell q, f.priority = q

theorem inv_init : (init : RtService hash F).Inv where
  covered :=
    { highest_pos := le_refl 1
      highest_le := by simp [queues, init]
      nonempty_le := fun q _ hne => absurd rfl hne
      nonempty_inUse := fun q _ hne => absurd rfl hne }
  flagged := fun _ _ he => absurd he List.not_mem_nil
  positive := fun _ _ he => absurd he List.not_mem_nil
  tagged := fun _ _ hf => absurd hf List.not_mem_nil

theorem inv_setPort {s : RtService hash F} (h : s.Inv) (allocated : Bool) {priority : ℤ}
    (port : ℤ) (hp : 1 ≤ priority ∧ priority ≤ 99) :
    Inv { s with registry := s.registry.setPortPriority allocated priority port } := by
  have hkeep : ∀ q, s.registry.priorityInUse.cell q = true →
      (s.registry.setPortPriority allocated priority port).priorityInUse.cell q = true :=
    fun q hq => s.registry.inUse_setPortPriority_cell allocated priority port hq
  have hentries : ∀ q, ∀ e ∈ (s.registry.setPortPriority allocated priority port).entries q,
      e ∈ s.registry.entries q ∨
        (e.priority = priority ∧
          (s.registry.setPortPriority allocated priority port).priorityInUse.cell priority
            = true) := by
    intro q e he
    cases allocated with
    | false => exact Or.inl he
    | true =>
      rw [PortRegistry.entries_setPortPriority] at he
      by_cases hq : port = q
      · rw [if_pos hq, List.mem_cons] at he
        rcases he with rfl | he
        · refine Or.inr ⟨rfl, ?_⟩
          rw [PortRegistry.inUse_setPortPriority, if_pos (by omega), TracedArray.write_cell_self]
        · exact Or.inl he
      · rw [if_neg hq] at he
        exact Or.inl he
  refine ⟨h.covered.of_flags rfl rfl fun q _ => hkeep q, ?_, ?_, h.tagged⟩
  · intro q e he
    rcases hentries q e he with he | ⟨hpri, hflag⟩
    · exact hkeep _ (h.flagged q e he)
    · rw [hpri]
      exact hflag
  · intro q e he
    rcases hentries q e he with he | ⟨hpri, _⟩
    · exact h.positive q e he
    · rw [hpri]
      exact hp.1

theorem inv_removePort {s : RtService hash F} (h : s.Inv) (port : ℤ) :
    Inv { s with registry := s.registry.removePortPriority port } := by
  have hkeep : ∀ q, q ≠ 0 → (s.registry.removePortPriority port).priorityInUse.cell q =
      s.registry.priorityInUse.cell q :=
    fun q hq => s.registry.inUse_removePortPriority_cell port hq
  have hentries : ∀ q, ∀ e ∈ (s.registry.removePortPriority port).entries q,
      e ∈ s.registry.entries q := by
    intro q e he
    rw [PortRegistry.entries_removePortPriority] at he
    by_cases hq : q = port
    · rw [if_pos hq] at he
      exact hq ▸ List.mem_of_mem_tail he
    · rw [if_neg hq] at he
      exact he
  refine ⟨h.covered.of_flags rfl rfl fun q hq hflag => ?_, ?_, ?_, h.tagged⟩
  · exact (hkeep q (by omega)).trans hflag
  · intro q e he
    have hpos := h.positive q e (hentries q e he)
    rw [hkeep _ (by omega)]
    exact h.flagged q e (hentries q e he)
  · exact fun q e he => h.positive q e (hentries q e he)

/-- The priority of a registered port is in use. A port without entry has priority 0. -/
theorem Inv.inUse_getPortPriority {s : RtService hash F} (h : s.Inv) (port : ℤ)
    (hp : 1 ≤ s.registry.getPortPriority port) :
    s.registry.priorityInUse.cell (s.registry.getPortPriority port) = true := by
  cases he : s.registry.entries port with
  | nil =>
    rw [PortRegistry.getPortPriority_of_nil he] at hp
    omega
  | cons e older =>
    rw [PortRegistry.getPortPriority_of_cons he]
    exact h.flagged port e (he ▸ List.mem_cons_self)

theorem inv_arrive {s : RtService hash F} (h : s.Inv) (port : ℤ) (skb : F)
    (hp : 1 ≤ s.registry.getPortPriority port ∧ s.registry.getPortPriority port ≤ 99) :
    Inv { s with
      pq := priorityQueueInsert s.pq ⟨s.registry.getPortPriority port, skb⟩
        (s.registry.getPortPriority port)
      highestPri := max s.highestPri (s.registry.getPortPriority port) } := by
  refine ⟨?_, h.flagged, h.positive, ?_⟩
  · exact h.covered.insert ⟨s.registry.getPortPriority port, skb⟩ hp.1 hp.2
      (h.inUse_getPortPriority port hp.1)
  · intro q f hf
    by_cases hq : q = s.registry.getPortPriority port
    · simp only [hq, priorityQueueInsert_cell_self, List.mem_append, List.mem_singleton] at hf
      rcases hf with hf | rfl
      · exact hq ▸ h.tagged _ f hf
      · exact hq.symm
    · simp only [priorityQueueInsert_cell_ne s.pq _ hq] at hf
      exact h.tagged q f hf

theorem inv_afterPoll {s : RtService hash F} (h : s.Inv) : s.afterPoll.Inv := by
  have hcell : s.afterPoll.registry.priorityInUse.cell = s.registry.priorityInUse.cell :=
    rtPoll_inUse_cell s.queues
  refine ⟨h.covered.rtPoll, ?_, h.positive, ?_⟩
  · intro q e he
    rw [hcell]
    exact h.flagged q e he
  · intro q f hf
    by_cases hq : q = s.queues.highestPri
    · have hnil : s.afterPoll.pq.cell q = [] := hq ▸ rtPoll_cell_self s.queues
      rw [hnil] at hf
      cases hf
    · have hsame : s.afterPoll.pq.cell q = s.pq.cell q := rtPoll_cell_ne s.queues hq
      rw [hsame] at hf
      exact h.tagged q f hf

theorem inv_step {s t : RtService hash F} {e : RtEvent F} (h : s.Inv) (hst : step s e = some t) :
    t.Inv := by
  cases e with
  | setPort allocated priority port =>
    rw [step] at hst
    by_cases hp : 1 ≤ priority ∧ priority ≤ 99
    · rw [if_pos hp, Option.some.injEq] at hst
      exact hst ▸ inv_setPort h allocated port hp
    · rw [if_neg hp] at hst
      cases hst
  | removePort port =>
    rw [step, Option.some.injEq] at hst
    exact hst ▸ inv_removePort h port
  | arrive port skb =>
    rw [step] at hst
    by_cases hp : 1 ≤ s.registry.getPortPriority port ∧ s.registry.getPortPriority port ≤ 99
    · rw [if_pos hp, Option.some.injEq] at hst
      exact hst ▸ inv_arrive h port skb hp
    · rw [if_neg hp] at hst
      cases hst
  | poll =>
    rw [step_poll, Option.some.injEq] at hst
    exact hst ▸ inv_afterPoll h

theorem inv_reachable {s : RtService hash F} {es : List (RtEvent F)}
    (h : run step init es = some s) : s.Inv :=
  run_invariant (fun _ _ _ => inv_step) inv_init h

/-! ## Service in the order of priorities -/

theorem Inv.empty_above {s : RtService hash F} (h : s.Inv) {f : RtFrame F}
    (hf : f ∈ (rtPoll s.queues).delivered) {q : ℤ} (hq : f.priority < q) :
    s.pq.cell q = [] ∧ s.afterPoll.pq.cell q = [] := by
  rw [rtPoll_delivered] at hf
  have hpri : f.priority = s.highestPri := h.tagged _ f hf
  have hpos : 1 ≤ s.highestPri := h.covered.highest_pos
  have hbefore : s.pq.cell q = [] := by
    by_contra hne
    have hle : q ≤ s.highestPri := h.covered.nonempty_le q (by omega) hne
    omega
  refine ⟨hbefore, ?_⟩
  have hne : q ≠ s.queues.highestPri := fun he => by
    have : q = s.highestPri := he
    omega
  exact (rtPoll_cell_ne s.queues hne).trans hbefore

/-! ## Bounded time to empty queues -/

/-- All queues `1 .. 99` are empty and `highest_pri` is 1. -/
def Drained (s : RtService hash F) : Prop :=
  s.highestPri = 1 ∧ ∀ q, 1 ≤ q → q ≤ 99 → s.pq.cell q = []

/-- At most `k` more polls are needed. -/
def DrainedWithin (k : ℕ) (s : RtService hash F) : Prop := s.Drained ∨ s.highestPri ≤ k

theorem drained_afterPoll_of_highest_one {s : RtService hash F} (h : s.Inv)
    (hone : s.highestPri = 1) : s.afterPoll.Drained := by
  have hlow : s.queues.highestPri < 2 := by
    change s.highestPri < 2
    omega
  refine ⟨rtPoll_highest_of_lt s.queues hlow, fun q h₁ _ => ?_⟩
  by_cases hq : q = s.queues.highestPri
  · exact hq ▸ rtPoll_cell_self s.queues
  · refine (rtPoll_cell_ne s.queues hq).trans ?_
    by_contra hne
    have hq1 : q ≠ s.highestPri := hq
    have hle : q ≤ s.highestPri := h.covered.nonempty_le q (by omega) hne
    omega

theorem drainedWithin_poll {s : RtService hash F} (h : s.Inv) {k : ℕ}
    (hk : DrainedWithin k s) : DrainedWithin (k - 1) s.afterPoll := by
  have hpos : 1 ≤ s.highestPri := h.covered.highest_pos
  by_cases hone : s.highestPri = 1
  · exact Or.inl (drained_afterPoll_of_highest_one h hone)
  · have hle : s.highestPri ≤ k := hk.resolve_left fun hd => hone hd.1
    have hlower : s.afterPoll.highestPri ≤ max 1 (s.highestPri - 1) :=
      rtPoll_highest_le s.queues hpos
    refine Or.inr ?_
    omega

theorem drainedWithin_step {s t : RtService hash F} (h : s.Inv) {e : RtEvent F} {k : ℕ}
    (hk : DrainedWithin k s) (hno : ∀ port skb, e ≠ .arrive port skb) (hst : step s e = some t) :
    DrainedWithin (match e with | .poll => k - 1 | _ => k) t := by
  cases e with
  | setPort allocated priority port =>
    obtain ⟨r, rfl, _⟩ := step_registry hno (by simp) hst
    exact hk
  | removePort port =>
    obtain ⟨r, rfl, _⟩ := step_registry hno (by simp) hst
    exact hk
  | arrive port skb => exact absurd rfl (hno port skb)
  | poll =>
    rw [step_poll, Option.some.injEq] at hst
    exact hst ▸ drainedWithin_poll h hk

def polls : List (RtEvent F) → ℕ
  | [] => 0
  | .poll :: es => polls es + 1
  | _ :: es => polls es

theorem drainedWithin_run {s t : RtService hash F} (h : s.Inv) :
    ∀ {es : List (RtEvent F)} {k : ℕ}, DrainedWithin k s →
      (∀ port skb, .arrive port skb ∉ es) → run step s es = some t →
      DrainedWithin (k - polls es) t
  | [], k, hk, _, hrun => by
      rw [run_nil, Option.some.injEq] at hrun
      exact hrun ▸ hk
  | e :: es, k, hk, hno, hrun => by
      obtain ⟨u, hu, hrun⟩ := run_cons_eq_some.mp hrun
      have hstep := drainedWithin_step h hk
        (fun port skb he => hno port skb (he ▸ List.mem_cons_self)) hu
      have hrest := drainedWithin_run (inv_step h hu) hstep
        (fun port skb he => hno port skb (List.mem_cons_of_mem e he)) hrun
      cases e with
      | poll =>
        have hcount : k - polls (.poll :: es) = k - 1 - polls es := by
          rw [polls]
          omega
        rw [hcount]
        exact hrest
      | _ => exact hrest

/-- Without arrivals, 99 polls anywhere among other registry steps serve every frame. -/
theorem drained_of_polls {s t : RtService hash F} (h : s.Inv) {es : List (RtEvent F)}
    (hno : ∀ port skb, .arrive port skb ∉ es) (hpolls : 99 ≤ polls es)
    (hrun : run step s es = some t) : t.Drained := by
  have hstart : DrainedWithin 99 s := Or.inr h.covered.highest_le
  have hend := drainedWithin_run h hstart hno hrun
  rw [Nat.sub_eq_zero_of_le hpolls] at hend
  refine hend.resolve_right fun hle => ?_
  have hpos : 1 ≤ t.highestPri :=
    (run_invariant (I := Inv) (fun _ _ _ => inv_step) h hrun).covered.highest_pos
  omega

theorem run_replicate_poll (s : RtService hash F) (n : ℕ) :
    run step s (List.replicate n .poll) = some (afterPoll^[n] s) := by
  induction n generalizing s with
  | zero => rfl
  | succ n ih =>
    rw [List.replicate_succ, run_cons_of_step (step_poll s), ih, Function.iterate_succ_apply]

theorem polls_replicate (n : ℕ) : polls (List.replicate n (.poll : RtEvent F)) = n := by
  induction n with
  | zero => rfl
  | succ n ih => rw [List.replicate_succ, polls, ih]

/-- **Priority-ordered service.** In every reachable state `rt_poll` hands over a frame only while
all queues above its priority are empty, and 99 consecutive polls leave all queues `1 .. 99` empty
and `highest_pri = 1`, whatever was registered, removed and queued before. -/
theorem ordered_service {s : RtService hash F} {es : List (RtEvent F)}
    (h : run step init es = some s) :
    (∀ f ∈ (rtPoll s.queues).delivered, ∀ q, f.priority < q →
      s.pq.cell q = [] ∧ s.afterPoll.pq.cell q = []) ∧
    ∃ n ≤ 99, ∀ m ≥ n, ∃ t, run step s (List.replicate m .poll) = some t ∧ t.Drained := by
  have hinv := inv_reachable h
  refine ⟨fun f hf q hq => hinv.empty_above hf hq, 99, le_refl 99, fun m hm => ?_⟩
  refine ⟨afterPoll^[m] s, run_replicate_poll s m, ?_⟩
  refine drained_of_polls hinv ?_ (by rw [polls_replicate]; exact hm) (run_replicate_poll s m)
  intro port skb hmem
  have := List.eq_of_mem_replicate hmem
  cases this

/-- Two ports, one removed while its frame waits under a frame of higher priority. -/
theorem ordered_service_two_ports :
    ∃ s : RtService Kernel.hashMin ℕ,
      run step init [.setPort true 50 7411, .setPort true 10 7413, .arrive 7413 1, .arrive 7411 2,
        .removePort 7413] = some s ∧
      s.pq.cell 10 = [⟨10, 1⟩] ∧ (rtPoll s.queues).delivered = [⟨50, 2⟩] ∧
      s.afterPoll.pq.cell 51 = [] ∧
      ∃ t, run step s (List.replicate 99 .poll) = some t ∧ t.Drained := by
  obtain ⟨s, hs⟩ : ∃ s : RtService Kernel.hashMin ℕ,
      run step init [.setPort true 50 7411, .setPort true 10 7413, .arrive 7413 1, .arrive 7411 2,
        .removePort 7413] = some s := ⟨_, rfl⟩
  have hq : s.pq.cell 10 = [⟨10, 1⟩] ∧ (rtPoll s.queues).delivered = [⟨50, 2⟩] := by
    obtain rfl := Option.some.inj hs
    exact ⟨by decide, by decide⟩
  obtain ⟨habove, n, hn, hdrain⟩ := ordered_service hs
  refine ⟨s, hs, hq.1, hq.2, (habove ⟨50, 2⟩ ?_ 51 (by decide)).2, hdrain 99 hn⟩
  rw [hq.2]
  exact List.mem_singleton_self _

end RtService

end CrosRt
