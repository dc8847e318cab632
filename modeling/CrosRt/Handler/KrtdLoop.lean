import CrosRt.Handler.RtHandler

/-! # The loop of `krtd` on its own

While `kmond` sleeps and no frame comes in, `krtd` goes down from priority to priority: each poll
drains one queue, the priority it re-reads decides whether it goes round again, and below 2 it
sleeps. The decision is taken from the lowered `highest_pri` and not from the queues. From 2 on the
next poll serves what the scan has found; at 1 there is no next poll, and queue 1 has been served
only if `krtd` started there.
-/

namespace CrosRt
set_option autoImplicit false

open Kernel LabelledRuns

namespace RtHandler

variable {hash : ℤ → Fin 256} {F : Type*}

/-! ## One round -/

theorem krtdStep_schedule {s : RtHandler hash F} (hpc : s.krtd.pc = .schedule)
    (hst : s.krtd.taskState ≠ .running) :
    s.krtdStep = some { s with krtd := { s.krtd with pc := .blocked } } := by
  rw [krtdStep, hpc]
  exact if_neg hst

theorem step_krtd_asleep {s : RtHandler hash F} (h : s.KrtdAsleep) : step s .krtd = none := by
  have hstep : s.krtdStep = none := by
    rw [krtdStep, h.1]
    exact if_neg h.2
  rw [step, hstep, ite_self]

theorem krtd_rereads {s : RtHandler hash F} (hsleep : s.KmondAsleep)
    (hpc : s.krtd.pc = .readHighest) (hpos : 1 ≤ s.service.highestPri)
    (hle : s.service.highestPri ≤ 99) :
    run step s [.krtd, .krtd] = some { s with krtd := { s.krtd with
      pc := .testPriority
      rtPriority := s.service.highestPri
      curPriority := s.service.highestPri } } := by
  have hread : step s .krtd = some { s with krtd := { s.krtd with
      pc := .setScheduler, curPriority := s.service.highestPri } } := by
    rw [step, if_pos hsleep, krtdStep, hpc]
    rfl
  have hstore : step { s with krtd := { s.krtd with
        pc := .setScheduler, curPriority := s.service.highestPri } } .krtd =
      some { s with krtd := { s.krtd with
        pc := .testPriority
        rtPriority := schedSetFifo s.krtd.rtPriority s.service.highestPri
        curPriority := s.service.highestPri } } := if_pos hsleep
  rw [run_cons_of_step hread, run_cons_of_step hstore, run_nil, schedSetFifo_of_valid _ ⟨hpos, hle⟩]

/-- At a priority from 2 on `krtd` goes round once more. -/
theorem krtd_round {s : RtHandler hash F} (hsleep : s.KmondAsleep)
    (hpc : s.krtd.pc = .readHighest) (hhigh : 2 ≤ s.service.highestPri)
    (hle : s.service.highestPri ≤ 99) :
    run step s (List.replicate 5 .krtd) =
      some { s with
        service := s.service.afterPoll
        krtd := { s.krtd with
          pc := .readHighest
          rtPriority := s.service.highestPri
          curPriority := s.service.highestPri } } := by
  change run step s ([.krtd, .krtd] ++ [.krtd, .krtd, .krtd]) = _
  rw [run_append, krtd_rereads hsleep hpc (by omega) hle, Option.bind_some]
  -- The test, the end of the loop body and the poll.
  rw [run_cons_of_step ((if_pos hsleep).trans (if_neg (not_lt.mpr hhigh))),
    run_cons_of_step (if_pos hsleep), run_cons_of_step (if_pos hsleep), run_nil]

theorem krtd_fallsAsleep {s : RtHandler hash F} (hsleep : s.KmondAsleep)
    (hpc : s.krtd.pc = .readHighest) (hone : s.service.highestPri = 1) :
    run step s (List.replicate 5 .krtd) =
      some { s with krtd := { s.krtd with
        pc := .blocked
        taskState := .interruptible
        rtPriority := s.service.highestPri
        curPriority := s.service.highestPri } } := by
  have hlow : s.service.highestPri < 2 := by omega
  change run step s ([.krtd, .krtd] ++ [.krtd, .krtd, .krtd]) = _
  rw [run_append, krtd_rereads hsleep hpc (by omega) (by omega), Option.bind_some]
  -- The test, `set_current_state(TASK_INTERRUPTIBLE)` and `schedule()`.
  rw [run_cons_of_step ((if_pos hsleep).trans (if_pos hlow)),
    run_cons_of_step (if_pos hsleep),
    run_cons_of_step ((if_pos hsleep).trans (krtdStep_schedule rfl (by simp))), run_nil]

/-! ## The way down -/

/-- Alone, `krtd` goes down to priority 1 and sleeps. What the polls from priority 2 on keep still
holds then. -/
theorem krtd_descends {P : RtService hash F → Prop}
    (hkeep : ∀ r : RtService hash F, P r → 2 ≤ r.highestPri → r.highestPri ≤ 99 → P r.afterPoll) :
    ∀ (k : ℕ) {s : RtHandler hash F}, s.KmondAsleep → s.krtd.pc = .readHighest →
      1 ≤ s.service.highestPri → s.service.highestPri ≤ 99 → s.service.highestPri ≤ k + 1 →
      P s.service →
      ∃ n t, run step s (List.replicate n .krtd) = some t ∧ t.KmondAsleep ∧ t.KrtdAsleep ∧
        t.service.highestPri = 1 ∧ P t.service := by
  intro k
  induction k with
  | zero =>
    intro s hsleep hpc hpos hle hk hs
    have hone : s.service.highestPri = 1 := by
      push_cast at hk
      omega
    exact ⟨5, _, krtd_fallsAsleep hsleep hpc hone, hsleep, ⟨rfl, by simp⟩, hone, hs⟩
  | succ k ih =>
    intro s hsleep hpc hpos hle hk hs
    by_cases hhigh : 2 ≤ s.service.highestPri
    · have hlower : s.service.afterPoll.highestPri ≤ max 1 (s.service.highestPri - 1) :=
        rtPoll_highest_le s.service.queues hpos
      have hpos' : 1 ≤ s.service.afterPoll.highestPri := rtPoll_highest_pos s.service.queues
      have hround := krtd_round hsleep hpc hhigh hle
      -- The state after the round, with its service lowered by one poll.
      obtain ⟨n, t, hrun, hend⟩ := ih (s := { s with
          service := s.service.afterPoll
          krtd := { s.krtd with
            pc := .readHighest
            rtPriority := s.service.highestPri
            curPriority := s.service.highestPri } })
        hsleep rfl hpos' (by simp only; omega) (by push_cast at hk; simp only; omega)
        (hkeep s.service hs hhigh hle)
      refine ⟨5 + n, t, ?_, hend⟩
      rw [List.replicate_add, run_append_eq_some]
      exact ⟨_, hround, hrun⟩
    · have hone : s.service.highestPri = 1 := by omega
      exact ⟨5, _, krtd_fallsAsleep hsleep hpc hone, hsleep, ⟨rfl, by simp⟩, hone, hs⟩

/-- A run of `krtd` alone ends where it sleeps. -/
theorem not_krtdAsleep_before {s t : RtHandler hash F} {n : ℕ}
    (hrun : run step s (List.replicate n .krtd) = some t) {m : ℕ} (hm : m < n)
    {u : RtHandler hash F} (hu : run step s (List.replicate m .krtd) = some u) :
    ¬ u.KrtdAsleep := by
  intro hasleep
  obtain ⟨d, rfl⟩ : ∃ d, n = m + (d + 1) := ⟨n - m - 1, by omega⟩
  rw [List.replicate_add, run_append, hu, Option.bind_some, List.replicate_succ, run_cons,
    step_krtd_asleep hasleep] at hrun
  cases hrun

/-! ## What is left in the queues -/

/-- What the service looks like to a `krtd` that starts its loop: queues above the highest priority
are empty and waiting frames have their priority marked. -/
structure LoopEntry (r : RtService hash F) : Prop where
  highest_pos : 1 ≤ r.highestPri
  highest_le : r.highestPri ≤ 99
  marked : ∀ q, 1 ≤ q → q ≤ 99 → r.pq.cell q ≠ [] → r.registry.priorityInUse.cell q = true
  empty_above : ∀ q, r.highestPri < q → q ≤ 99 → r.pq.cell q = []

/-- The same of the queues `2 .. 99`, with the queue of priority 1 as it was. -/
structure Descending (low : List (RtFrame F)) (r : RtService hash F) : Prop where
  marked : ∀ q, 2 ≤ q → q ≤ 99 → r.pq.cell q ≠ [] → r.registry.priorityInUse.cell q = true
  empty_above : ∀ q, 2 ≤ q → r.highestPri < q → q ≤ 99 → r.pq.cell q = []
  low : r.pq.cell 1 = low

theorem Descending.afterPoll {low : List (RtFrame F)} {r : RtService hash F}
    (h : Descending low r) (hhigh : 2 ≤ r.highestPri) : Descending low r.afterPoll where
  marked := by
    intro q hq hle hne
    have hflags : r.afterPoll.registry.priorityInUse.cell = r.registry.priorityInUse.cell :=
      rtPoll_inUse_cell r.queues
    rw [hflags]
    by_cases heq : q = r.queues.highestPri
    · exact absurd (heq ▸ rtPoll_cell_self r.queues) hne
    · have hsame : r.afterPoll.pq.cell q = r.pq.cell q := rtPoll_cell_ne r.queues heq
      exact h.marked q hq hle (hsame ▸ hne)
  empty_above := by
    intro q hq hlt hle
    by_cases heq : q = r.queues.highestPri
    · exact heq ▸ rtPoll_cell_self r.queues
    · refine (rtPoll_cell_ne r.queues heq).trans ?_
      by_contra hne
      -- A waiting frame below the old highest priority stops the scan at its priority.
      have hinUse : r.queues.priorityInUse.cell q = true := h.marked q hq hle hne
      have hbelow : q < r.queues.highestPri := by
        by_contra hge
        have hlt' : r.highestPri < q := lt_of_le_of_ne (not_lt.mp hge) (Ne.symm heq)
        exact hne (h.empty_above q hq hlt' hle)
      have hreach := le_getNext_of_inUse r.queues.priorityInUse r.queues.highestPri (by omega)
        hbelow hinUse
      rw [← rtPoll_highest_of_ge r.queues hhigh] at hreach
      exact absurd hlt (not_lt.mpr hreach)
  low := by
    have hne : (1 : ℤ) ≠ r.queues.highestPri := by
      have : r.queues.highestPri = r.highestPri := rfl
      omega
    exact (rtPoll_cell_ne r.queues hne).trans h.low

theorem LoopEntry.descending {r : RtService hash F} (h : LoopEntry r) :
    Descending (r.pq.cell 1) r where
  marked := fun q hq => h.marked q (by omega)
  empty_above := fun q _ => h.empty_above q
  low := rfl

/-- The poll at the start of the loop serves queue 1 only when it is the highest. -/
theorem LoopEntry.afterPoll {r : RtService hash F} (h : LoopEntry r) :
    Descending (if r.highestPri = 1 then [] else r.pq.cell 1) r.afterPoll := by
  by_cases hone : r.highestPri = 1
  · rw [if_pos hone]
    have hempty : ∀ q, 1 ≤ q → q ≤ 99 → r.afterPoll.pq.cell q = [] := by
      intro q hq hle
      by_cases heq : q = r.queues.highestPri
      · exact heq ▸ rtPoll_cell_self r.queues
      · refine (rtPoll_cell_ne r.queues heq).trans (h.empty_above q ?_ hle)
        have : r.queues.highestPri = r.highestPri := rfl
        omega
    exact
      { marked := fun q hq hle hne => absurd (hempty q (by omega) hle) hne
        empty_above := fun q hq _ => hempty q (by omega)
        low := hempty 1 (le_refl 1) (by omega) }
  · rw [if_neg hone]
    have hpos := h.highest_pos
    exact h.descending.afterPoll (by omega)

/-- **Where `krtd` comes to sleep.** From the start of its loop, alone, `krtd` reaches its
`schedule()`, a first time, and all queues `1 .. 99` are empty there exactly when it started at
priority 1 or queue 1 was empty: the queues `2 .. 99` are always drained, and frames of priority 1
below another priority are slept upon. -/
theorem krtd_sleeps_on_empty_queues_iff {s : RtHandler hash F} (hmon : s.KmondAsleep)
    (hpc : s.krtd.pc = .poll) (hs : LoopEntry s.service) :
    ∃ n t, run step s (List.replicate n .krtd) = some t ∧ t.KrtdAsleep ∧
      (∀ m < n, ∀ u, run step s (List.replicate m .krtd) = some u → ¬ u.KrtdAsleep) ∧
      ((∀ q, 1 ≤ q → q ≤ 99 → t.service.pq.cell q = []) ↔
        s.service.highestPri = 1 ∨ s.service.pq.cell 1 = []) := by
  have hpoll : step s .krtd = some { s with
      service := s.service.afterPoll, krtd := { s.krtd with pc := .readHighest } } := by
    rw [step, if_pos hmon, krtdStep, hpc]
  have hpos := hs.highest_pos
  have hle := hs.highest_le
  have hlower : s.service.afterPoll.highestPri ≤ max 1 (s.service.highestPri - 1) :=
    rtPoll_highest_le s.service.queues hpos
  obtain ⟨n, t, hrun, _, hasleep, hone, hend⟩ := krtd_descends
    (P := Descending (if s.service.highestPri = 1 then [] else s.service.pq.cell 1))
    (fun r hr hhigh _ => hr.afterPoll hhigh) 98
    (s := { s with service := s.service.afterPoll, krtd := { s.krtd with pc := .readHighest } })
    hmon rfl (rtPoll_highest_pos s.service.queues) (by simp only; omega) (by simp only; omega)
    hs.afterPoll
  have hrun' : run step s (List.replicate (n + 1) .krtd) = some t := by
    rw [List.replicate_succ, run_cons_of_step hpoll, hrun]
  refine ⟨n + 1, t, hrun', hasleep, fun m hm u => not_krtdAsleep_before hrun' hm, ?_⟩
  have hhigh : ∀ q, 2 ≤ q → q ≤ 99 → t.service.pq.cell q = [] :=
    fun q hq hq' => hend.empty_above q hq (by omega) hq'
  have hall : (∀ q, 1 ≤ q → q ≤ 99 → t.service.pq.cell q = []) ↔ t.service.pq.cell 1 = [] := by
    refine ⟨fun h => h 1 (le_refl 1) (by omega), fun h q hq hq' => ?_⟩
    rcases eq_or_lt_of_le hq with rfl | hlt
    · exact h
    · exact hhigh q (by omega) hq'
  rw [hall, hend.low]
  by_cases hstart : s.service.highestPri = 1
  · simp [hstart]
  · simp [hstart]

/-- `krtd` at the start of its loop, with frames of priorities 50 and 1. -/
def loopStart (high low : List (RtFrame ℕ)) : RtHandler hashMin ℕ where
  service :=
    { registry := { PortRegistry.empty with
        priorityInUse := ((TracedArray.const false).write 1 true).write 50 true }
      pq := ((TracedArray.const []).write 1 low).write 50 high
      highestPri := 50 }
  kmond := ⟨.blocked, .interruptible, 50, 1⟩
  krtd := ⟨.poll, .running, 50, 1⟩

theorem loopStart_loopEntry (high low : List (RtFrame ℕ)) :
    LoopEntry (loopStart high low).service where
  highest_pos := by
    show (1 : ℤ) ≤ 50
    omega
  highest_le := by
    show (50 : ℤ) ≤ 99
    omega
  marked := by
    intro q _ _ hne
    by_contra hflag
    by_cases h50 : q = 50
    · subst h50
      exact hflag rfl
    · by_cases h1 : q = 1
      · subst h1
        exact hflag rfl
      · simp [loopStart, h50, h1] at hne
  empty_above := by
    intro q hlt _
    have h50 : q ≠ 50 := ne_of_gt hlt
    have h1 : q ≠ 1 := by
      have : (50 : ℤ) < q := hlt
      omega
    simp [loopStart, h50, h1]

/-- One frame of priority 50 and none of priority 1. -/
theorem krtd_sleeps_on_empty_queues_iff_one_frame :
    ∃ n t, run step (loopStart [⟨50, 1⟩] []) (List.replicate n .krtd) = some t ∧ t.KrtdAsleep ∧
      ∀ q, 1 ≤ q → q ≤ 99 → t.service.pq.cell q = [] := by
  obtain ⟨n, t, hrun, hasleep, _, hiff⟩ := krtd_sleeps_on_empty_queues_iff
    (s := loopStart [⟨50, 1⟩] []) ⟨rfl, by decide⟩ rfl (loopStart_loopEntry _ _)
  exact ⟨n, t, hrun, hasleep, hiff.mpr (Or.inr rfl)⟩

/-- With a second frame, of priority 1, `krtd` serves the first and sleeps on the second. -/
theorem krtd_sleeps_on_priority_one :
    LoopEntry (loopStart [⟨50, 1⟩] [⟨1, 2⟩]).service ∧
      ∃ t, run step (loopStart [⟨50, 1⟩] [⟨1, 2⟩]) (List.replicate 6 .krtd) = some t ∧
        t.KrtdAsleep ∧
        (∀ m < 6, ∀ u, run step (loopStart [⟨50, 1⟩] [⟨1, 2⟩]) (List.replicate m .krtd) = some u →
          ¬ u.KrtdAsleep) ∧
        t.service.pq.cell 1 = [⟨1, 2⟩] := by
  obtain ⟨t, ht⟩ : ∃ t, run step (loopStart [⟨50, 1⟩] [⟨1, 2⟩]) (List.replicate 6 .krtd) = some t :=
    ⟨_, rfl⟩
  have hend : t.KrtdAsleep ∧ t.service.pq.cell 1 = [⟨1, 2⟩] := by
    obtain rfl := Option.some.inj ht
    exact ⟨by decide, by decide⟩
  exact ⟨loopStart_loopEntry _ _, t, ht, hend.1, fun m hm u => not_krtdAsleep_before ht hm, hend.2⟩

end RtHandler

end CrosRt
