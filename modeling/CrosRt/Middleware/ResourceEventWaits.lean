import CrosRt.Middleware.ResourceEventRuns

/-! # Waiting for the timers

The two condition variables of `ResourceEvent.cpp` and the time up to which the service thread sleeps.
Neither wait misses what it is for (`no_lost_wakeup`). The orders of a round are carried out, no timer
that is due is passed over or triggered twice, and the sleep ends with the first trigger time
(`timers_in_time`).
-/

namespace CrosRt.Middleware
set_option autoImplicit false

open LabelledRuns SortedVector

variable {Timer Client : Type}

namespace ResourceEvent
variable {s t : ResourceEvent Timer Client}

/-! ## The condition variables -/

/-- The service thread waits: until when, and what has happened to a wait that is not notified. -/
structure Sleeping (s : ResourceEvent Timer Client) (currentTime deadline : ℕ) : Prop where
  deadline : ∀ tp ∈ s.activeTimers, deadline ≤ max (s.nextTriggerTime tp) (currentTime + 10000)
  unsignalled : s.signalled = false → s.pendingTimers = [] ∧ s.stop = false

structure Waits (s : ResourceEvent Timer Client) : Prop where
  away : s.service.Away → s.allowVectorManipulation = true
  sleeping : ∀ now deadline, s.service = .waiting now deadline → s.Sleeping now deadline
  unnotified : ∀ c event, s.client c = .manipulation event false →
    s.allowVectorManipulation = false ∨ s.service = .notifyAll

theorem waits_init (next : Timer → ℕ) : (init next : ResourceEvent Timer Client).Waits where
  away := fun h => absurd h id
  sleeping := fun _ _ h => by cases h
  unnotified := fun _ _ h => by cases h

/-- The others wait while the service thread works. -/
theorem Waits.of_not_away (hservice : ¬ t.service.Away) (hallow : t.allowVectorManipulation = false) :
    t.Waits where
  away := fun h => absurd h hservice
  sleeping := fun _ _ h => absurd (by rw [h]; trivial) hservice
  unnotified := fun _ _ _ => Or.inl hallow

/-- Behind `notify_all` nobody is left waiting unnotified. -/
theorem Waits.not_unnotified (h : s.Waits) (hservice : s.service.Away) (hne : s.service ≠ .notifyAll)
    (c : Client) (event : Timer) : s.client c ≠ .manipulation event false := by
  intro hc
  rcases h.unnotified c event hc with hallow | heq
  · exact absurd ((h.away hservice).symm.trans hallow) (by decide)
  · exact hne heq

theorem notifyManipulation_client (c : Client) (event : Timer) :
    s.notifyManipulation.client c ≠ .manipulation event false := by
  unfold notifyManipulation
  dsimp only
  split
  · nofun
  · rename_i hother
    exact hother event false

theorem Waits.notifyOne (h : s.Waits) : s.notifyOne.Waits where
  away := h.away
  sleeping := fun now deadline hpc => ⟨(h.sleeping now deadline hpc).deadline, fun hs => by cases hs⟩
  unnotified := h.unnotified

theorem Waits.setClient [DecidableEq Client] (h : s.Waits) (c : Client) {pc : ClientPc Timer}
    (hpc : ∀ event, pc = .manipulation event false → s.allowVectorManipulation = false) :
    (s.setClient c pc).Waits where
  away := h.away
  sleeping := fun now deadline heq => ⟨(h.sleeping now deadline heq).deadline,
    (h.sleeping now deadline heq).unsignalled⟩
  unnotified := by
    intro c' event heq
    have heq : Function.update s.client c pc c' = .manipulation event false := heq
    rw [Function.update_apply] at heq
    split at heq
    · exact Or.inl (hpc event heq)
    · exact h.unnotified c' event heq

theorem Waits.setIdle [DecidableEq Client] (h : s.Waits) (c : Client) :
    (s.setClient c .idle).Waits :=
  h.setClient c fun _ heq => by cases heq

section Calls
variable [DecidableEq Timer]

theorem Waits.registerTimer (h : s.Waits) (event : Timer) : (s.registerTimer event).Waits where
  away := h.away
  sleeping := fun now deadline heq => ⟨(h.sleeping now deadline heq).deadline,
    (h.sleeping now deadline heq).unsignalled⟩
  unnotified := h.unnotified

/-- A new order wakes the service thread. -/
theorem Waits.notify (h : s.Waits) (event : Timer) : (s.notify event).Waits := by
  unfold ResourceEvent.notify
  split
  · exact h
  · exact {
      away := h.away
      sleeping := fun now deadline hpc =>
        ⟨(h.sleeping now deadline hpc).deadline, fun hs => by cases hs⟩
      unnotified := h.unnotified }

theorem Waits.remove (h : s.Waits) (isServiceThread : Bool) (event : Timer) :
    (s.remove isServiceThread event).Waits := by
  have hbase : ({ s with
      pendingTimers := s.pendingTimers.erase event
      activeTimers := s.activeTimers.erase event
      skipCheckingActiveTimers :=
        if event ∈ s.activeTimers ∧ isServiceThread then true else s.skipCheckingActiveTimers
      timersCount := s.timersCount - 1
      registered := s.registered.erase event } : ResourceEvent Timer Client).Waits := by
    refine ⟨h.away, fun now deadline heq => ⟨fun tp htp => ?_, fun hs => ?_⟩, h.unnotified⟩
    · exact (h.sleeping now deadline heq).deadline tp (List.mem_of_mem_erase htp)
    · obtain ⟨hpending, hstop⟩ := (h.sleeping now deadline heq).unsignalled hs
      refine ⟨?_, hstop⟩
      show s.pendingTimers.erase event = []
      rw [hpending, List.erase_nil]
  unfold ResourceEvent.remove
  dsimp only
  split
  · exact hbase.notifyOne
  · exact hbase

theorem Waits.callback (h : s.Waits) (call : TimerCall Timer) : (s.callback call).Waits := by
  cases call with
  | registerTimer event => exact (h.registerTimer event).notifyOne
  | notify event => exact h.notify event
  | unregisterTimer event => exact h.remove true event

variable [DecidableEq Client]

theorem Waits.manipulate (h : s.Waits) (c : Client) (event : Timer) :
    (s.manipulate c event).Waits := by
  unfold ResourceEvent.manipulate
  split
  · exact (h.remove false event).setIdle c
  · rename_i hallow
    exact h.setClient c fun _ _ => Bool.eq_false_of_not_eq_true hallow

theorem Waits.clientCall (h : s.Waits) (c : Client) (call : TimerCall Timer) :
    (s.clientCall c call).Waits := by
  cases call with
  | registerTimer event => exact (h.registerTimer event).setClient c fun _ heq => by cases heq
  | notify event => exact h.notify event
  | unregisterTimer event => exact h.manipulate c event

end Calls

/-! ## The service thread -/

/-- The wait ends with the first trigger time, or ten microseconds from now where that has passed. -/
theorem nextTrigger_le (h : SortedBy s.nextTriggerTime s.activeTimers) (now : ℕ) {tp : Timer}
    (htp : tp ∈ s.activeTimers) : s.nextTrigger now ≤ max (s.nextTriggerTime tp) (now + 10000) := by
  unfold nextTrigger
  cases hactive : s.activeTimers with
  | nil =>
    rw [hactive] at htp
    exact absurd htp List.not_mem_nil
  | cons first rest =>
    rw [hactive] at htp h
    have hle : s.nextTriggerTime first ≤ s.nextTriggerTime tp := h.head_le htp
    dsimp only
    split
    · exact le_max_right _ _
    · exact le_max_of_le_left hle

theorem Waits.testPending (hv : s.Vectors) (hpc : s.service = .testPending) (now : ℕ) :
    (s.testPending now).Waits := by
  have hnot : s.allowVectorManipulation = false := hv.not_allow (by rw [hpc]; exact id)
  have hsorted := hv.sorted (by rw [hpc]; trivial)
  unfold ResourceEvent.testPending
  split
  · exact Waits.of_not_away id hnot
  · rename_i hstop
    split
    · exact Waits.of_not_away id hnot
    · rename_i hpending
      have hpending : s.pendingTimers = [] := of_not_not hpending
      refine ⟨fun _ => rfl, ?_, ?_⟩
      · intro now' deadline heq
        obtain ⟨rfl, rfl⟩ := ServicePc.waiting.inj heq
        exact ⟨fun tp htp => nextTrigger_le hsorted now htp,
          fun _ => ⟨hpending, Bool.eq_false_of_not_eq_true hstop⟩⟩
      · intro c event hc
        exact absurd hc (notifyManipulation_client c event)

section Steps
variable [DecidableEq Timer]

theorem waits_serviceStep (h : s.Waits) (hv : s.Vectors) {input : ServiceInput Timer}
    (hst : s.serviceStep input = some t) : t.Waits := by
  have hnot : ¬ s.service.Away → s.allowVectorManipulation = false := hv.not_allow
  unfold serviceStep at hst
  cases hpc : s.service <;> simp only [hpc] at hst hnot
  case loop =>
    split at hst <;> obtain rfl := Option.some.inj hst <;> exact Waits.of_not_away id (hnot id)
  case processPending =>
    obtain rfl := Option.some.inj hst
    exact Waits.of_not_away id (hnot id)
  case check i last =>
    unfold ResourceEvent.check at hst
    split at hst
    · obtain rfl := Option.some.inj hst
      exact Waits.of_not_away id (hnot id)
    · obtain ⟨tp, -, rfl⟩ := Option.map_eq_some_iff.mp hst
      split <;> exact Waits.of_not_away id (hnot id)
  case trigger i last tp =>
    split at hst <;> obtain rfl := Option.some.inj hst <;> exact Waits.of_not_away id (hnot id)
  case keepSorted =>
    unfold ResourceEvent.keepSorted at hst
    split at hst
    · rw [Option.ite_none_right_eq_some] at hst
      obtain rfl := Option.some.inj hst.2
      exact Waits.of_not_away id (hnot id)
    · obtain rfl := Option.some.inj hst
      exact Waits.of_not_away id (hnot id)
  case testPending =>
    obtain rfl := Option.some.inj hst
    exact Waits.testPending hv hpc input.now
  case waiting now deadline =>
    obtain rfl := Option.some.inj hst
    have haway : s.service.Away := by rw [hpc]; trivial
    have hne : s.service ≠ .notifyAll := by rw [hpc]; nofun
    exact ⟨fun _ => h.away haway, nofun, fun c event hc => absurd hc (h.not_unnotified haway hne c event)⟩
  case woken =>
    obtain rfl := Option.some.inj hst
    exact Waits.of_not_away id rfl
  case stopping =>
    obtain rfl := Option.some.inj hst
    exact ⟨fun _ => rfl, nofun, fun _ _ _ => Or.inr rfl⟩
  case notifyAll =>
    obtain rfl := Option.some.inj hst
    refine ⟨fun _ => h.away (by rw [hpc]; trivial), nofun, fun c event hc => ?_⟩
    exact absurd hc (notifyManipulation_client c event)
  case done => cases hst
  case joined => cases hst

variable [DecidableEq Client]

theorem waits_step (h : s.Waits) (hv : s.Vectors) {e : TimerEvent Timer Client}
    (hst : s.step e = some t) : t.Waits := by
  cases e with
  | service input => exact waits_serviceStep h hv hst
  | callback call =>
    obtain ⟨i, last, tp, -, rfl⟩ := step_callback hst
    exact h.callback call
  | retime nextTrigger =>
    obtain ⟨i, last, tp, hpc, rfl⟩ := step_retime hst
    have haway : ¬ s.service.Away := by rw [hpc]; exact id
    exact Waits.of_not_away haway (hv.not_allow haway)
  | call c call =>
    obtain rfl := step_call hst
    exact h.clientCall c call
  | client c =>
    obtain rfl | ⟨event, n, -, rfl⟩ | ⟨hpc, rfl⟩ := step_client hst
    · exact h.notifyOne.setIdle c
    · exact h.manipulate c event
    · have haway : s.service.Away := by rw [hpc]; trivial
      have hne : s.service ≠ .notifyAll := by rw [hpc]; intro heq; cases heq
      have hset : (s.setClient c .idle).Waits := h.setIdle c
      refine ⟨fun _ => h.away haway, fun now deadline heq => ?_, fun c' event hc => ?_⟩
      · cases heq
      · exact absurd hc (hset.not_unnotified haway hne c' event)
  | stopThread c =>
    obtain rfl := step_stopThread hst
    have hstopped : ({ s.notifyOne with stop := true } : ResourceEvent Timer Client).Waits :=
      ⟨h.away, fun now deadline hpc =>
        ⟨(h.sleeping now deadline hpc).deadline, fun hs => by cases hs⟩, h.unnotified⟩
    exact hstopped.setClient c fun _ heq => by cases heq
  | initThread =>
    obtain ⟨-, rfl⟩ := step_initThread hst
    exact Waits.of_not_away id rfl

theorem waits_run {next : Timer → ℕ} {es : List (TimerEvent Timer Client)}
    (hrun : run step (init next) es = some s) : s.Waits := by
  have hstep : ∀ (s : ResourceEvent Timer Client) e t, s.Vectors ∧ s.Waits → step s e = some t →
      t.Vectors ∧ t.Waits := fun _ _ _ h hst => ⟨vectors_step h.1 hst, waits_step h.2 h.1 hst⟩
  have hinit : (init next : ResourceEvent Timer Client).Vectors ∧
      (init next : ResourceEvent Timer Client).Waits :=
    ⟨vectors_init next, waits_init next⟩
  have hboth : s.Vectors ∧ s.Waits := run_invariant hstep hinit hrun
  exact hboth.2

end Steps

section Runs
variable [DecidableEq Timer]

/-- What `keep active_timers_ sorted` does. -/
theorem mem_keepSorted {order : List Timer} (hst : s.keepSorted order = some t)
    (hdid : s.didSomething = true) (tp : Timer) :
    tp ∈ t.activeTimers ↔ tp ∈ s.activeTimers ∧ s.nextTriggerTime tp < s.cancelTime := by
  unfold ResourceEvent.keepSorted at hst
  rw [if_pos hdid, Option.ite_none_right_eq_some] at hst
  obtain ⟨⟨hperm, hsorted⟩, hst⟩ := hst
  obtain rfl := Option.some.inj hst
  have hsorted : SortedBy s.nextTriggerTime order := hsorted
  exact (mem_take_lowerBound hsorted).trans (and_congr_left fun _ => hperm.mem_iff)

variable [DecidableEq Client]

/-- No wake-up is lost. A wait of the service thread that has not been notified has no order and no stop
to see; a thread in `unregister_timer` waits unnotified only while the vectors are kept from it, or right
before `notify_all`; and they are free whenever the service thread is away. -/
theorem no_lost_wakeup {next : Timer → ℕ} {es : List (TimerEvent Timer Client)}
    (hrun : run step (init next) es = some s) :
    (∀ now deadline, s.service = .waiting now deadline → s.signalled = false →
      s.pendingTimers = [] ∧ s.stop = false) ∧
    (∀ c event, s.client c = .manipulation event false →
      s.allowVectorManipulation = false ∨ s.service = .notifyAll) ∧
    (s.service.Away → s.allowVectorManipulation = true) := by
  have h := waits_run hrun
  refine ⟨fun now deadline hpc => ?_, h.unnotified, h.away⟩
  exact (h.sleeping now deadline hpc).unsignalled

/-- A thread comes to unregister a timer in the middle of a round, and waits until the service thread
does. -/
def unregisteredWhileBusy : List (TimerEvent ℕ Bool) :=
  let input : ServiceInput ℕ := ⟨7, fun _ => (true, 100000), []⟩
  [.call true (.registerTimer 0), .client true, .call true (.notify 0), .service input,
    .service input, .call true (.unregisterTimer 0), .service input, .service input, .service input]

theorem no_lost_wakeup_unregistered :
    ∃ s, run step (init fun _ => 0) unregisteredWhileBusy = some s ∧
      s.service = .waiting 7 100000 ∧ s.client true = .manipulation 0 true ∧
      s.pendingTimers = [] ∧ s.stop = false := by
  obtain ⟨s, hs, hpc, hclient, hsignalled⟩ :
      ∃ s, run step (init fun _ => 0) unregisteredWhileBusy = some s ∧
        s.service = .waiting 7 100000 ∧ s.client true = .manipulation 0 true ∧
        s.signalled = false :=
    ⟨_, rfl, by decide, by decide, by decide⟩
  exact ⟨s, hs, hpc, hclient, (no_lost_wakeup hs).1 7 100000 hpc hsignalled⟩

/-- A round carries out the pending orders, whatever `update` decides; triggers no timer twice and passes
over none that is due, unless a callback has taken one out; keeps exactly the timers that are not
cancelled; and the sleep behind it ends with the first trigger time. -/
theorem timers_in_time {next : Timer → ℕ} {es : List (TimerEvent Timer Client)}
    (hrun : run step (init next) es = some s) :
    (s.service = .processPending → ∀ update tp, tp ∈ (s.processPending update).activeTimers ↔
      if tp ∈ s.pendingTimers then (update tp).1 = true else tp ∈ s.activeTimers) ∧
    s.triggered.Nodup ∧
    (s.service = .keepSorted → s.skipCheckingActiveTimers = false → s.NonePassedOver) ∧
    (∀ input t, s.service = .keepSorted → s.didSomething = true → s.serviceStep input = some t →
      ∀ tp, tp ∈ t.activeTimers ↔ tp ∈ s.activeTimers ∧ s.nextTriggerTime tp < s.cancelTime) ∧
    (∀ now deadline, s.service = .waiting now deadline →
      ∀ tp ∈ s.activeTimers, deadline ≤ max (s.nextTriggerTime tp) (now + 10000)) := by
  have hv := vectors_run hrun
  have hw := waits_run hrun
  refine ⟨fun hpc update tp => hv.mem_processPending hpc update, hv.nodupTriggered,
    fun hpc => (hv.keepSorted hpc).2, ?_, ?_⟩
  · intro input t hpc hdid hst
    unfold serviceStep at hst
    simp only [hpc] at hst
    exact mem_keepSorted hst hdid
  · exact fun now deadline hpc => (hw.sleeping now deadline hpc).deadline

theorem timers_in_time_unregistered :
    ∃ s, run step (init fun _ => 0) unregisteredWhileBusy = some s ∧
      s.service = .waiting 7 100000 ∧ s.activeTimers = [0] ∧
      100000 ≤ max (s.nextTriggerTime 0) 10007 := by
  obtain ⟨s, hs, hpc, hactive⟩ :
      ∃ s, run step (init fun _ => 0) unregisteredWhileBusy = some s ∧
        s.service = .waiting 7 100000 ∧ s.activeTimers = [0] :=
    ⟨_, rfl, by decide, by decide⟩
  have hdeadline := (timers_in_time hs).2.2.2.2 7 100000 hpc 0
    (by rw [hactive]; exact List.mem_singleton_self 0)
  exact ⟨s, hs, hpc, hactive, hdeadline⟩

end Runs

end ResourceEvent

end CrosRt.Middleware
