import Mathlib.Data.List.Sort
import CrosRt.Middleware.ResourceEvent

/-! # The service thread and the others

What holds of the timers in every run: the service thread only touches timers that are registered, its
iterator is always one of the vector it was made for, no other thread changes the vectors meanwhile, and
the ranges it searches are sorted (`timers_alive`). No wake-up is lost on either condition variable
(`no_lost_wakeup`), and the service thread neither passes over a timer that is due nor sleeps beyond the
first trigger time (`timers_in_time`).
-/

namespace CrosRt.Middleware
set_option autoImplicit false

open LabelledRuns SortedVector

variable {Timer Client : Type}

/-- The service thread neither has an iterator nor is about to make one. -/
def ServicePc.Away : ServicePc Timer → Prop
  | .waiting _ _ | .woken | .notifyAll | .done | .joined => True
  | _ => False

/-- The active timers are not being triggered. -/
def ServicePc.Settled : ServicePc Timer → Prop
  | .check _ _ | .trigger _ _ _ | .keepSorted => False
  | _ => True

namespace ResourceEvent
variable {s t : ResourceEvent Timer Client}

/-- What a caller has to keep to: a timer is notified while it is registered. -/
def NotifiesRegistered (s : ResourceEvent Timer Client) : TimerEvent Timer Client → Prop
  | .callback (.notify event) => event ∈ s.registered
  | .call _ (.notify event) => event ∈ s.registered
  | _ => True

instance [DecidableEq Timer] (s : ResourceEvent Timer Client) :
    ∀ e, Decidable (s.NotifiesRegistered e)
  | .callback (.notify event) => inferInstanceAs (Decidable (event ∈ s.registered))
  | .call _ (.notify event) => inferInstanceAs (Decidable (event ∈ s.registered))
  | .callback (.registerTimer _) | .callback (.unregisterTimer _) => .isTrue trivial
  | .call _ (.registerTimer _) | .call _ (.unregisterTimer _) => .isTrue trivial
  | .service _ | .retime _ | .client _ | .stopThread _ | .initThread => .isTrue trivial

/-! ## The steps -/

section Inversion
variable [DecidableEq Timer] [DecidableEq Client]

theorem step_callback {call : TimerCall Timer} (h : s.step (.callback call) = some t) :
    ∃ i last tp, s.service = .trigger i last tp ∧ t = s.callback call := by
  simp only [step] at h
  split at h
  · rename_i hpc
    exact ⟨_, _, _, hpc, (Option.some.inj h).symm⟩
  · cases h

theorem step_retime {nextTrigger : ℕ} (h : s.step (.retime nextTrigger) = some t) :
    ∃ i last tp, s.service = .trigger i last tp ∧
      t = { s with nextTriggerTime := Function.update s.nextTriggerTime tp nextTrigger } := by
  simp only [step] at h
  split at h
  · rename_i hpc
    exact ⟨_, _, _, hpc, (Option.some.inj h).symm⟩
  · cases h

theorem step_call {c : Client} {call : TimerCall Timer} (h : s.step (.call c call) = some t) :
    t = s.clientCall c call := by
  simp only [step, Option.ite_none_right_eq_some, Option.some.injEq] at h
  exact h.2.symm

/-- The next statement of a thread: its `notify_one`, the test of its wait, or the end of its `join`. -/
theorem step_client {c : Client} (h : s.step (.client c) = some t) :
    t = s.notifyOne.setClient c .idle ∨
    (∃ event notified, s.client c = .manipulation event notified ∧ t = s.manipulate c event) ∨
    s.service = .done ∧ t = { s.setClient c .idle with service := .joined } := by
  simp only [step, clientStep] at h
  split at h
  · cases h
  · exact Or.inl (Option.some.inj h).symm
  · rename_i hc
    exact Or.inr (Or.inl ⟨_, _, hc, (Option.some.inj h).symm⟩)
  · rw [Option.ite_none_right_eq_some] at h
    exact Or.inr (Or.inr ⟨h.1, (Option.some.inj h.2).symm⟩)

theorem step_stopThread {c : Client} (h : s.step (.stopThread c) = some t) : t = s.stopThread c := by
  simp only [step, Option.ite_none_right_eq_some, Option.some.injEq] at h
  exact h.2.symm

theorem step_initThread (h : s.step (.initThread : TimerEvent Timer Client) = some t) :
    s.service = .joined ∧ t = s.initThread := by
  simp only [step, Option.ite_none_right_eq_some, Option.some.injEq] at h
  exact ⟨h.1, h.2.symm⟩

end Inversion

/-! ## One order -/

section Orders
variable [DecidableEq Timer]

/-- `active_timers_` as the service thread keeps it. -/
structure Kept (x : List Timer × (Timer → ℕ)) : Prop where
  sorted : SortedBy x.2 x.1
  nodup : x.1.Nodup

theorem processOrder_eq (update : Timer → Bool × ℕ) (x : List Timer × (Timer → ℕ)) (tp : Timer) :
    processOrder update x tp = (if (update tp).1 then
      insertSorted (Function.update x.2 tp (update tp).2) (x.1.erase tp) tp else x.1.erase tp,
      Function.update x.2 tp (update tp).2) := by
  unfold processOrder
  dsimp only
  rw [erase_from_lowerBound]
  split_ifs <;> rfl

/-- A timer is found where it is, although its trigger time is what it is searched by. -/
theorem Kept.processOrder {x : List Timer × (Timer → ℕ)} (h : Kept x) (update : Timer → Bool × ℕ)
    (tp : Timer) : Kept (processOrder update x tp) := by
  have hnot : tp ∉ x.1.erase tp := h.nodup.not_mem_erase
  have hsorted : SortedBy (Function.update x.2 tp (update tp).2) (x.1.erase tp) := by
    refine (h.sorted.sublist List.erase_sublist).congr fun y hy => ?_
    have hne : y ≠ tp := ne_of_mem_of_not_mem hy hnot
    exact Function.update_of_ne hne _ _
  rw [processOrder_eq]
  split_ifs
  · have hperm := insertSorted_perm (Function.update x.2 tp (update tp).2) (x.1.erase tp) tp
    refine ⟨hsorted.insertSorted tp, ?_⟩
    exact hperm.nodup_iff.mpr (List.nodup_cons.mpr ⟨hnot, h.nodup.erase tp⟩)
  · exact ⟨hsorted, h.nodup.erase tp⟩

theorem Kept.foldl (update : Timer → Bool × ℕ) :
    ∀ {orders : List Timer} {x : List Timer × (Timer → ℕ)}, Kept x →
      Kept (orders.foldl (ResourceEvent.processOrder update) x)
  | [], _, h => h
  | tp :: orders, x, h => by
      have hrest : Kept (orders.foldl (ResourceEvent.processOrder update)
          (ResourceEvent.processOrder update x tp)) := Kept.foldl update (h.processOrder update tp)
      exact hrest

/-- The order of a timer decides whether it is active, and leaves the others. -/
theorem Kept.mem_processOrder {update : Timer → Bool × ℕ} {x : List Timer × (Timer → ℕ)}
    (h : Kept x) {tp y : Timer} :
    y ∈ (ResourceEvent.processOrder update x tp).1 ↔
      if y = tp then (update tp).1 = true else y ∈ x.1 := by
  rw [processOrder_eq]
  dsimp only
  by_cases hy : y = tp
  · subst hy
    rw [if_pos rfl]
    split_ifs with hactive
    · have hmem := (insertSorted_perm (Function.update x.2 y (update y).2) (x.1.erase y) y).mem_iff
        (a := y)
      exact iff_of_true (hmem.mpr List.mem_cons_self) hactive
    · exact iff_of_false h.nodup.not_mem_erase hactive
  · rw [if_neg hy]
    have herase : y ∈ x.1.erase tp ↔ y ∈ x.1 := List.mem_erase_of_ne hy
    split_ifs
    · rw [(insertSorted_perm _ _ _).mem_iff, List.mem_cons, or_iff_right hy]
      exact herase
    · exact herase

theorem Kept.mem_foldl (update : Timer → Bool × ℕ) {y : Timer} :
    ∀ {orders : List Timer} {x : List Timer × (Timer → ℕ)}, Kept x → orders.Nodup →
      (y ∈ (orders.foldl (ResourceEvent.processOrder update) x).1 ↔
        if y ∈ orders then (update y).1 = true else y ∈ x.1)
  | [], _, _, _ => by rw [if_neg List.not_mem_nil]; exact Iff.rfl
  | tp :: orders, x, h, hnodup => by
      obtain ⟨hnot, hnodup⟩ := List.nodup_cons.mp hnodup
      have hrest := Kept.mem_foldl update (y := y) (h.processOrder update tp) hnodup
      rw [h.mem_processOrder] at hrest
      rw [List.foldl_cons, hrest]
      by_cases hy : y = tp
      · subst hy
        rw [if_neg hnot, if_pos rfl, if_pos List.mem_cons_self]
      · rw [if_neg hy]
        simp only [List.mem_cons, hy, false_or]

end Orders

/-! ## The vectors -/

/-- Where the loop over the active timers is: those before the iterator have been triggered, those
behind it are as they were. -/
structure LoopAt (activeTimers triggered : List Timer) (next : Timer → ℕ) (i last : ℕ) : Prop where
  length : last = activeTimers.length
  le : i ≤ last
  triggered : triggered = activeTimers.take i
  sorted : SortedBy next (activeTimers.drop i)

/-- A timer of this round that is due has been triggered. -/
def NonePassedOver (s : ResourceEvent Timer Client) : Prop :=
  ∀ tp ∈ s.activeTimers, tp ∈ s.triggered ∨ s.currentTime < s.nextTriggerTime tp

structure Vectors (s : ResourceEvent Timer Client) : Prop where
  nodupPending : s.pendingTimers.Nodup
  nodupActive : s.activeTimers.Nodup
  nodupTriggered : s.triggered.Nodup
  allow : s.allowVectorManipulation = true → s.service.Away
  sorted : s.service.Settled → SortedBy s.nextTriggerTime s.activeTimers
  check : ∀ i last, s.service = .check i last →
    s.skipCheckingActiveTimers = false ∧ (s.didSomething = false → i = 0) ∧
      LoopAt s.activeTimers s.triggered s.nextTriggerTime i last
  trigger : ∀ i last tp, s.service = .trigger i last tp → s.didSomething = true ∧
    (s.skipCheckingActiveTimers = false → s.activeTimers[i]? = some tp ∧
      LoopAt s.activeTimers s.triggered s.nextTriggerTime (i + 1) last)
  keepSorted : s.service = .keepSorted →
    (s.didSomething = false → SortedBy s.nextTriggerTime s.activeTimers) ∧
      (s.skipCheckingActiveTimers = false → s.NonePassedOver)

theorem vectors_init (next : Timer → ℕ) : (init next : ResourceEvent Timer Client).Vectors where
  nodupPending := List.nodup_nil
  nodupActive := List.nodup_nil
  nodupTriggered := List.nodup_nil
  allow := fun h => by cases h
  sorted := fun _ => List.Pairwise.nil
  check := fun _ _ h => by cases h
  trigger := fun _ _ _ h => by cases h
  keepSorted := fun h => by cases h

/-! ### The calls -/

theorem Vectors.notifyOne (h : s.Vectors) : s.notifyOne.Vectors := { h with }

theorem Vectors.notifyManipulation (h : s.Vectors) : s.notifyManipulation.Vectors := { h with }

theorem Vectors.setClient [DecidableEq Client] (h : s.Vectors) (c : Client) (pc : ClientPc Timer) :
    (s.setClient c pc).Vectors := { h with }

/-- Between the rounds the vectors stay as they are. -/
theorem Vectors.settled (h : s.Vectors) (hs : s.service.Settled) (ht : t.service.Settled)
    (hallow : t.allowVectorManipulation = true → t.service.Away)
    (hpending : t.pendingTimers = s.pendingTimers) (hactive : t.activeTimers = s.activeTimers)
    (hnext : t.nextTriggerTime = s.nextTriggerTime) (htriggered : t.triggered = s.triggered) :
    t.Vectors := by
  constructor
  case nodupPending => exact hpending ▸ h.nodupPending
  case nodupActive => exact hactive ▸ h.nodupActive
  case nodupTriggered => exact htriggered ▸ h.nodupTriggered
  case allow => exact hallow
  case sorted => exact fun _ => hnext ▸ hactive ▸ h.sorted hs
  case check =>
    intro i last heq
    rw [heq] at ht
    exact absurd ht id
  case trigger =>
    intro i last tp heq
    rw [heq] at ht
    exact absurd ht id
  case keepSorted =>
    intro heq
    rw [heq] at ht
    exact absurd ht id

section Calls
variable [DecidableEq Timer]

theorem Vectors.registerTimer (h : s.Vectors) (event : Timer) : (s.registerTimer event).Vectors :=
  { h with }

theorem Vectors.notify (h : s.Vectors) (event : Timer) : (s.notify event).Vectors := by
  unfold ResourceEvent.notify
  split
  · exact h
  · rename_i hnot
    have hpending : (s.pendingTimers ++ [event]).Nodup :=
      List.Nodup.append h.nodupPending (List.nodup_singleton event) (by simpa using hnot)
    exact { h with nodupPending := hpending }

/-- A timer is taken out while the service thread is away or by the callback it runs. -/
theorem Vectors.remove (h : s.Vectors) {isServiceThread : Bool} {event : Timer}
    (hloop : s.service.Away ∨ isServiceThread = true ∧ ∃ i last tp, s.service = .trigger i last tp) :
    (s.remove isServiceThread event).Vectors := by
  have hne : ∀ pc : ServicePc Timer, ¬ pc.Away → (∀ i last tp, pc ≠ .trigger i last tp) →
      s.service ≠ pc := by
    rintro pc haway htrigger rfl
    rcases hloop with h | ⟨-, i, last, tp, h⟩
    · exact haway h
    · exact htrigger i last tp h
  have hbase : ({ s with
      pendingTimers := s.pendingTimers.erase event
      activeTimers := s.activeTimers.erase event
      skipCheckingActiveTimers :=
        if event ∈ s.activeTimers ∧ isServiceThread then true else s.skipCheckingActiveTimers
      timersCount := s.timersCount - 1
      registered := s.registered.erase event } : ResourceEvent Timer Client).Vectors := by
    constructor
    case nodupPending => exact h.nodupPending.erase event
    case nodupActive => exact h.nodupActive.erase event
    case nodupTriggered => exact h.nodupTriggered
    case allow => exact h.allow
    case sorted => exact fun hs => (h.sorted hs).sublist List.erase_sublist
    case check => exact fun i last heq => absurd heq (hne _ id nofun)
    case keepSorted => exact fun heq => absurd heq (hne _ id nofun)
    case trigger =>
      intro i last tp heq
      obtain ⟨hdid, hpart⟩ := h.trigger i last tp heq
      refine ⟨hdid, fun hskip => ?_⟩
      have hservice : isServiceThread = true := by
        rcases hloop with haway | ⟨hservice, -⟩
        · have heq : s.service = .trigger i last tp := heq
          rw [heq] at haway
          exact absurd haway id
        · exact hservice
      -- A timer of the vector would have set the flag.
      have hskip : (if event ∈ s.activeTimers ∧ isServiceThread = true then true
        else s.skipCheckingActiveTimers) = false := hskip
      split_ifs at hskip with hmem
      have hnot : event ∉ s.activeTimers := fun hin => hmem ⟨hin, hservice⟩
      show (s.activeTimers.erase event)[i]? = _ ∧ LoopAt (s.activeTimers.erase event) _ _ _ _
      rw [List.erase_of_not_mem hnot]
      exact hpart hskip
  unfold ResourceEvent.remove
  dsimp only
  split
  · exact hbase.notifyOne
  · exact hbase

theorem Vectors.callback (h : s.Vectors) {i last : ℕ} {tp : Timer}
    (hpc : s.service = .trigger i last tp) (call : TimerCall Timer) : (s.callback call).Vectors := by
  cases call with
  | registerTimer event => exact (h.registerTimer event).notifyOne
  | notify event => exact h.notify event
  | unregisterTimer event => exact h.remove (Or.inr ⟨rfl, i, last, tp, hpc⟩)

end Calls

section Steps
variable [DecidableEq Timer] [DecidableEq Client]

theorem Vectors.manipulate (h : s.Vectors) (c : Client) (event : Timer) :
    (s.manipulate c event).Vectors := by
  unfold ResourceEvent.manipulate
  split
  · rename_i hallow
    exact (h.remove (Or.inl (h.allow hallow))).setClient c .idle
  · exact h.setClient c _

theorem Vectors.clientCall (h : s.Vectors) (c : Client) (call : TimerCall Timer) :
    (s.clientCall c call).Vectors := by
  cases call with
  | registerTimer event => exact (h.registerTimer event).setClient c .notifyOne
  | notify event => exact h.notify event
  | unregisterTimer event => exact h.manipulate c event

end Steps

/-! ### The round -/

theorem drop_of_getElem?_eq_some {l : List Timer} {i : ℕ} {tp : Timer} (h : l[i]? = some tp) :
    l.drop i = tp :: l.drop (i + 1) := by
  obtain ⟨hi, hget⟩ := List.getElem?_eq_some_iff.mp h
  rw [← hget]
  exact List.drop_eq_getElem_cons hi

theorem Vectors.not_allow (h : s.Vectors) (hpc : ¬ s.service.Away) :
    s.allowVectorManipulation = false :=
  Bool.eq_false_of_not_eq_true fun hallow => hpc (h.allow hallow)

/-- The iterator is compared, and its timer looked at. -/
theorem Vectors.check_step (h : s.Vectors) {i last : ℕ} (hpc : s.service = .check i last)
    (hst : s.check i last = some t) : t.Vectors := by
  have hnot : s.allowVectorManipulation = false := h.not_allow (by rw [hpc]; exact id)
  obtain ⟨hskip, hzero, hloop⟩ := h.check i last hpc
  have hfirst : s.didSomething = false → SortedBy s.nextTriggerTime s.activeTimers := by
    intro hdid
    have hsorted := hloop.sorted
    rwa [hzero hdid, List.drop_zero] at hsorted
  have hend : s.NonePassedOver → ({ s with service := .keepSorted } :
      ResourceEvent Timer Client).Vectors := fun hnone =>
    { h with
      allow := fun hallow => absurd (hnot.symm.trans hallow) Bool.false_ne_true
      sorted := fun hs => absurd hs id
      check := nofun
      trigger := nofun
      keepSorted := fun _ => ⟨hfirst, fun _ => hnone⟩ }
  unfold ResourceEvent.check at hst
  split at hst
  · rename_i heq
    obtain rfl := Option.some.inj hst
    refine hend fun tp htp => Or.inl ?_
    rw [hloop.triggered, heq, hloop.length, List.take_length]
    exact htp
  · rename_i hlt
    obtain ⟨tp, htp, rfl⟩ := Option.map_eq_some_iff.mp hst
    have hi : i < s.activeTimers.length := (List.getElem?_eq_some_iff.mp htp).1
    have hdrop := drop_of_getElem?_eq_some htp
    have hsorted := hloop.sorted
    rw [hdrop] at hsorted
    split
    · have htake : s.triggered ++ [tp] = s.activeTimers.take (i + 1) := by
        rw [hloop.triggered, List.take_add_one, htp]
        rfl
      have hnodup : (s.triggered ++ [tp]).Nodup :=
        htake ▸ h.nodupActive.sublist (List.take_sublist _ _)
      refine { h with
        nodupTriggered := hnodup
        allow := fun hallow => absurd (hnot.symm.trans hallow) Bool.false_ne_true
        sorted := fun hs => absurd hs id
        check := nofun
        keepSorted := nofun
        trigger := ?_ }
      intro i' last' tp' heq
      obtain ⟨rfl, rfl, rfl⟩ := ServicePc.trigger.inj heq
      refine ⟨rfl, fun _ => ⟨htp, hloop.length, ?_, htake, (List.pairwise_cons.mp hsorted).2⟩⟩
      rw [hloop.length]
      exact hi
    · rename_i hlater
      refine hend fun x hx => ?_
      rw [← List.take_append_drop i s.activeTimers, List.mem_append, hdrop] at hx
      rcases hx with hx | hx
      · exact Or.inl (hloop.triggered ▸ hx)
      · exact Or.inr ((not_le.mp hlater).trans_le (hsorted.head_le hx))

theorem Vectors.triggered_step (h : s.Vectors) {i last : ℕ} {tp : Timer}
    (hpc : s.service = .trigger i last tp) :
    (if s.skipCheckingActiveTimers then { s with service := .keepSorted }
      else { s with service := .check (i + 1) last } : ResourceEvent Timer Client).Vectors := by
  have hnot : s.allowVectorManipulation = false := h.not_allow (by rw [hpc]; exact id)
  obtain ⟨hdid, hloop⟩ := h.trigger i last tp hpc
  have hnotFirst : s.didSomething ≠ false := by rw [hdid]; decide
  split
  · rename_i hskip
    exact { h with
      allow := fun hallow => absurd (hnot.symm.trans hallow) Bool.false_ne_true
      sorted := fun hs => absurd hs id
      check := nofun
      trigger := nofun
      keepSorted := fun _ => ⟨fun hfalse => absurd hfalse hnotFirst,
        fun hfalse => absurd (hskip.symm.trans hfalse) (by decide)⟩ }
  · rename_i hskip
    have hskip : s.skipCheckingActiveTimers = false := Bool.eq_false_of_not_eq_true hskip
    refine { h with
      allow := fun hallow => absurd (hnot.symm.trans hallow) Bool.false_ne_true
      sorted := fun hs => absurd hs id
      trigger := nofun
      keepSorted := nofun
      check := ?_ }
    intro i' last' heq
    obtain ⟨rfl, rfl⟩ := ServicePc.check.inj heq
    exact ⟨hskip, fun hfalse => absurd hfalse hnotFirst, (hloop hskip).2⟩

theorem Vectors.kept (h : s.Vectors) (hpc : s.service = .processPending) :
    Kept (s.activeTimers, s.nextTriggerTime) :=
  ⟨h.sorted (by rw [hpc]; trivial), h.nodupActive⟩

section Round
variable [DecidableEq Timer]

/-- Behind the pending orders the active timers are those that their last order made active. -/
theorem Vectors.mem_processPending (h : s.Vectors) (hpc : s.service = .processPending)
    (update : Timer → Bool × ℕ) {tp : Timer} :
    tp ∈ (s.processPending update).activeTimers ↔
      if tp ∈ s.pendingTimers then (update tp).1 = true else tp ∈ s.activeTimers :=
  Kept.mem_foldl update (h.kept hpc) h.nodupPending

theorem Vectors.processPending (h : s.Vectors) (hpc : s.service = .processPending)
    (update : Timer → Bool × ℕ) : (s.processPending update).Vectors := by
  have hkept : Kept (s.pendingTimers.foldl (processOrder update) (s.activeTimers,
      s.nextTriggerTime)) := Kept.foldl update (h.kept hpc)
  constructor
  case nodupPending => exact List.nodup_nil
  case nodupActive => exact hkept.nodup
  case nodupTriggered => exact List.nodup_nil
  case allow =>
    intro hallow
    have haway := h.allow hallow
    rw [hpc] at haway
    exact absurd haway id
  case sorted => exact fun hs => absurd hs id
  case trigger => exact fun _ _ _ heq => by cases heq
  case keepSorted => exact fun heq => by cases heq
  case check =>
    intro i last heq
    obtain ⟨rfl, rfl⟩ := ServicePc.check.inj heq
    exact ⟨rfl, fun _ => rfl, rfl, Nat.zero_le _, rfl, hkept.sorted⟩

/-- The trigger time that changes is one behind the iterator. -/
theorem Vectors.retime (h : s.Vectors) {i last : ℕ} {tp : Timer}
    (hpc : s.service = .trigger i last tp) (nextTrigger : ℕ) :
    ({ s with nextTriggerTime := Function.update s.nextTriggerTime tp nextTrigger } :
      ResourceEvent Timer Client).Vectors := by
  refine { h with
    sorted := fun hs => ?_
    check := fun i' last' heq => absurd (hpc.symm.trans heq) nofun
    keepSorted := fun heq => absurd (hpc.symm.trans heq) nofun
    trigger := ?_ }
  · have hs : s.service.Settled := hs
    rw [hpc] at hs
    exact absurd hs id
  · intro i' last' tp' heq
    obtain ⟨rfl, rfl, rfl⟩ := ServicePc.trigger.inj (hpc.symm.trans heq)
    obtain ⟨hdid, hloop⟩ := h.trigger i last tp hpc
    refine ⟨hdid, fun hskip => ?_⟩
    obtain ⟨htp, hpart⟩ := hloop hskip
    refine ⟨htp, hpart.length, hpart.le, hpart.triggered, hpart.sorted.congr fun x hx => ?_⟩
    have hnodup : (s.activeTimers.drop i).Nodup := h.nodupActive.sublist (List.drop_sublist _ _)
    rw [drop_of_getElem?_eq_some htp] at hnodup
    have hne : x ≠ tp := ne_of_mem_of_not_mem hx (List.nodup_cons.mp hnodup).1
    exact Function.update_of_ne hne _ _

theorem Vectors.keepSorted_step (h : s.Vectors) (hpc : s.service = .keepSorted) {order : List Timer}
    (hst : s.keepSorted order = some t) : t.Vectors := by
  have hnot : s.allowVectorManipulation = false := h.not_allow (by rw [hpc]; exact id)
  have hallow : s.allowVectorManipulation = true → (ServicePc.testPending : ServicePc Timer).Away :=
    fun hallow => absurd (hnot.symm.trans hallow) Bool.false_ne_true
  unfold ResourceEvent.keepSorted at hst
  split at hst
  · rw [Option.ite_none_right_eq_some] at hst
    obtain ⟨⟨hperm, hsorted⟩, hst⟩ := hst
    obtain rfl := Option.some.inj hst
    set bound := lowerBound s.nextTriggerTime order s.cancelTime
    have hsub : (order.take bound).Sublist order := List.take_sublist _ _
    exact { h with
      nodupActive := (hperm.nodup_iff.mpr h.nodupActive).sublist hsub
      allow := hallow
      sorted := fun _ => SortedBy.sublist hsorted hsub
      check := nofun
      trigger := nofun
      keepSorted := nofun }
  · rename_i hdid
    obtain rfl := Option.some.inj hst
    have hsorted := (h.keepSorted hpc).1 (Bool.eq_false_of_not_eq_true hdid)
    exact { h with
      allow := hallow
      sorted := fun _ => hsorted
      check := nofun
      trigger := nofun
      keepSorted := nofun }

theorem vectors_serviceStep (h : s.Vectors) {input : ServiceInput Timer}
    (hst : s.serviceStep input = some t) : t.Vectors := by
  unfold serviceStep at hst
  cases hpc : s.service <;> simp only [hpc] at hst
  case loop =>
    have hs : s.service.Settled := by rw [hpc]; trivial
    have hnot : s.allowVectorManipulation = false := h.not_allow (by rw [hpc]; exact id)
    split at hst
    all_goals
      obtain rfl := Option.some.inj hst
      refine h.settled hs trivial (fun hallow => ?_) rfl rfl rfl rfl
      exact absurd (hnot.symm.trans hallow) Bool.false_ne_true
  case processPending =>
    obtain rfl := Option.some.inj hst
    exact h.processPending hpc input.update
  case check i last => exact h.check_step hpc hst
  case trigger i last tp =>
    have hround := h.triggered_step hpc
    split at hst
    · rename_i hskip
      rw [if_pos hskip] at hround
      exact Option.some.inj hst ▸ hround
    · rename_i hskip
      rw [if_neg hskip] at hround
      exact Option.some.inj hst ▸ hround
  case keepSorted => exact h.keepSorted_step hpc hst
  case testPending =>
    have hs : s.service.Settled := by rw [hpc]; trivial
    have hnot : s.allowVectorManipulation = false := h.not_allow (by rw [hpc]; exact id)
    obtain rfl := Option.some.inj hst
    unfold ResourceEvent.testPending
    split
    · refine h.settled hs trivial (fun hallow => ?_) rfl rfl rfl rfl
      exact absurd (hnot.symm.trans hallow) Bool.false_ne_true
    · split
      · refine h.settled hs trivial (fun hallow => ?_) rfl rfl rfl rfl
        exact absurd (hnot.symm.trans hallow) Bool.false_ne_true
      · exact h.settled hs trivial (fun _ => trivial) rfl rfl rfl rfl
  case waiting now deadline =>
    obtain rfl := Option.some.inj hst
    exact h.settled (by rw [hpc]; trivial) trivial (fun _ => trivial) rfl rfl rfl rfl
  case woken =>
    obtain rfl := Option.some.inj hst
    exact h.settled (by rw [hpc]; trivial) trivial nofun rfl rfl rfl rfl
  case stopping =>
    obtain rfl := Option.some.inj hst
    exact h.settled (by rw [hpc]; trivial) trivial (fun _ => trivial) rfl rfl rfl rfl
  case notifyAll =>
    obtain rfl := Option.some.inj hst
    exact h.settled (by rw [hpc]; trivial) trivial (fun _ => trivial) rfl rfl rfl rfl
  case done => cases hst
  case joined => cases hst

end Round

section Step
variable [DecidableEq Timer] [DecidableEq Client]

theorem vectors_step (h : s.Vectors) {e : TimerEvent Timer Client}
    (hst : s.step e = some t) : t.Vectors := by
  cases e with
  | service input => exact vectors_serviceStep h hst
  | callback call =>
    obtain ⟨i, last, tp, hpc, rfl⟩ := step_callback hst
    exact h.callback hpc call
  | retime nextTrigger =>
    obtain ⟨i, last, tp, hpc, rfl⟩ := step_retime hst
    exact h.retime hpc nextTrigger
  | call c call =>
    obtain rfl := step_call hst
    exact h.clientCall c call
  | client c =>
    obtain rfl | ⟨event, n, -, rfl⟩ | ⟨hpc, rfl⟩ := step_client hst
    · exact h.notifyOne.setClient c .idle
    · exact h.manipulate c event
    · exact h.settled (by rw [hpc]; trivial) trivial (fun _ => trivial) rfl rfl rfl rfl
  | stopThread c =>
    obtain rfl := step_stopThread hst
    exact { h with }
  | initThread =>
    obtain ⟨hpc, rfl⟩ := step_initThread hst
    exact h.settled (by rw [hpc]; trivial) trivial nofun rfl rfl rfl rfl

end Step

/-! ## The timers that are touched -/

/-- Every timer in the vectors is registered. -/
def Alive (s : ResourceEvent Timer Client) : Prop :=
  ∀ tp, tp ∈ s.pendingTimers ∨ tp ∈ s.activeTimers → tp ∈ s.registered

/-- No timer comes into the vectors, none is unregistered. -/
theorem Alive.mono (h : s.Alive) (hpending : ∀ tp ∈ t.pendingTimers, tp ∈ s.pendingTimers)
    (hactive : ∀ tp ∈ t.activeTimers, tp ∈ s.pendingTimers ∨ tp ∈ s.activeTimers)
    (hregistered : s.registered ⊆ t.registered) : t.Alive := by
  rintro tp (htp | htp)
  · exact hregistered (h tp (Or.inl (hpending tp htp)))
  · exact hregistered (h tp (hactive tp htp))

section Alive
variable [DecidableEq Timer]

theorem Alive.registerTimer (h : s.Alive) (event : Timer) : (s.registerTimer event).Alive :=
  h.mono (fun _ htp => htp) (fun _ htp => Or.inr htp) (Finset.subset_insert event s.registered)

theorem Alive.notify (h : s.Alive) {event : Timer} (hevent : event ∈ s.registered) :
    (s.notify event).Alive := by
  unfold ResourceEvent.notify
  split
  · exact h
  · rintro tp (htp | htp)
    · rcases List.mem_append.mp htp with htp | htp
      · exact h tp (Or.inl htp)
      · exact List.mem_singleton.mp htp ▸ hevent
    · exact h tp (Or.inr htp)

/-- A timer stands once in a vector, so it is gone after one `erase`. -/
theorem Alive.remove (h : s.Alive) (hv : s.Vectors) (isServiceThread : Bool) (event : Timer) :
    (s.remove isServiceThread event).Alive := by
  have herased : ∀ tp, tp ∈ s.pendingTimers.erase event ∨ tp ∈ s.activeTimers.erase event →
      tp ∈ s.registered.erase event := by
    rintro tp (htp | htp)
    · obtain ⟨hne, hmem⟩ := hv.nodupPending.mem_erase_iff.mp htp
      exact Finset.mem_erase.mpr ⟨hne, h tp (Or.inl hmem)⟩
    · obtain ⟨hne, hmem⟩ := hv.nodupActive.mem_erase_iff.mp htp
      exact Finset.mem_erase.mpr ⟨hne, h tp (Or.inr hmem)⟩
  unfold ResourceEvent.remove
  dsimp only
  split <;> exact herased

/-- What a step of the service thread leaves alone: it registers nothing, only notifies the others, and
no timer comes into the vectors. -/
structure Frame (s t : ResourceEvent Timer Client) : Prop where
  count : t.timersCount = s.timersCount
  registered : t.registered = s.registered
  client : t.client = s.client ∨ t.client = s.notifyManipulation.client
  pending : ∀ tp ∈ t.pendingTimers, tp ∈ s.pendingTimers
  active : ∀ tp ∈ t.activeTimers, tp ∈ s.pendingTimers ∨ tp ∈ s.activeTimers

theorem frame_serviceStep (hv : s.Vectors) {input : ServiceInput Timer}
    (hst : s.serviceStep input = some t) : s.Frame t := by
  have hsame : s.Frame s := ⟨rfl, rfl, Or.inl rfl, fun _ h => h, fun _ h => Or.inr h⟩
  unfold serviceStep at hst
  cases hpc : s.service <;> simp only [hpc] at hst
  case processPending =>
    obtain rfl := Option.some.inj hst
    refine { hsame with
      pending := fun _ htp => absurd htp List.not_mem_nil
      active := fun tp htp => ?_ }
    have htp := (hv.mem_processPending hpc input.update).mp htp
    split at htp
    · rename_i hpending
      exact Or.inl hpending
    · exact Or.inr htp
  case keepSorted =>
    unfold ResourceEvent.keepSorted at hst
    split at hst
    · rw [Option.ite_none_right_eq_some] at hst
      obtain ⟨⟨hperm, -⟩, hst⟩ := hst
      obtain rfl := Option.some.inj hst
      exact { hsame with
        active := fun tp htp => Or.inr (hperm.mem_iff.mp (List.mem_of_mem_take htp)) }
    · obtain rfl := Option.some.inj hst
      exact { hsame with }
  case check i last =>
    unfold ResourceEvent.check at hst
    split at hst
    · obtain rfl := Option.some.inj hst
      exact { hsame with }
    · obtain ⟨tp, -, rfl⟩ := Option.map_eq_some_iff.mp hst
      split <;> exact { hsame with }
  case testPending =>
    obtain rfl := Option.some.inj hst
    unfold ResourceEvent.testPending
    split
    · exact { hsame with }
    · split
      · exact { hsame with }
      · exact { hsame with client := Or.inr rfl }
  case loop => split at hst <;> obtain rfl := Option.some.inj hst <;> exact { hsame with }
  case trigger i last tp =>
    split at hst <;> obtain rfl := Option.some.inj hst <;> exact { hsame with }
  case waiting now deadline =>
    obtain rfl := Option.some.inj hst
    exact { hsame with }
  case woken =>
    obtain rfl := Option.some.inj hst
    exact { hsame with }
  case stopping =>
    obtain rfl := Option.some.inj hst
    exact { hsame with }
  case notifyAll =>
    obtain rfl := Option.some.inj hst
    exact { hsame with client := Or.inr rfl }
  case done => cases hst
  case joined => cases hst

variable [DecidableEq Client]

theorem Alive.manipulate (h : s.Alive) (hv : s.Vectors) (c : Client) (event : Timer) :
    (s.manipulate c event).Alive := by
  unfold ResourceEvent.manipulate
  split
  · exact h.remove hv false event
  · exact h

theorem alive_step (h : s.Alive) (hv : s.Vectors) {e : TimerEvent Timer Client}
    (he : s.NotifiesRegistered e) (hst : s.step e = some t) : t.Alive := by
  cases e with
  | service input =>
    have hframe := frame_serviceStep hv hst
    exact h.mono hframe.pending hframe.active hframe.registered.ge
  | callback call =>
    obtain ⟨i, last, tp, -, rfl⟩ := step_callback hst
    cases call with
    | registerTimer event => exact h.registerTimer event
    | notify event => exact h.notify he
    | unregisterTimer event => exact h.remove hv true event
  | retime nextTrigger =>
    obtain ⟨i, last, tp, -, rfl⟩ := step_retime hst
    exact h
  | call c call =>
    obtain rfl := step_call hst
    cases call with
    | registerTimer event => exact h.registerTimer event
    | notify event => exact h.notify he
    | unregisterTimer event => exact h.manipulate hv c event
  | client c =>
    obtain rfl | ⟨event, n, -, rfl⟩ | ⟨-, rfl⟩ := step_client hst
    · exact h
    · exact h.manipulate hv c event
    · exact h
  | stopThread c =>
    obtain rfl := step_stopThread hst
    exact h
  | initThread =>
    obtain ⟨-, rfl⟩ := step_initThread hst
    exact h

end Alive

/-! ## The runs -/

/-- The timers that the next statement of the service thread goes to. Nothing is said of the timer inside
`trigger`: what a callback that destroys its own timer leaves there is the business of
`TimedEventImpl`. -/
def touches (s : ResourceEvent Timer Client) : List Timer :=
  match s.service with
  | .processPending => s.pendingTimers ++ s.activeTimers
  | .check i _ => s.activeTimers[i]?.toList
  | .keepSorted => s.activeTimers
  | .testPending => s.activeTimers.head?.toList
  | _ => []

theorem mem_vectors_of_mem_touches {tp : Timer} (h : tp ∈ s.touches) :
    tp ∈ s.pendingTimers ∨ tp ∈ s.activeTimers := by
  unfold touches at h
  split at h
  · exact List.mem_append.mp h
  · exact Or.inr (List.mem_of_getElem? (Option.mem_toList.mp h))
  · exact Or.inr h
  · exact Or.inr (List.mem_of_mem_head? (Option.mem_toList.mp h))
  · exact absurd h List.not_mem_nil

section Runs
variable [DecidableEq Timer]

/-- The service thread always has a next statement until it ends. -/
theorem Vectors.exists_serviceStep (h : s.Vectors) (hdone : s.service ≠ .done)
    (hjoined : s.service ≠ .joined) : ∃ input t, s.serviceStep input = some t := by
  have hsorted := List.pairwise_insertionSort
    (fun lhs rhs => s.nextTriggerTime lhs ≤ s.nextTriggerTime rhs) s.activeTimers
  have hperm := List.perm_insertionSort
    (fun lhs rhs => s.nextTriggerTime lhs ≤ s.nextTriggerTime rhs) s.activeTimers
  set order := s.activeTimers.insertionSort fun lhs rhs =>
    s.nextTriggerTime lhs ≤ s.nextTriggerTime rhs
  refine ⟨⟨0, fun _ => (false, 0), order⟩, ?_⟩
  unfold serviceStep
  cases hpc : s.service with
  | check i last =>
    obtain ⟨-, -, hloop⟩ := h.check i last hpc
    show ∃ t, s.check i last = some t
    unfold ResourceEvent.check
    split
    · exact ⟨_, rfl⟩
    · rename_i hne
      have hi : i < s.activeTimers.length := hloop.length ▸ lt_of_le_of_ne hloop.le hne
      rw [List.getElem?_eq_getElem hi]
      exact ⟨_, rfl⟩
  | keepSorted =>
    show ∃ t, s.keepSorted order = some t
    unfold ResourceEvent.keepSorted
    split
    · exact ⟨_, if_pos ⟨hperm, hsorted⟩⟩
    · exact ⟨_, rfl⟩
  | loop => dsimp only; split <;> exact ⟨_, rfl⟩
  | trigger i last tp => dsimp only; split <;> exact ⟨_, rfl⟩
  | done => exact absurd hpc hdone
  | joined => exact absurd hpc hjoined
  | processPending => exact ⟨_, rfl⟩
  | testPending => exact ⟨_, rfl⟩
  | waiting now deadline => exact ⟨_, rfl⟩
  | woken => exact ⟨_, rfl⟩
  | stopping => exact ⟨_, rfl⟩
  | notifyAll => exact ⟨_, rfl⟩

variable [DecidableEq Client]

theorem vectors_run {next : Timer → ℕ} {es : List (TimerEvent Timer Client)}
    (hrun : run step (init next) es = some s) : s.Vectors :=
  run_invariant (fun _ _ _ h hst => vectors_step h hst) (vectors_init next) hrun

theorem alive_run {next : Timer → ℕ} {es : List (TimerEvent Timer Client)}
    (hes : StepsMeet step NotifiesRegistered (init next) es)
    (hrun : run step (init next) es = some s) : s.Alive := by
  have hinit : (init next : ResourceEvent Timer Client).Vectors ∧
      (init next : ResourceEvent Timer Client).Alive := by
    refine ⟨vectors_init next, ?_⟩
    rintro tp (htp | htp) <;> exact absurd htp List.not_mem_nil
  have hstep : ∀ (s : ResourceEvent Timer Client) e t, s.Vectors ∧ s.Alive →
      s.NotifiesRegistered e → step s e = some t → t.Vectors ∧ t.Alive :=
    fun _ _ _ h he hst => ⟨vectors_step h.1 hst, alive_step h.2 h.1 he hst⟩
  have hboth : s.Vectors ∧ s.Alive := run_invariant_of_stepsMeet hstep hinit hes hrun
  exact hboth.2

/-- Where timers are notified while they are registered only, the service thread goes to registered
timers only, although it goes through its vector without the mutex: a timer can be destroyed behind
`unregister_timer`. -/
theorem timers_alive {next : Timer → ℕ} {es : List (TimerEvent Timer Client)}
    (hes : StepsMeet step NotifiesRegistered (init next) es)
    (hrun : run step (init next) es = some s) :
    (∀ tp ∈ s.touches, tp ∈ s.registered) ∧
    (∀ i last, s.service = .check i last → i ≤ last ∧ last = s.activeTimers.length) ∧
    (∀ i last tp, s.service = .trigger i last tp → s.skipCheckingActiveTimers = false →
      s.activeTimers[i]? = some tp ∧ last = s.activeTimers.length) ∧
    (s.allowVectorManipulation = true → s.service.Away) ∧
    (s.service ≠ .done → s.service ≠ .joined →
      ∃ input t, s.step (.service input) = some t) := by
  have hv := vectors_run hrun
  have ha := alive_run hes hrun
  refine ⟨?_, ?_, ?_, hv.allow, hv.exists_serviceStep⟩
  · exact fun tp htp => ha tp (mem_vectors_of_mem_touches htp)
  · intro i last hpc
    obtain ⟨-, -, hloop⟩ := hv.check i last hpc
    exact ⟨hloop.le, hloop.length⟩
  · intro i last tp hpc hskip
    obtain ⟨htp, hloop⟩ := (hv.trigger i last tp hpc).2 hskip
    exact ⟨htp, hloop.length⟩

/-- Two timers are due; the callback of the first unregisters the second, which another thread would
still be waiting to do. -/
def unregisteredByCallback : List (TimerEvent ℕ Bool) :=
  let input : ServiceInput ℕ := ⟨7, fun tp => (true, tp + 1), [0]⟩
  [.call true (.registerTimer 0), .call false (.registerTimer 1), .client true, .client false,
    .call true (.notify 0), .call true (.notify 1), .service input, .service input,
    .call true (.unregisterTimer 0), .service input, .callback (.unregisterTimer 1),
    .retime 30, .service input]

theorem timers_alive_unregistered :
    ∃ s, run step (init fun _ => 0) unregisteredByCallback = some s ∧
      s.client true = .manipulation 0 false ∧ s.touches = [0] ∧ 0 ∈ s.registered := by
  obtain ⟨s, hs, hclient, htouches⟩ :
      ∃ s, run step (init fun _ => 0) unregisteredByCallback = some s ∧
        s.client true = .manipulation 0 false ∧ s.touches = [0] :=
    ⟨_, rfl, by decide, by decide⟩
  have hmeet : StepsMeet step NotifiesRegistered (init fun _ => 0) unregisteredByCallback := by
    decide
  have halive := (timers_alive hmeet hs).1 0 (by rw [htouches]; exact List.mem_singleton_self 0)
  exact ⟨s, hs, hclient, htouches, halive⟩

end Runs

end ResourceEvent

end CrosRt.Middleware
