import CrosRt.Handler.RtHandler

/-! # Who serves the highest priority

That depends on where the threads stand. While `kmond` is awake it is going to look at `highest_pri`,
or has looked and compares; once it sleeps, `krtd` must already have the priority, and may itself
only sleep when there is nothing to do. The chain holds (`inv_step`) as long as no insertion raises
`highest_pri` where a thread has read the old value, or has decided to sleep and not said so, and as
long as the scan of `rt_poll` passes no waiting frame.
-/

namespace CrosRt
set_option autoImplicit false

open Kernel LabelledRuns

/-- `kmond` has read `highest_pri` and not yet declared itself asleep. -/
def MonPc.inWindow : MonPc → Bool
  | .readKrtdPriority | .setScheduler | .wakeKrtd | .setInterruptible => true
  | _ => false

/-- `krtd` has read `highest_pri` and not yet stored it, or has decided to sleep and not yet
declared itself asleep. -/
def RtPc.inWindow : RtPc → Bool
  | .setScheduler | .setInterruptible => true
  | _ => false

/-- The task states at a program point: a thread that may be waiting in `schedule()` has declared
itself asleep or was woken, any other runs. -/
def StateAt : Bool → TaskState → Prop
  | true, st => st = .running ∨ st = .interruptible
  | false, st => st = .running

def MonPc.waiting : MonPc → Bool
  | .schedule | .blocked => true
  | _ => false

def RtPc.waiting : RtPc → Bool
  | .schedule | .blocked => true
  | _ => false

theorem StateAt.wakeUp {w : Bool} {st : TaskState} (h : StateAt w st) :
    wakeUpProcess st = .running := by
  cases w with
  | false => exact congrArg wakeUpProcess h
  | true => rcases h with rfl | rfl <;> rfl

theorem stateAt_running (w : Bool) : StateAt w .running := by
  cases w with
  | false => rfl
  | true => exact Or.inl rfl

namespace RtHandler

variable {hash : ℤ → Fin 256} {F : Type*}

/-- What has to hold while `kmond` sleeps: with a priority from 2 on waiting, `krtd` is runnable
at least at that priority, and `krtd` only sleeps when queues 2 to 99 are empty. -/
def Served (s : RtHandler hash F) : Prop :=
  s.KmondAsleep →
    (2 ≤ s.service.highestPri →
      s.krtd.taskState = .running ∧ s.service.highestPri ≤ s.krtd.rtPriority) ∧
    (s.KrtdAsleep → ∀ q, 2 ≤ q → q ≤ 99 → s.service.pq.cell q = [])

/-- No insertion raises `highest_pri` in a window of `krtd`, nor in the window of `kmond` to a
priority above that of `krtd`. -/
def RaisedOutsideWindows (s : RtHandler hash F) : HandlerEvent F → Prop
  | .arrive tmpPri _ =>
      s.service.highestPri < tmpPri →
        s.krtd.pc.inWindow = false ∧ (s.kmond.pc.inWindow = true → tmpPri ≤ s.krtd.rtPriority)
  | _ => True

/-- `rt_poll` is only called when its scan reaches every waiting frame. -/
def PollReaches (s : RtHandler hash F) : HandlerEvent F → Prop
  | .krtd => s.krtd.pc = .poll → s.service.queues.ScanReaches
  | _ => True

/-- Frames are only inserted at priorities in use. -/
def ArrivesInUse (s : RtHandler hash F) : HandlerEvent F → Prop
  | .arrive tmpPri _ => s.service.registry.priorityInUse.cell tmpPri = true
  | _ => True

instance (s : RtHandler hash F) : (e : HandlerEvent F) → Decidable (s.RaisedOutsideWindows e)
  | .arrive _ _ => inferInstanceAs (Decidable (_ → _ ∧ (_ → _)))
  | .setPort .. | .removePort _ | .kmond | .krtd => .isTrue trivial

instance (s : RtHandler hash F) : (e : HandlerEvent F) → Decidable (s.ArrivesInUse e)
  | .arrive _ _ => inferInstanceAs (Decidable (_ = _))
  | .setPort .. | .removePort _ | .kmond | .krtd => .isTrue trivial

/-! ## The chain of guarantees -/

/-- What holds at each program point of `kmond` about the priority of `krtd`. -/
def MonitorFacts (highest : ℤ) (m : Kmond) (k : Krtd) : Prop :=
  match m.pc with
  | .readKrtdPriority =>
      1 ≤ m.msgPriority ∧ m.msgPriority ≤ highest ∧
        (highest ≤ m.msgPriority ∨ highest ≤ k.rtPriority)
  | .setScheduler =>
      1 ≤ m.msgPriority ∧ m.msgPriority ≤ highest ∧
        (highest ≤ m.msgPriority ∨ highest ≤ k.rtPriority) ∧ m.krtdPriority = k.rtPriority
  | .wakeKrtd => highest ≤ k.rtPriority
  | .setInterruptible => highest ≤ k.rtPriority ∧ k.taskState = .running
  | .schedule | .blocked => m.taskState ≠ .running →
      highest ≤ k.rtPriority ∧ (k.taskState ≠ .running → highest = 1)
  | _ => True

/-- What holds at each program point of `krtd` about the value it has read. -/
def HandlerFacts (highest : ℤ) (k : Krtd) : Prop :=
  match k.pc with
  | .setScheduler => k.curPriority = highest
  | .setInterruptible => highest = 1
  | _ => True

structure Threads (highest : ℤ) (m : Kmond) (k : Krtd) : Prop where
  kmondState : StateAt m.pc.waiting m.taskState
  krtdState : StateAt k.pc.waiting k.taskState
  monitor : MonitorFacts highest m k
  handler : HandlerFacts highest k

structure Inv (s : RtHandler hash F) : Prop where
  queues : s.service.queues.Bounded
  threads : Threads s.service.highestPri s.kmond s.krtd

theorem inv_init : (init : RtHandler hash F).Inv where
  queues := RtService.inv_init.covered.toBounded
  threads := ⟨rfl, rfl, trivial, trivial⟩

theorem Inv.highest_pos {s : RtHandler hash F} (h : s.Inv) : 1 ≤ s.service.highestPri :=
  h.queues.highest_pos

theorem Inv.highest_le {s : RtHandler hash F} (h : s.Inv) : s.service.highestPri ≤ 99 :=
  h.queues.highest_le

/-- **Step of `kmond`.** It leaves the service alone and hands the guarantee on. -/
theorem threads_kmondStep {s t : RtHandler hash F} (hs : s.Inv) (h : s.kmondStep = some t) :
    t.service = s.service ∧ Threads s.service.highestPri t.kmond t.krtd := by
  have hpos := hs.highest_pos
  have hle := hs.highest_le
  obtain ⟨hm, hk, hmon, hhan⟩ := hs.threads
  obtain ⟨service, ⟨pc, st, msg, kp⟩, ⟨pc', st', rt, cur⟩⟩ := s
  cases pc with
  | readHighest =>
    obtain rfl := Option.some.inj h
    exact ⟨rfl, hm, hk, ⟨hpos, le_refl _, Or.inl (le_refl _)⟩, hhan⟩
  | readKrtdPriority =>
    obtain rfl := Option.some.inj h
    obtain ⟨hmsg, hmsg', hmax⟩ := hmon
    exact ⟨rfl, hm, hk, ⟨hmsg, hmsg', hmax, rfl⟩, hhan⟩
  | setScheduler =>
    obtain rfl := Option.some.inj h
    obtain ⟨hmsg, hmsg', hmax, hkp⟩ := hmon
    refine ⟨rfl, hm, hk, ?_, hhan⟩
    -- Either the priority is raised to the message's, or it was already as high.
    change service.highestPri ≤ if msg > kp then schedSetFifo rt msg else rt
    simp only at hmsg hmsg' hmax hkp hle
    by_cases hgt : msg > kp
    · rw [if_pos hgt, schedSetFifo_of_valid rt ⟨hmsg, by omega⟩]
      omega
    · rw [if_neg hgt]
      omega
  | wakeKrtd =>
    obtain rfl := Option.some.inj h
    have hrun : wakeIfNotRunning st' = .running := by
      rw [wakeIfNotRunning_eq]
      exact hk.wakeUp
    refine ⟨rfl, hm, ?_, ⟨hmon, hrun⟩, hhan⟩
    change StateAt pc'.waiting (wakeIfNotRunning st')
    rw [hrun]
    exact stateAt_running pc'.waiting
  | setInterruptible =>
    obtain rfl := Option.some.inj h
    exact ⟨rfl, Or.inr rfl, hk, fun _ => ⟨hmon.1, fun hst => absurd hmon.2 hst⟩, hhan⟩
  | schedule =>
    simp only [kmondStep] at h
    by_cases hrun : st = .running
    · rw [if_pos hrun] at h
      obtain rfl := Option.some.inj h
      exact ⟨rfl, hrun, hk, trivial, hhan⟩
    · rw [if_neg hrun] at h
      obtain rfl := Option.some.inj h
      exact ⟨rfl, hm, hk, hmon, hhan⟩
  | blocked =>
    simp only [kmondStep] at h
    by_cases hrun : st = .running
    · rw [if_pos hrun] at h
      obtain rfl := Option.some.inj h
      exact ⟨rfl, hrun, hk, trivial, hhan⟩
    · rw [if_neg hrun] at h
      cases h
  | setRunning =>
    obtain rfl := Option.some.inj h
    exact ⟨rfl, rfl, hk, trivial, hhan⟩
  | testStop =>
    obtain rfl := Option.some.inj h
    exact ⟨rfl, hm, hk, trivial, hhan⟩

/-- **Step of `krtd`.** It only moves while `kmond` sleeps, so it has the highest priority and
keeps it, and it goes to sleep at priority 1 only. -/
theorem inv_krtdStep {s t : RtHandler hash F} (hs : s.Inv) (hsleep : s.KmondAsleep)
    (hpoll : s.krtd.pc = .poll → s.service.queues.ScanReaches) (h : s.krtdStep = some t) :
    t.Inv := by
  have hpos := hs.highest_pos
  have hle := hs.highest_le
  have hqueues := hs.queues
  obtain ⟨hm, hk, hmon, hhan⟩ := hs.threads
  obtain ⟨service, ⟨pc, st, msg, kp⟩, ⟨pc', st', rt, cur⟩⟩ := s
  obtain ⟨hpc, hst⟩ := hsleep
  obtain rfl : pc = .blocked := hpc
  obtain ⟨hrt, hone⟩ := hmon hst
  simp only at hpos hle hrt hone hqueues
  cases pc' with
  | poll =>
    obtain rfl := Option.some.inj h
    have hlower : service.afterPoll.highestPri ≤ max 1 (service.highestPri - 1) :=
      rtPoll_highest_le service.queues hpos
    refine ⟨hqueues.rtPoll (hpoll rfl), hm, hk, fun _ => ⟨?_, ?_⟩, trivial⟩
    · change service.afterPoll.highestPri ≤ rt
      omega
    · exact fun hst' => absurd hk hst'
  | readHighest =>
    obtain rfl := Option.some.inj h
    exact ⟨hqueues, hm, hk, fun _ => ⟨hrt, hone⟩, rfl⟩
  | setScheduler =>
    obtain rfl := Option.some.inj h
    have hcur : cur = service.highestPri := hhan
    have hstore : schedSetFifo rt cur = service.highestPri := by
      rw [hcur]
      exact schedSetFifo_of_valid rt ⟨hpos, hle⟩
    exact ⟨hqueues, hm, hk, fun _ => ⟨le_of_eq hstore.symm, hone⟩, trivial⟩
  | testPriority =>
    simp only [krtdStep] at h
    by_cases hlow : rt < 2
    · rw [if_pos hlow] at h
      obtain rfl := Option.some.inj h
      have hhighest : service.highestPri = 1 := by omega
      exact ⟨hqueues, hm, hk, fun _ => ⟨hrt, hone⟩, hhighest⟩
    · rw [if_neg hlow] at h
      obtain rfl := Option.some.inj h
      exact ⟨hqueues, hm, hk, fun _ => ⟨hrt, hone⟩, trivial⟩
  | setInterruptible =>
    obtain rfl := Option.some.inj h
    exact ⟨hqueues, hm, Or.inr rfl, fun _ => ⟨hrt, fun _ => hhan⟩, trivial⟩
  | schedule =>
    simp only [krtdStep] at h
    by_cases hrun : st' = .running
    · rw [if_pos hrun] at h
      obtain rfl := Option.some.inj h
      exact ⟨hqueues, hm, hrun, fun _ => ⟨hrt, hone⟩, trivial⟩
    · rw [if_neg hrun] at h
      obtain rfl := Option.some.inj h
      exact ⟨hqueues, hm, hk, fun _ => ⟨hrt, hone⟩, trivial⟩
  | blocked =>
    simp only [krtdStep] at h
    by_cases hrun : st' = .running
    · rw [if_pos hrun] at h
      obtain rfl := Option.some.inj h
      exact ⟨hqueues, hm, hrun, fun _ => ⟨hrt, hone⟩, trivial⟩
    · rw [if_neg hrun] at h
      cases h
  | setRunning =>
    obtain rfl := Option.some.inj h
    exact ⟨hqueues, hm, rfl, fun _ => ⟨hrt, fun hst' => absurd rfl hst'⟩, trivial⟩
  | testStop =>
    obtain rfl := Option.some.inj h
    exact ⟨hqueues, hm, hk, fun _ => ⟨hrt, hone⟩, trivial⟩

theorem MonitorFacts.wake {highest : ℤ} {m : Kmond} {k : Krtd} (h : MonitorFacts highest m k)
    {st : TaskState} (hst : st = .running ∨ st = m.taskState) :
    MonitorFacts highest { m with taskState := st } k := by
  obtain ⟨pc, st', msg, kp⟩ := m
  cases pc with
  | schedule | blocked =>
    intro hne
    rcases hst with hst | hst
    · exact absurd hst hne
    · exact h (hst ▸ hne)
  | _ => exact h

/-- A raise outside the windows leaves the guarantee to a `kmond` that still has to look, or to a
`krtd` that has the priority already. -/
theorem MonitorFacts.raise {highest p : ℤ} {m : Kmond} {k : Krtd} (h : MonitorFacts highest m k)
    (hlt : highest < p) (hwin : m.pc.inWindow = true → p ≤ k.rtPriority) :
    MonitorFacts p { m with taskState := .running } k := by
  obtain ⟨pc, st', msg, kp⟩ := m
  cases pc with
  | readKrtdPriority =>
    obtain ⟨hmsg, hmsg', _⟩ := h
    exact ⟨hmsg, le_trans hmsg' (le_of_lt hlt), Or.inr (hwin rfl)⟩
  | setScheduler =>
    obtain ⟨hmsg, hmsg', _, hkp⟩ := h
    exact ⟨hmsg, le_trans hmsg' (le_of_lt hlt), Or.inr (hwin rfl), hkp⟩
  | wakeKrtd => exact hwin rfl
  | setInterruptible => exact ⟨hwin rfl, h.2⟩
  | schedule | blocked => exact fun hne => absurd rfl hne
  | _ => trivial

theorem handlerFacts_of_not_inWindow {k : Krtd} (hwin : k.pc.inWindow = false) (highest : ℤ) :
    HandlerFacts highest k := by
  obtain ⟨pc, st, rt, cur⟩ := k
  cases pc with
  | setScheduler | setInterruptible => cases hwin
  | _ => trivial

theorem inv_messageSelector {s : RtHandler hash F} (hs : s.Inv) {p : ℤ} (skb : F)
    (hp : 0 < p ∧ p < 100) (hcond : s.RaisedOutsideWindows (.arrive p skb)) :
    (s.messageSelector skb p).Inv := by
  have hservice := messageSelector_service s skb p
  have hkrtd := messageSelector_krtd s skb p
  obtain ⟨st, hkmond, hst⟩ := messageSelector_kmond s skb p
  have hwake : st = .running ∨ (st = s.kmond.taskState ∧ ¬ s.service.highestPri < p) := by
    rcases hst with hst | hst
    · exact Or.inl (hst.trans hs.threads.kmondState.wakeUp)
    · exact Or.inr hst
  refine ⟨?_, ?_⟩
  · rw [hservice]
    exact hs.queues.insert ⟨p, skb⟩ (by omega) (by omega)
  rw [hservice, hkrtd, hkmond]
  refine ⟨?_, hs.threads.krtdState, ?_, ?_⟩
  · rcases hwake with rfl | ⟨rfl, _⟩
    · exact stateAt_running s.kmond.pc.waiting
    · exact hs.threads.kmondState
  all_goals
    by_cases hlt : s.service.highestPri < p
  · obtain rfl : st = .running := hwake.resolve_right fun h => h.2 hlt
    rw [max_eq_right (le_of_lt hlt)]
    exact hs.threads.monitor.raise hlt (hcond hlt).2
  · rw [max_eq_left (not_lt.mp hlt)]
    exact hs.threads.monitor.wake (hwake.imp_right fun h => h.1)
  · rw [max_eq_right (le_of_lt hlt)]
    exact handlerFacts_of_not_inWindow (hcond hlt).1 _
  · rw [max_eq_left (not_lt.mp hlt)]
    exact hs.threads.handler

/-- A step by its event: what it does to the service. -/
theorem step_cases {s t : RtHandler hash F} {e : HandlerEvent F} (h : step s e = some t) :
    (∃ r, t = { s with service := { s.service with registry := r } } ∧
      ∀ q, q ≠ 0 → s.service.registry.priorityInUse.cell q = true →
        r.priorityInUse.cell q = true) ∨
    (∃ p skb, e = .arrive p skb ∧ (0 < p ∧ p < 100) ∧ t = s.messageSelector skb p) ∨
    (e = .kmond ∧ s.kmondStep = some t) ∨
    (e = .krtd ∧ s.KmondAsleep ∧ s.krtdStep = some t) := by
  cases e with
  | setPort allocated priority port =>
    rw [step, Option.map_eq_some_iff] at h
    obtain ⟨service, hservice, rfl⟩ := h
    obtain ⟨r, rfl, hr⟩ := RtService.step_registry (by simp) (by simp) hservice
    exact Or.inl ⟨r, rfl, hr⟩
  | removePort port =>
    rw [step, Option.map_eq_some_iff] at h
    obtain ⟨service, hservice, rfl⟩ := h
    obtain ⟨r, rfl, hr⟩ := RtService.step_registry (by simp) (by simp) hservice
    exact Or.inl ⟨r, rfl, hr⟩
  | arrive p skb =>
    simp only [step] at h
    by_cases hp : 0 < p ∧ p < 100
    · rw [if_pos hp] at h
      exact Or.inr (Or.inl ⟨p, skb, rfl, hp, (Option.some.inj h).symm⟩)
    · rw [if_neg hp] at h
      cases h
  | kmond => exact Or.inr (Or.inr (Or.inl ⟨rfl, h⟩))
  | krtd =>
    simp only [step] at h
    by_cases hsleep : s.KmondAsleep
    · rw [if_pos hsleep] at h
      exact Or.inr (Or.inr (Or.inr ⟨rfl, hsleep, h⟩))
    · rw [if_neg hsleep] at h
      cases h

theorem inv_step {s t : RtHandler hash F} {e : HandlerEvent F} (hs : s.Inv)
    (hcond : s.RaisedOutsideWindows e) (hpoll : s.PollReaches e) (h : step s e = some t) :
    t.Inv := by
  obtain ⟨r, rfl, _⟩ | ⟨p, skb, rfl, hp, rfl⟩ | ⟨rfl, h⟩ | ⟨rfl, hsleep, h⟩ := step_cases h
  · exact ⟨hs.queues.of_same rfl rfl, hs.threads⟩
  · exact inv_messageSelector hs skb hp hcond
  · obtain ⟨hservice, hthreads⟩ := threads_kmondStep hs h
    exact ⟨hservice ▸ hs.queues, hservice ▸ hthreads⟩
  · exact inv_krtdStep hs hsleep hpoll h

theorem Inv.served {s : RtHandler hash F} (h : s.Inv) : s.Served := by
  intro hsleep
  obtain ⟨_, hk, hmon, _⟩ := h.threads
  have hfacts : s.service.highestPri ≤ s.krtd.rtPriority ∧
      (s.krtd.taskState ≠ .running → s.service.highestPri = 1) := by
    rw [MonitorFacts, hsleep.1] at hmon
    exact hmon hsleep.2
  obtain ⟨hrt, hone⟩ := hfacts
  refine ⟨fun hhighest => ⟨?_, hrt⟩, fun hkrtd q hq hq' => ?_⟩
  · by_contra hst
    have := hone hst
    omega
  · have hhighest := hone hkrtd.2
    by_contra hne
    have : q ≤ s.service.highestPri := h.queues.nonempty_le q hq hne
    omega

end RtHandler

end CrosRt
