import Mathlib.Algebra.Order.Ring.Nat
import Mathlib.Data.Finset.Card
import Mathlib.Data.Fintype.Basic
import Mathlib.Data.Int.Cast.Lemmas
import CrosRt.Middleware.ResourceEventRuns

/-! # The number of timers

The destructor of `ResourceEvent` asserts that no order is pending and that `timers_count_` is 0. Where
each timer is registered once and unregistered by one caller the counter is the number of registered
timers, so both hold once every timer has been unregistered, and the service thread has none left
(`destructor_assertions`).
-/

namespace CrosRt.Middleware
set_option autoImplicit false

open LabelledRuns

variable {Timer Client : Type}

namespace ResourceEvent
variable {s t : ResourceEvent Timer Client}

/-- Each timer is registered once, notified while it is, and unregistered by one caller. -/
def CallKept (s : ResourceEvent Timer Client) : TimerCall Timer → Prop
  | .registerTimer event => event ∉ s.registered
  | .notify event => event ∈ s.registered
  | .unregisterTimer event =>
      event ∈ s.registered ∧ ∀ c notified, s.client c ≠ .manipulation event notified

def CallsKept (s : ResourceEvent Timer Client) : TimerEvent Timer Client → Prop
  | .callback call | .call _ call => s.CallKept call
  | _ => True

theorem CallsKept.notifiesRegistered {e : TimerEvent Timer Client} (he : s.CallsKept e) :
    s.NotifiesRegistered e := by
  cases e with
  | callback call =>
    cases call with
    | notify event => exact he
    | registerTimer event => trivial
    | unregisterTimer event => trivial
  | call c call =>
    cases call with
    | notify event => exact he
    | registerTimer event => trivial
    | unregisterTimer event => trivial
  | service input => trivial
  | retime nextTrigger => trivial
  | client c => trivial
  | stopThread c => trivial
  | initThread => trivial

section Decide
variable [DecidableEq Timer] [Fintype Client]

instance (s : ResourceEvent Timer Client) : ∀ call, Decidable (s.CallKept call)
  | .registerTimer event => inferInstanceAs (Decidable (event ∉ s.registered))
  | .notify event => inferInstanceAs (Decidable (event ∈ s.registered))
  | .unregisterTimer event => inferInstanceAs (Decidable (event ∈ s.registered ∧
      ∀ c notified, s.client c ≠ .manipulation event notified))

instance (s : ResourceEvent Timer Client) : ∀ e, Decidable (s.CallsKept e)
  | .callback call | .call _ call => inferInstanceAs (Decidable (s.CallKept call))
  | .service _ | .retime _ | .client _ | .stopThread _ | .initThread => .isTrue trivial

end Decide

/-- `timers_count_` counts the registered timers; a timer that is being unregistered is one, and waits
in one call. -/
structure Counted (s : ResourceEvent Timer Client) : Prop where
  count : s.timersCount = s.registered.card
  leaving : ∀ c event notified, s.client c = .manipulation event notified → event ∈ s.registered
  alone : ∀ c c' event notified notified', s.client c = .manipulation event notified →
    s.client c' = .manipulation event notified' → c = c'

theorem counted_init (next : Timer → ℕ) : (init next : ResourceEvent Timer Client).Counted where
  count := rfl
  leaving := fun _ _ _ h => by cases h
  alone := fun _ _ _ _ _ h => by cases h

/-- The counter stays, and nobody starts to unregister. -/
theorem Counted.mono (h : s.Counted) (hcount : t.timersCount = s.timersCount)
    (hregistered : t.registered = s.registered)
    (hclient : ∀ c event notified, t.client c = .manipulation event notified →
      ∃ notified', s.client c = .manipulation event notified') : t.Counted := by
  constructor
  case count => rw [hcount, hregistered, h.count]
  case leaving =>
    intro c event notified hc
    obtain ⟨notified', hc⟩ := hclient c event notified hc
    exact hregistered ▸ h.leaving c event notified' hc
  case alone =>
    intro c c' event notified notified' hc hc'
    obtain ⟨n, hc⟩ := hclient c event notified hc
    obtain ⟨n', hc'⟩ := hclient c' event notified' hc'
    exact h.alone c c' event n n' hc hc'

theorem Counted.notifyManipulation (h : s.Counted) : s.notifyManipulation.Counted := by
  refine h.mono rfl rfl fun c event notified hc => ?_
  dsimp only [ResourceEvent.notifyManipulation] at hc
  split at hc
  · rename_i event' n heq
    obtain ⟨rfl, -⟩ := ClientPc.manipulation.inj hc
    exact ⟨n, heq⟩
  · exact ⟨notified, hc⟩

theorem Counted.setClient [DecidableEq Client] (h : s.Counted) (c : Client) {pc : ClientPc Timer}
    (hpc : ∀ event notified, pc = .manipulation event notified → event ∈ s.registered ∧
      ∀ c' notified', c' ≠ c → s.client c' ≠ .manipulation event notified') :
    (s.setClient c pc).Counted := by
  have hset : ∀ c' event notified, (s.setClient c pc).client c' = .manipulation event notified →
      c' = c ∧ pc = .manipulation event notified ∨
        c' ≠ c ∧ s.client c' = .manipulation event notified := by
    intro c' event notified hc'
    have hc' : Function.update s.client c pc c' = .manipulation event notified := hc'
    rw [Function.update_apply] at hc'
    split at hc'
    · rename_i heq
      exact Or.inl ⟨heq, hc'⟩
    · rename_i hne
      exact Or.inr ⟨hne, hc'⟩
  constructor
  case count => exact h.count
  case leaving =>
    intro c' event notified hc'
    rcases hset c' event notified hc' with ⟨-, heq⟩ | ⟨-, heq⟩
    · exact (hpc event notified heq).1
    · exact h.leaving c' event notified heq
  case alone =>
    intro c₁ c₂ event n₁ n₂ h₁ h₂
    rcases hset c₁ event n₁ h₁ with ⟨rfl, heq₁⟩ | ⟨hne₁, heq₁⟩
    · rcases hset c₂ event n₂ h₂ with ⟨rfl, -⟩ | ⟨hne₂, heq₂⟩
      · rfl
      · exact absurd heq₂ ((hpc event n₁ heq₁).2 c₂ n₂ hne₂)
    · rcases hset c₂ event n₂ h₂ with ⟨rfl, heq₂⟩ | ⟨-, heq₂⟩
      · exact absurd heq₁ ((hpc event n₂ heq₂).2 c₁ n₁ hne₁)
      · exact h.alone c₁ c₂ event n₁ n₂ heq₁ heq₂

theorem Counted.setIdle [DecidableEq Client] (h : s.Counted) (c : Client) :
    (s.setClient c .idle).Counted :=
  h.setClient c fun _ _ heq => by cases heq

section Counts
variable [DecidableEq Timer]

theorem Counted.registerTimer (h : s.Counted) {event : Timer} (hevent : event ∉ s.registered) :
    (s.registerTimer event).Counted where
  count := by
    show s.timersCount + 1 = ((insert event s.registered).card : ℤ)
    rw [Finset.card_insert_of_notMem hevent, h.count, Nat.cast_succ]
  leaving := fun c event' notified hc =>
    Finset.mem_insert_of_mem (h.leaving c event' notified hc)
  alone := h.alone

theorem Counted.notify (h : s.Counted) (event : Timer) : (s.notify event).Counted := by
  unfold ResourceEvent.notify
  split
  · exact h
  · exact h.mono rfl rfl fun c event notified hc => ⟨notified, hc⟩

theorem remove_setClient [DecidableEq Client] (c : Client) (pc : ClientPc Timer)
    (isServiceThread : Bool) (event : Timer) :
    (s.remove isServiceThread event).setClient c pc =
      (s.setClient c pc).remove isServiceThread event := by
  unfold ResourceEvent.remove setClient
  dsimp only
  split <;> rfl

/-- Nobody else waits to unregister the timer. -/
theorem Counted.remove (h : s.Counted) (isServiceThread : Bool) {event : Timer}
    (hevent : event ∈ s.registered)
    (hother : ∀ c notified, s.client c ≠ .manipulation event notified) :
    (s.remove isServiceThread event).Counted := by
  have hcount : s.timersCount - 1 = ((s.registered.erase event).card : ℤ) := by
    rw [Finset.card_erase_of_mem hevent, Nat.cast_pred (Finset.card_pos.mpr ⟨event, hevent⟩), h.count]
  have hleaving : ∀ c event' notified, s.client c = .manipulation event' notified →
      event' ∈ s.registered.erase event := by
    intro c event' notified hc
    refine Finset.mem_erase.mpr ⟨?_, h.leaving c event' notified hc⟩
    rintro rfl
    exact hother c notified hc
  unfold ResourceEvent.remove
  dsimp only
  split <;> exact ⟨hcount, hleaving, h.alone⟩

variable [DecidableEq Client]

/-- `unregister_timer` of another thread, at its first test or at a later one. -/
theorem Counted.manipulate (h : s.Counted) (c : Client) {event : Timer} (hevent : event ∈ s.registered)
    (hother : ∀ c' notified, c' ≠ c → s.client c' ≠ .manipulation event notified) :
    (s.manipulate c event).Counted := by
  unfold ResourceEvent.manipulate
  split
  · have hidle : (s.setClient c .idle).Counted := h.setIdle c
    have hnobody : ∀ c' notified,
        (s.setClient c .idle).client c' ≠ .manipulation event notified := by
      intro c' notified hc'
      have hc' : Function.update s.client c .idle c' = .manipulation event notified := hc'
      rw [Function.update_apply] at hc'
      split at hc'
      · cases hc'
      · rename_i hne
        exact hother c' notified hne hc'
    rw [remove_setClient]
    exact hidle.remove false hevent hnobody
  · refine h.setClient c fun event' notified heq => ?_
    obtain ⟨rfl, -⟩ := ClientPc.manipulation.inj heq
    exact ⟨hevent, fun c' notified' => hother c' notified'⟩

theorem counted_step (h : s.Counted) (hv : s.Vectors) {e : TimerEvent Timer Client}
    (he : s.CallsKept e) (hst : s.step e = some t) : t.Counted := by
  cases e with
  | service input =>
    have hframe := frame_serviceStep hv hst
    rcases hframe.client with hclient | hclient
    · exact h.mono hframe.count hframe.registered fun c event n hc => ⟨n, hclient ▸ hc⟩
    · exact h.notifyManipulation.mono hframe.count hframe.registered
        fun c event n hc => ⟨n, hclient ▸ hc⟩
  | callback call =>
    obtain ⟨i, last, tp, -, rfl⟩ := step_callback hst
    cases call with
    | registerTimer event => exact (h.registerTimer he).mono rfl rfl fun _ _ n hc => ⟨n, hc⟩
    | notify event => exact h.notify event
    | unregisterTimer event => exact h.remove true he.1 he.2
  | retime nextTrigger =>
    obtain ⟨i, last, tp, -, rfl⟩ := step_retime hst
    exact h.mono rfl rfl fun _ _ n hc => ⟨n, hc⟩
  | call c call =>
    obtain rfl := step_call hst
    cases call with
    | registerTimer event => exact (h.registerTimer he).setClient c fun _ _ heq => by cases heq
    | notify event => exact h.notify event
    | unregisterTimer event => exact h.manipulate c he.1 fun c' notified _ => he.2 c' notified
  | client c =>
    obtain rfl | ⟨event, n, hc, rfl⟩ | ⟨-, rfl⟩ := step_client hst
    · have hnotified : s.notifyOne.Counted := h.mono rfl rfl fun _ _ n hc => ⟨n, hc⟩
      exact hnotified.setIdle c
    · refine h.manipulate c (h.leaving c event n hc) fun c' n' hne hc' => ?_
      exact hne (h.alone c' c event n' n hc' hc)
    · have hidle : (s.setClient c .idle).Counted := h.setIdle c
      exact hidle.mono rfl rfl fun _ _ n hc => ⟨n, hc⟩
  | stopThread c =>
    obtain rfl := step_stopThread hst
    have hstopped : ({ s.notifyOne with stop := true } : ResourceEvent Timer Client).Counted :=
      h.mono rfl rfl fun _ _ n hc => ⟨n, hc⟩
    exact hstopped.setClient c fun _ _ heq => by cases heq
  | initThread =>
    obtain ⟨-, rfl⟩ := step_initThread hst
    exact h.mono rfl rfl fun _ _ n hc => ⟨n, hc⟩

/-! ## The runs -/

theorem counted_run {next : Timer → ℕ} {es : List (TimerEvent Timer Client)}
    (hes : StepsMeet step CallsKept (init next) es)
    (hrun : run step (init next) es = some s) : s.Counted := by
  have hinit : (init next : ResourceEvent Timer Client).Vectors ∧
      (init next : ResourceEvent Timer Client).Counted := ⟨vectors_init next, counted_init next⟩
  have hstep : ∀ (s : ResourceEvent Timer Client) e t, s.Vectors ∧ s.Counted → s.CallsKept e →
      step s e = some t → t.Vectors ∧ t.Counted :=
    fun _ _ _ h he hst => ⟨vectors_step h.1 hst, counted_step h.2 h.1 he hst⟩
  have hboth : s.Vectors ∧ s.Counted := run_invariant_of_stepsMeet hstep hinit hes hrun
  exact hboth.2

/-- The assertions of the destructor hold once every timer is unregistered. -/
theorem destructor_assertions {next : Timer → ℕ} {es : List (TimerEvent Timer Client)}
    (hes : StepsMeet step CallsKept (init next) es)
    (hrun : run step (init next) es = some s) :
    s.timersCount = s.registered.card ∧
    (s.registered = ∅ → s.timersCount = 0 ∧ s.pendingTimers = [] ∧ s.activeTimers = []) := by
  have hcounted := counted_run hes hrun
  have hnotifies : StepsMeet step NotifiesRegistered (init next) es := stepsMeet_imp
    (fun _ _ _ _ _ _ => trivial) (fun _ _ _ _ he _ => he.notifiesRegistered) trivial hes
  have halive := alive_run hnotifies hrun
  refine ⟨hcounted.count, fun hempty => ⟨?_, ?_, ?_⟩⟩
  · rw [hcounted.count, hempty, Finset.card_empty, Nat.cast_zero]
  · refine List.eq_nil_iff_forall_not_mem.mpr fun tp htp => ?_
    exact absurd (hempty ▸ halive tp (Or.inl htp)) (Finset.notMem_empty tp)
  · refine List.eq_nil_iff_forall_not_mem.mpr fun tp htp => ?_
    exact absurd (hempty ▸ halive tp (Or.inr htp)) (Finset.notMem_empty tp)

/-- Two timers are registered; a callback unregisters the second while another thread waits to
unregister the first, and gets to it. -/
def bothUnregistered : List (TimerEvent ℕ Bool) :=
  let input : ServiceInput ℕ := ⟨7, fun _ => (true, 0), [0]⟩
  [.call true (.registerTimer 0), .client true, .call false (.registerTimer 1), .client false,
    .call true (.notify 0), .call true (.notify 1), .service input, .service input,
    .call true (.unregisterTimer 0), .service input, .callback (.unregisterTimer 1),
    .retime 30, .service input, .service input, .service input, .client true]

theorem destructor_assertions_unregistered :
    ∃ s, run step (init fun _ => 0) bothUnregistered = some s ∧ s.registered = ∅ ∧
      s.timersCount = 0 ∧ s.pendingTimers = [] ∧ s.activeTimers = [] := by
  obtain ⟨s, hs, hempty⟩ :
      ∃ s, run step (init fun _ => 0) bothUnregistered = some s ∧ s.registered = ∅ :=
    ⟨_, rfl, by decide⟩
  have hmeet : StepsMeet step CallsKept (init fun _ => 0) bothUnregistered := by decide
  exact ⟨s, hs, hempty, (destructor_assertions hmeet hs).2 hempty⟩

end Counts

end ResourceEvent

end CrosRt.Middleware
