import CrosRt.Foundations.LabelledRuns
import CrosRt.Kernel.Primitives
import CrosRt.Driver.NonRtQueue

/-! # The background server thread

`run_non_rt_handler` of `non_rt_bg.c` with `non_rt_poll` unfolded into it, one program point for
each place where an interrupt can come in. The receive handler runs as a whole between two
statements of the thread: it appends its frame to `tp->non_rt` and wakes `knonrtd` unless its state
is `TASK_RUNNING`. `net_non_rt_handler_action` finds the instance of the driver, which is there as
long as frames are received.

The thread declares itself asleep only after it has drained the queue. A frame that arrives in
between sees a running thread and wakes nobody.
-/

namespace CrosRt
set_option autoImplicit false

open Kernel LabelledRuns

/-- What `knonrtd` does next. `drainQueue` is the section between `local_irq_save` and
`local_irq_restore`. -/
inductive BgPc
  | handlerAction
  | preemptDisable
  | drainQueue
  | preemptEnable
  | setInterruptible
  | schedule
  | blocked
  | setRunning
  | testStop
  | exited
  deriving DecidableEq, Repr

/-- The queue, the thread and what it has handed to `napi_gro_receive`. -/
structure NonRtBackground (F : Type*) where
  nonRt : List F
  delivered : List F
  pc : BgPc
  taskState : TaskState
  shouldStop : Bool

/-- A diverted frame, a step of `knonrtd`, and `kthread_stop`. -/
inductive BgEvent (F : Type*)
  | frame (skb : F)
  | knonrtd
  | stop

namespace NonRtBackground
variable {F : Type*}

def init : NonRtBackground F := ⟨[], [], .handlerAction, .running, false⟩

def receive (s : NonRtBackground F) (skb : F) : NonRtBackground F :=
  { s with nonRt := skbQueueTail s.nonRt skb, taskState := wakeIfNotRunning s.taskState }

def threadStep (s : NonRtBackground F) : Option (NonRtBackground F) :=
  match s.pc with
  | .handlerAction => some { s with pc := .preemptDisable }
  | .preemptDisable => some { s with pc := .drainQueue }
  | .drainQueue =>
      let polled := nonRtPoll s.nonRt
      some { s with
        nonRt := polled.nonRt
        delivered := s.delivered ++ polled.delivered
        pc := .preemptEnable }
  | .preemptEnable => some { s with pc := .setInterruptible }
  | .setInterruptible => some { s with taskState := .interruptible, pc := .schedule }
  -- A task woken since it declared itself asleep goes on at once.
  | .schedule =>
      if s.taskState = .running then some { s with pc := .setRunning }
      else some { s with pc := .blocked }
  | .blocked => if s.taskState = .running then some { s with pc := .setRunning } else none
  | .setRunning => some { s with taskState := .running, pc := .testStop }
  | .testStop =>
      if s.shouldStop then some { s with taskState := .dead, pc := .exited }
      else some { s with pc := .handlerAction }
  | .exited => none

def step (s : NonRtBackground F) : BgEvent F → Option (NonRtBackground F)
  | .frame skb => some (s.receive skb)
  | .knonrtd => s.threadStep
  | .stop => some { s with shouldStop := true, taskState := wakeUpProcess s.taskState }

def Asleep (s : NonRtBackground F) : Prop := s.pc = .blocked ∧ s.taskState ≠ .running

/-- The queue is drained and the thread has not declared itself asleep yet. -/
def InWindow (s : NonRtBackground F) : Prop := s.pc = .preemptEnable ∨ s.pc = .setInterruptible

instance (s : NonRtBackground F) : Decidable s.InWindow :=
  inferInstanceAs (Decidable (_ ∨ _))

def OutsideWindow (s : NonRtBackground F) : BgEvent F → Prop
  | .frame _ => ¬ s.InWindow
  | _ => True

instance (s : NonRtBackground F) : (e : BgEvent F) → Decidable (s.OutsideWindow e)
  | .frame _ => inferInstanceAs (Decidable (¬ s.InWindow))
  | .knonrtd | .stop => .isTrue trivial

/-! ## The task state at each program point -/

def StateAt : BgPc → TaskState → Prop
  | .schedule, st | .blocked, st => st = .running ∨ st = .interruptible
  | .exited, st => st = .dead
  | _, st => st = .running

theorem stateAt_wakeUp {pc : BgPc} {st : TaskState} (h : StateAt pc st) :
    StateAt pc (wakeUpProcess st) := by
  cases pc with
  | schedule | blocked => exact Or.inl (by rcases h with rfl | rfl <;> rfl)
  | exited => exact congrArg wakeUpProcess h
  | _ => exact congrArg wakeUpProcess h

/-- A step of the thread, by program point: what it moves to, and that it changes the queue only
in the drain. -/
theorem threadStep_cases {s t : NonRtBackground F} (h : s.threadStep = some t) :
    (s.pc = .handlerAction ∧ t = { s with pc := .preemptDisable }) ∨
    (s.pc = .preemptDisable ∧ t = { s with pc := .drainQueue }) ∨
    (s.pc = .drainQueue ∧ t = { s with
      nonRt := [], delivered := s.delivered ++ s.nonRt, pc := .preemptEnable }) ∨
    (s.pc = .preemptEnable ∧ t = { s with pc := .setInterruptible }) ∨
    (s.pc = .setInterruptible ∧ t = { s with taskState := .interruptible, pc := .schedule }) ∨
    (s.pc = .schedule ∧ s.taskState ≠ .running ∧ t = { s with pc := .blocked }) ∨
    ((s.pc = .schedule ∨ s.pc = .blocked) ∧ s.taskState = .running ∧
      t = { s with pc := .setRunning }) ∨
    (s.pc = .setRunning ∧ t = { s with taskState := .running, pc := .testStop }) ∨
    (s.pc = .testStop ∧ t = { s with pc := .handlerAction }) ∨
    (s.pc = .testStop ∧ t = { s with taskState := .dead, pc := .exited }) := by
  cases hpc : s.pc <;> simp only [threadStep, hpc] at h
  all_goals try (by_cases hrun : s.taskState = .running <;> simp only [hrun, if_true, if_false] at h)
  all_goals try (cases hstop : s.shouldStop <;> simp only [hstop, if_true] at h)
  all_goals simp_all

theorem stateAt_threadStep {s t : NonRtBackground F} (hs : StateAt s.pc s.taskState)
    (h : s.threadStep = some t) : StateAt t.pc t.taskState := by
  obtain ⟨hpc, rfl⟩ | ⟨hpc, rfl⟩ | ⟨hpc, rfl⟩ | ⟨hpc, rfl⟩ | ⟨_, rfl⟩ | ⟨hpc, _, rfl⟩ |
    ⟨_, hrun, rfl⟩ | ⟨_, rfl⟩ | ⟨hpc, rfl⟩ | ⟨_, rfl⟩ := threadStep_cases h
  case inr.inr.inr.inr.inl => exact Or.inr rfl
  case inr.inr.inr.inr.inr.inr.inl => exact hrun
  case inr.inr.inr.inr.inr.inr.inr.inl => rfl
  case inr.inr.inr.inr.inr.inr.inr.inr.inr => rfl
  all_goals
    rw [hpc] at hs
    exact hs

theorem stateAt_step {s t : NonRtBackground F} {e : BgEvent F} (hs : StateAt s.pc s.taskState)
    (h : step s e = some t) : StateAt t.pc t.taskState := by
  cases e with
  | frame skb =>
    rw [step, Option.some.injEq] at h
    subst h
    change StateAt s.pc (wakeIfNotRunning s.taskState)
    rw [wakeIfNotRunning_eq]
    exact stateAt_wakeUp hs
  | knonrtd => exact stateAt_threadStep hs h
  | stop =>
    rw [step, Option.some.injEq] at h
    exact h ▸ stateAt_wakeUp hs

theorem stateAt_reachable {s : NonRtBackground F} {es : List (BgEvent F)}
    (h : run step init es = some s) : StateAt s.pc s.taskState :=
  run_invariant (I := fun s => StateAt s.pc s.taskState) (fun _ _ _ => stateAt_step)
    (show StateAt .handlerAction .running from rfl) h

/-! ## The queue behind a sleeping thread -/

/-- The queue is empty from the drain on, until a frame comes in whose handling wakes the
thread. -/
structure Inv (s : NonRtBackground F) : Prop where
  state : StateAt s.pc s.taskState
  window : s.InWindow → s.nonRt = []
  sleep : s.pc = .schedule ∨ s.pc = .blocked → s.taskState ≠ .running → s.nonRt = []

theorem inv_init : (init : NonRtBackground F).Inv where
  state := rfl
  window := fun _ => rfl
  sleep := fun _ _ => rfl

theorem inv_threadStep {s t : NonRtBackground F} (hs : s.Inv) (h : s.threadStep = some t) :
    t.Inv := by
  refine ⟨stateAt_threadStep hs.state h, ?_, ?_⟩
  · intro hwin
    obtain ⟨_, rfl⟩ | ⟨_, rfl⟩ | ⟨_, rfl⟩ | ⟨hpc, rfl⟩ | ⟨_, rfl⟩ | ⟨_, _, rfl⟩ |
      ⟨_, _, rfl⟩ | ⟨_, rfl⟩ | ⟨_, rfl⟩ | ⟨_, rfl⟩ := threadStep_cases h
    case inr.inr.inl => rfl
    case inr.inr.inr.inl => exact hs.window (Or.inl hpc)
    all_goals simp [InWindow] at hwin
  · intro hpc' hst
    obtain ⟨_, rfl⟩ | ⟨_, rfl⟩ | ⟨_, rfl⟩ | ⟨_, rfl⟩ | ⟨hpc, rfl⟩ | ⟨hpc, _, rfl⟩ |
      ⟨_, _, rfl⟩ | ⟨_, rfl⟩ | ⟨_, rfl⟩ | ⟨_, rfl⟩ := threadStep_cases h
    case inr.inr.inr.inr.inl => exact hs.window (Or.inr hpc)
    case inr.inr.inr.inr.inr.inl => exact hs.sleep (Or.inl hpc) hst
    all_goals simp at hpc'

theorem running_of_wake {s : NonRtBackground F} (hs : StateAt s.pc s.taskState)
    (hpc : s.pc = .schedule ∨ s.pc = .blocked) : wakeUpProcess s.taskState = .running := by
  have hstate : s.taskState = .running ∨ s.taskState = .interruptible := by
    rcases hpc with hpc | hpc <;> rw [hpc] at hs <;> exact hs
  rcases hstate with hstate | hstate <;> rw [hstate] <;> rfl

theorem inv_step {s t : NonRtBackground F} {e : BgEvent F} (hs : s.Inv) (he : s.OutsideWindow e)
    (h : step s e = some t) : t.Inv := by
  have hstate := stateAt_step hs.state h
  cases e with
  | frame skb =>
    rw [step, Option.some.injEq] at h
    subst h
    refine ⟨hstate, fun hwin => absurd hwin he, fun hpc hst => ?_⟩
    have hwake : wakeIfNotRunning s.taskState = .running := by
      rw [wakeIfNotRunning_eq]
      exact running_of_wake hs.state hpc
    exact absurd hwake hst
  | knonrtd => exact inv_threadStep hs h
  | stop =>
    rw [step, Option.some.injEq] at h
    subst h
    exact ⟨hstate, hs.window, fun hpc hst => absurd (running_of_wake hs.state hpc) hst⟩

/-! ## The lost wake-up -/

/-- A frame that comes in once the queue is drained, with no further event before the thread is
blocked: it stays behind the sleeping thread. -/
theorem frame_in_window_lost {s : NonRtBackground F} (hs : StateAt s.pc s.taskState)
    (hwin : s.InWindow) (skb : F) :
    ∃ n t, run step s (.frame skb :: List.replicate n .knonrtd) = some t ∧ t.Asleep ∧
      t.nonRt = s.nonRt ++ [skb] := by
  obtain ⟨nonRt, delivered, pc, taskState, shouldStop⟩ := s
  rcases hwin with hpc | hpc
  · obtain rfl : pc = .preemptEnable := hpc
    obtain rfl : taskState = .running := hs
    exact ⟨3, _, rfl, ⟨rfl, by simp⟩, rfl⟩
  · obtain rfl : pc = .setInterruptible := hpc
    obtain rfl : taskState = .running := hs
    exact ⟨2, _, rfl, ⟨rfl, by simp⟩, rfl⟩

/-- **No frame behind a sleeping server.** In every run in which no frame arrives between the
drain and `set_current_state(TASK_INTERRUPTIBLE)`, the queue is empty whenever the thread is
blocked and not woken. The window is the right one: from every reachable state in it, one frame and
then the thread alone lead to a sleeping thread with a frame in its queue. -/
theorem no_frame_behind_sleep {s : NonRtBackground F} {es : List (BgEvent F)}
    (h : run step init es = some s) :
    (StepsMeet step OutsideWindow init es → s.Asleep → s.nonRt = []) ∧
    ∀ skb, s.InWindow → ∃ n t, run step s (.frame skb :: List.replicate n .knonrtd) = some t ∧
      t.Asleep ∧ t.nonRt ≠ [] := by
  constructor
  · intro hmeet hsleep
    have hinv : s.Inv :=
      run_invariant_of_stepsMeet (fun _ _ _ => inv_step) inv_init hmeet h
    exact hinv.sleep (Or.inr hsleep.1) hsleep.2
  · intro skb hwin
    obtain ⟨n, t, hrun, hsleep, hqueue⟩ := frame_in_window_lost (stateAt_reachable h) hwin skb
    exact ⟨n, t, hrun, hsleep, by simp [hqueue]⟩

theorem no_frame_behind_sleep_one_frame :
    ∃ s : NonRtBackground ℕ,
      run step init (List.replicate 6 .knonrtd ++ .frame 7 :: List.replicate 9 .knonrtd) =
        some s ∧ s.Asleep ∧ s.delivered = [7] ∧ s.nonRt = [] := by
  obtain ⟨s, hs⟩ : ∃ s : NonRtBackground ℕ,
      run step init (List.replicate 6 .knonrtd ++ .frame 7 :: List.replicate 9 .knonrtd) =
        some s := ⟨_, rfl⟩
  have hsleep : s.Asleep ∧ s.delivered = [7] := by
    obtain rfl := Option.some.inj hs
    exact ⟨⟨rfl, by decide⟩, by decide⟩
  exact ⟨s, hs, hsleep.1, hsleep.2, (no_frame_behind_sleep hs).1 (by decide) hsleep.1⟩

/-- One frame right after the drain of an empty queue. -/
theorem frame_behind_sleep :
    ∃ s : NonRtBackground ℕ,
      run step init (List.replicate 3 .knonrtd ++ .frame 7 :: List.replicate 3 .knonrtd) = some s ∧
      s.Asleep ∧ s.nonRt = [7] :=
  ⟨_, rfl, ⟨rfl, by decide⟩, rfl⟩

end NonRtBackground

end CrosRt
