import CrosRt.Foundations.LabelledRuns
import CrosRt.Driver.RtService

/-! # The real-time handler and its monitor

`run_rt_handler` and `run_monitor` of `rt_handler.c` over the priority queues of the driver, with
one program point for each place where an interrupt can come in, and the Message Selector block of
`rtl_rx` as the producer, for frames of any priority it takes. On the single CPU `kmond` (FIFO 99)
preempts `krtd` as soon as it is runnable, so `krtd` only moves while `kmond` is asleep. The call of
`rt_poll` runs with interrupts off and is one step. `kthread_should_stop` is false while the module
stays loaded.
-/

namespace CrosRt
set_option autoImplicit false

open Kernel

inductive MonPc
  | readHighest
  | readKrtdPriority
  | setScheduler
  | wakeKrtd
  | setInterruptible
  | schedule
  | blocked
  | setRunning
  | testStop
  deriving DecidableEq, Repr

/-- What `krtd` does next. `poll` is the section under `priority_lock`. -/
inductive RtPc
  | poll
  | readHighest
  | setScheduler
  | testPriority
  | setInterruptible
  | schedule
  | blocked
  | setRunning
  | testStop
  deriving DecidableEq, Repr

structure Kmond where
  pc : MonPc
  taskState : TaskState
  msgPriority : ℤ
  krtdPriority : ℤ
  deriving DecidableEq, Repr

structure Krtd where
  pc : RtPc
  taskState : TaskState
  rtPriority : ℤ
  curPriority : ℤ
  deriving DecidableEq, Repr

structure RtHandler (hash : ℤ → Fin 256) (F : Type*) where
  service : RtService hash F
  kmond : Kmond
  krtd : Krtd

/-- Calls that change the registry, a frame of priority `tmpPri`, and one statement of a thread. -/
inductive HandlerEvent (F : Type*)
  | setPort (allocated : Bool) (priority port : ℤ)
  | removePort (port : ℤ)
  | arrive (tmpPri : ℤ) (skb : F)
  | kmond
  | krtd

namespace RtHandler

variable {hash : ℤ → Fin 256} {F : Type*}

/-- Both threads started, empty queues, `highest_pri = 1`. -/
def init : RtHandler hash F where
  service := .init
  kmond := ⟨.readHighest, .running, 0, 0⟩
  krtd := ⟨.poll, .running, 0, 1⟩

/-- `kmond` is blocked in `schedule()` and not woken. -/
def KmondAsleep (s : RtHandler hash F) : Prop :=
  s.kmond.pc = .blocked ∧ s.kmond.taskState ≠ .running

def KrtdAsleep (s : RtHandler hash F) : Prop :=
  s.krtd.pc = .blocked ∧ s.krtd.taskState ≠ .running

instance (s : RtHandler hash F) : Decidable s.KmondAsleep := inferInstanceAs (Decidable (_ ∧ _))
instance (s : RtHandler hash F) : Decidable s.KrtdAsleep := inferInstanceAs (Decidable (_ ∧ _))

/-- The Message Selector block of `rtl_rx` for a frame of priority `tmpPri`. -/
def messageSelector (s : RtHandler hash F) (skb : F) (tmpPri : ℤ) : RtHandler hash F :=
  let pq := priorityQueueInsert s.service.pq ⟨tmpPri, skb⟩ tmpPri
  if s.service.highestPri < tmpPri then
    { s with
      service := { s.service with pq := pq, highestPri := tmpPri }
      kmond := { s.kmond with taskState := wakeIfNotRunning s.kmond.taskState } }
  else if s.service.highestPri = tmpPri then
    { s with
      service := { s.service with pq := pq }
      kmond := { s.kmond with
        taskState :=
          if s.kmond.taskState ≠ .running ∧ s.krtd.taskState ≠ .running then
            wakeUpProcess s.kmond.taskState
          else s.kmond.taskState } }
  else { s with service := { s.service with pq := pq } }

def kmondStep (s : RtHandler hash F) : Option (RtHandler hash F) :=
  match s.kmond.pc with
  | .readHighest =>
      some { s with kmond := { s.kmond with
        pc := .readKrtdPriority, msgPriority := highestPrio s.service.queues } }
  | .readKrtdPriority =>
      some { s with kmond := { s.kmond with
        pc := .setScheduler, krtdPriority := s.krtd.rtPriority } }
  | .setScheduler =>
      some { s with
        kmond := { s.kmond with pc := .wakeKrtd }
        krtd := { s.krtd with
          rtPriority :=
            if s.kmond.msgPriority > s.kmond.krtdPriority then
              schedSetFifo s.krtd.rtPriority s.kmond.msgPriority
            else s.krtd.rtPriority } }
  | .wakeKrtd =>
      some { s with
        kmond := { s.kmond with pc := .setInterruptible }
        krtd := { s.krtd with taskState := wakeIfNotRunning s.krtd.taskState } }
  | .setInterruptible =>
      some { s with kmond := { s.kmond with pc := .schedule, taskState := .interruptible } }
  | .schedule =>
      if s.kmond.taskState = .running then
        some { s with kmond := { s.kmond with pc := .setRunning } }
      else some { s with kmond := { s.kmond with pc := .blocked } }
  | .blocked =>
      if s.kmond.taskState = .running then
        some { s with kmond := { s.kmond with pc := .setRunning } }
      else none
  | .setRunning =>
      some { s with kmond := { s.kmond with pc := .testStop, taskState := .running } }
  | .testStop => some { s with kmond := { s.kmond with pc := .readHighest } }

def krtdStep (s : RtHandler hash F) : Option (RtHandler hash F) :=
  match s.krtd.pc with
  | .poll =>
      some { s with service := s.service.afterPoll, krtd := { s.krtd with pc := .readHighest } }
  | .readHighest =>
      some { s with krtd := { s.krtd with
        pc := .setScheduler, curPriority := highestPrio s.service.queues } }
  | .setScheduler =>
      some { s with krtd := { s.krtd with
        pc := .testPriority, rtPriority := schedSetFifo s.krtd.rtPriority s.krtd.curPriority } }
  | .testPriority =>
      if s.krtd.rtPriority < 2 then
        some { s with krtd := { s.krtd with pc := .setInterruptible } }
      else some { s with krtd := { s.krtd with pc := .testStop } }
  | .setInterruptible =>
      some { s with krtd := { s.krtd with pc := .schedule, taskState := .interruptible } }
  | .schedule =>
      if s.krtd.taskState = .running then
        some { s with krtd := { s.krtd with pc := .setRunning } }
      else some { s with krtd := { s.krtd with pc := .blocked } }
  | .blocked =>
      if s.krtd.taskState = .running then
        some { s with krtd := { s.krtd with pc := .setRunning } }
      else none
  | .setRunning =>
      some { s with krtd := { s.krtd with pc := .testStop, taskState := .running } }
  | .testStop => some { s with krtd := { s.krtd with pc := .poll } }

def step (s : RtHandler hash F) : HandlerEvent F → Option (RtHandler hash F)
  | .setPort allocated priority port =>
      (s.service.step (.setPort allocated priority port)).map fun service =>
        { s with service := service }
  | .removePort port =>
      (s.service.step (.removePort port)).map fun service => { s with service := service }
  | .arrive tmpPri skb =>
      if 0 < tmpPri ∧ tmpPri < 100 then some (s.messageSelector skb tmpPri) else none
  | .kmond => s.kmondStep
  | .krtd => if s.KmondAsleep then s.krtdStep else none

/-! ## What the producer does -/

/-- The block queues the frame and keeps the maximum, as one arrival of the service. -/
theorem messageSelector_service (s : RtHandler hash F) (skb : F) (p : ℤ) :
    (s.messageSelector skb p).service =
      { s.service with
        pq := priorityQueueInsert s.service.pq ⟨p, skb⟩ p
        highestPri := max s.service.highestPri p } := by
  unfold messageSelector
  by_cases hlt : s.service.highestPri < p
  · rw [if_pos hlt, max_eq_right (le_of_lt hlt)]
  · rw [if_neg hlt, max_eq_left (not_lt.mp hlt)]
    by_cases heq : s.service.highestPri = p
    · rw [if_pos heq]
    · rw [if_neg heq]

@[simp] theorem messageSelector_krtd (s : RtHandler hash F) (skb : F) (p : ℤ) :
    (s.messageSelector skb p).krtd = s.krtd := by
  unfold messageSelector
  split_ifs <;> rfl

/-- `kmond` is woken or left alone; its program point and variables stay. -/
theorem messageSelector_kmond (s : RtHandler hash F) (skb : F) (p : ℤ) :
    ∃ st, (s.messageSelector skb p).kmond = { s.kmond with taskState := st } ∧
      (st = wakeUpProcess s.kmond.taskState ∨
        (st = s.kmond.taskState ∧ ¬ s.service.highestPri < p)) := by
  unfold messageSelector
  by_cases hlt : s.service.highestPri < p
  · rw [if_pos hlt]
    exact ⟨_, rfl, Or.inl (wakeIfNotRunning_eq s.kmond.taskState)⟩
  · rw [if_neg hlt]
    by_cases heq : s.service.highestPri = p
    · rw [if_pos heq]
      refine ⟨_, rfl, ?_⟩
      split_ifs
      · exact Or.inl rfl
      · exact Or.inr ⟨rfl, hlt⟩
    · rw [if_neg heq]
      exact ⟨_, rfl, Or.inr ⟨rfl, hlt⟩⟩

end RtHandler

end CrosRt
