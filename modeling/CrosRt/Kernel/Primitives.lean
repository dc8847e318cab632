import Mathlib.Algebra.Order.Ring.Int
import Mathlib.Data.Fin.Basic
import Mathlib.Data.Int.Basic

/-! # Kernel calls the sources rely on

Task states with the three calls that change them (`kernel/sched/core.c`), the real-time priority a
`SCHED_FIFO` request is given, and the bucket function of `<linux/hashtable.h>` for tables of 256
buckets. Socket-buffer queues are plain lists, front first.
-/

namespace CrosRt.Kernel
set_option autoImplicit false

inductive TaskState
  | running
  | interruptible
  | uninterruptible
  | dead
  deriving DecidableEq, Repr

/-- `wake_up_process` as far as the state goes: `try_to_wake_up(p, TASK_NORMAL, 0)` makes a task
in one of the two sleeping states runnable and leaves the others alone. -/
def wakeUpProcess : TaskState → TaskState
  | .interruptible | .uninterruptible | .running => .running
  | .dead => .dead

/-- The guarded wake-up of the receive path: `if (p->__state != TASK_RUNNING) wake_up_process(p)`. -/
def wakeIfNotRunning (s : TaskState) : TaskState :=
  if s ≠ .running then wakeUpProcess s else s

theorem wakeIfNotRunning_eq (s : TaskState) : wakeIfNotRunning s = wakeUpProcess s := by
  cases s <;> rfl

/-- `p->rt_priority` after `sched_setscheduler(p, SCHED_FIFO, &param)`: priorities outside
`1 .. MAX_RT_PRIO - 1` are refused with `-EINVAL` and change nothing. -/
def schedSetFifo (rtPriority param : ℤ) : ℤ :=
  if 1 ≤ param ∧ param ≤ 99 then param else rtPriority

theorem schedSetFifo_of_valid {param : ℤ} (rtPriority : ℤ) (h : 1 ≤ param ∧ param ≤ 99) :
    schedSetFifo rtPriority param = param := if_pos h

/-- `hash_min(key, 8)` of a 32-bit key: the top eight bits of the product with
`GOLDEN_RATIO_32`. -/
def hashMin (key : ℤ) : Fin 256 :=
  Fin.ofNat 256 ((key % 2 ^ 32).toNat * 0x61C88647 % 2 ^ 32 / 2 ^ 24)

end CrosRt.Kernel
