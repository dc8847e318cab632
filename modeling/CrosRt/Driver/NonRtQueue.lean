import Mathlib.Algebra.Order.Ring.Int
import CrosRt.Foundations.Draining

/-! # The non-real-time queue and its two servers

`tp->non_rt` with `non_rt_poll` and `non_rt_pl_poll` of `r8169_main.c`. Both run with interrupts
off, so on the single CPU the driver assumes nothing arrives while they take buffers out. The
background server takes all of them; the polling server stops at the number of buffers that its
share of the period allows.
-/

namespace CrosRt
set_option autoImplicit false

variable {F : Type*}

/-- The value kept by an `int` of 32 bits. -/
def int32 (x : ℤ) : ℤ := x.bmod (2 ^ 32)

def skbDequeue : List F → Option F × List F
  | [] => (none, [])
  | skb :: rest => (some skb, rest)

def skbQueueTail (queue : List F) (skb : F) : List F := queue ++ [skb]

/-- The buffers a server hands to `napi_gro_receive`, in order, and the queue it leaves. -/
structure NonRtPoll (F : Type*) where
  delivered : List F
  nonRt : List F

/-- `non_rt_poll`; the loop has a round for every buffer and one for the last, empty, dequeue. -/
def nonRtPoll (nonRt : List F) : NonRtPoll F :=
  let drained := drain skbDequeue (nonRt.length + 1) nonRt
  ⟨drained.1, drained.2⟩

/-- `process_ms` of `non_rt_pl_poll`: the share of the period in milliseconds. -/
def processMs (period util : ℤ) : ℤ := (int32 (util * period)).tdiv 100

def processBudget (period util : ℤ) : ℤ := (processMs period util).tdiv 2

/-- The loop of `non_rt_pl_poll`: `processed < process_budget` bounds the rounds. -/
def nonRtPlPoll (nonRt : List F) (period util : ℤ) : NonRtPoll F :=
  let drained := drain skbDequeue (processBudget period util).toNat nonRt
  ⟨drained.1, drained.2⟩

def FitsInt32 (x : ℤ) : Prop := -2 ^ 31 ≤ x ∧ x < 2 ^ 31

theorem int32_of_fits {x : ℤ} (h : FitsInt32 x) : int32 x = x :=
  Int.bmod_eq_of_le_mul_two (by have := h.1; omega) (by have := h.2; omega)

theorem skbDequeue_takesFront : TakesFront (skbDequeue : List F → Option F × List F) id where
  fst := by rintro (_ | ⟨skb, rest⟩) <;> rfl
  snd := by rintro (_ | ⟨skb, rest⟩) <;> rfl

@[simp] theorem nonRtPoll_delivered (nonRt : List F) : (nonRtPoll nonRt).delivered = nonRt :=
  drain_fst_of_le skbDequeue_takesFront (Nat.le_succ _)

@[simp] theorem nonRtPoll_nonRt (nonRt : List F) : (nonRtPoll nonRt).nonRt = [] :=
  view_drain_of_le skbDequeue_takesFront (Nat.le_succ _)

theorem nonRtPlPoll_delivered (nonRt : List F) (period util : ℤ) :
    (nonRtPlPoll nonRt period util).delivered =
      nonRt.take (processBudget period util).toNat :=
  drain_fst skbDequeue_takesFront _ _

theorem nonRtPlPoll_nonRt (nonRt : List F) (period util : ℤ) :
    (nonRtPlPoll nonRt period util).nonRt = nonRt.drop (processBudget period util).toNat :=
  view_drain skbDequeue_takesFront _ _

theorem nonRtPoll_append (nonRt : List F) :
    (nonRtPoll nonRt).delivered ++ (nonRtPoll nonRt).nonRt = nonRt := by
  rw [nonRtPoll_delivered, nonRtPoll_nonRt, List.append_nil]

theorem nonRtPlPoll_append (nonRt : List F) (period util : ℤ) :
    (nonRtPlPoll nonRt period util).delivered ++ (nonRtPlPoll nonRt period util).nonRt =
      nonRt := by
  rw [nonRtPlPoll_delivered, nonRtPlPoll_nonRt, List.take_append_drop]

end CrosRt
