import CrosRt.Driver.Receive
import CrosRt.Foundations.LabelledRuns

/-! # From the interrupt to the poll

`rtl8169_interrupt` and `rtl8169_poll` on the CPU that takes the interrupt of the network card, with
the watchdog timer of the NAPI instance and the reset of the driver. The handler runs to its end before
the poll goes on; the hardware gives back descriptors and raises status bits between any two
statements. With the interrupts of the card masked, only the end of a poll unmasks them, so the
question is whether a frame, or a completed transmission, can be left with nobody to look for it.

The ring is seen as the number of descriptors given back and not yet consumed. A shared interrupt line
may call the handler at any time.
-/

namespace CrosRt
set_option autoImplicit false

open LabelledRuns

/-! ## Interrupt status -/

def rxOK : BitVec 32 := 0x0001
def rxErr : BitVec 32 := 0x0002
def txOK : BitVec 32 := 0x0004
def txErr : BitVec 32 := 0x0008
def rxOverflow : BitVec 32 := 0x0010
def linkChg : BitVec 32 := 0x0020
def rxFIFOOver : BitVec 32 := 0x0040
def sysErr : BitVec 32 := 0x8000

/-- `rtl_set_irq_mask`, by the number of the chip version. -/
def rtlSetIrqMask (macVersion : ℕ) : BitVec 32 :=
  let mask := rxOK ||| rxErr ||| txOK ||| txErr ||| linkChg
  if macVersion ≤ 6 then mask ||| (sysErr ||| rxOverflow ||| rxFIFOOver)
  else if macVersion = 11 then mask ||| rxFIFOOver
  else mask ||| rxOverflow

/-- The status word of a card that is gone, or one without an event of interest. -/
def ignored (macVersion : ℕ) (status : BitVec 32) : Bool :=
  status &&& 0xffff == 0xffff || !hasBits status (rtlSetIrqMask macVersion)

/-! ## The two contexts -/

/-- The next statement of `rtl8169_interrupt`, with the events read. -/
inductive HandlerPc
  | idle
  | events (status : BitVec 32)
  | schedulePrep (status : BitVec 32)
  | irqDisable (status : BitVec 32)
  | schedule (status : BitVec 32)
  | ackEvents (status : BitVec 32)
  deriving DecidableEq, Repr

/-- The next statement of `rtl8169_poll`, down to the two calls at its end. -/
inductive PollPc
  | idle
  | tx
  | rx (count : ℕ)
  | completeDone
  | schedule
  | timer (timeout ret : Bool)
  | irqEnable
  deriving DecidableEq, Repr

/-- The card: received and transmitted descriptors given back and not yet consumed, status bits it has
still to raise for them, the status and the mask register. The driver: the state bits and the poll
list of the NAPI instance, its timer, the reset task, and the two contexts. -/
structure IrqPoll where
  rxDone : ℕ
  txDone : ℕ
  rxSignal : Bool
  txSignal : Bool
  intrStatus : BitVec 32
  irqOn : Bool
  sched : Bool
  missed : Bool
  listed : Bool
  timer : Bool
  resetPending : Bool
  handler : HandlerPc
  poll : PollPc
  deriving DecidableEq, Repr

inductive IrqPollEvent
  | receive
  | transmitted
  | signalRx
  | signalTx
  | raise (bits : BitVec 32)
  | interrupt
  | handler
  | watchdog
  | pollBegin
  | poll
  | complete (timeout ret : Bool)
  | reset
  deriving DecidableEq, Repr

namespace IrqPoll

/-- After `rtl_hw_start`. -/
def init : IrqPoll where
  rxDone := 0
  txDone := 0
  rxSignal := false
  txSignal := false
  intrStatus := 0
  irqOn := true
  sched := false
  missed := false
  listed := false
  timer := false
  resetPending := false
  handler := .idle
  poll := .idle

/-- A present card never shows all status bits at once. -/
def raise (s : IrqPoll) (bits : BitVec 32) : Option IrqPoll :=
  if (s.intrStatus ||| bits ||| (rxOK ||| txOK)) &&& 0xffff = 0xffff then none
  else some { s with intrStatus := s.intrStatus ||| bits }

def handlerStep (macVersion : ℕ) (s : IrqPoll) : Option IrqPoll :=
  match s.handler with
  | .idle => none
  | .events status =>
      if hasBits status sysErr then
        some { s with resetPending := true, handler := .ackEvents status }
      else
        some { s with
          resetPending := s.resetPending || (hasBits status rxFIFOOver && macVersion == 11)
          handler := .schedulePrep status }
  | .schedulePrep status =>
      if s.sched then some { s with missed := true, handler := .ackEvents status }
      else some { s with sched := true, handler := .irqDisable status }
  | .irqDisable status => some { s with irqOn := false, handler := .schedule status }
  | .schedule status => some { s with listed := true, handler := .ackEvents status }
  | .ackEvents status =>
      some { s with intrStatus := s.intrStatus &&& ~~~status, handler := .idle }

/-- A statement of the poll; `weight` is the budget. -/
def pollStep (weight : ℕ) (s : IrqPoll) : Option IrqPoll :=
  match s.poll with
  | .tx => some { s with txDone := 0, poll := .rx 0 }
  | .rx count =>
      if count = weight then some { s with listed := true, poll := .idle }
      else if s.rxDone = 0 then some { s with poll := .completeDone }
      else some { s with rxDone := s.rxDone - 1, poll := .rx (count + 1) }
  | .schedule => some { s with listed := true, poll := .idle }
  | .timer timeout ret =>
      some { s with timer := s.timer || timeout, poll := if ret then .irqEnable else .idle }
  | .irqEnable => some { s with irqOn := true, poll := .idle }
  | _ => none

/-- The state word in `napi_complete_done`: without a missed call the timer is armed where there is a
timeout, and only a call with a timeout may return false. -/
def complete (s : IrqPoll) (timeout ret : Bool) : IrqPoll :=
  if s.missed then { s with missed := false, poll := .schedule }
  else { s with sched := false, poll := .timer timeout ret }

/-- `rtl_reset_work`, once `napi_disable` has the instance: the receive ring starts over. -/
def reset (s : IrqPoll) : IrqPoll :=
  { s with
    rxDone := 0
    txDone := 0
    rxSignal := false
    txSignal := false
    intrStatus := 0
    irqOn := true
    timer := false
    resetPending := false }

def step (macVersion weight : ℕ) (s : IrqPoll) : IrqPollEvent → Option IrqPoll
  | .receive => some { s with rxDone := s.rxDone + 1, rxSignal := true }
  | .transmitted => some { s with txDone := s.txDone + 1, txSignal := true }
  | .signalRx =>
      if s.rxSignal then some { s with intrStatus := s.intrStatus ||| rxOK, rxSignal := false }
      else none
  | .signalTx =>
      if s.txSignal then some { s with intrStatus := s.intrStatus ||| txOK, txSignal := false }
      else none
  | .raise bits => s.raise bits
  | .interrupt =>
      if s.handler = .idle then
        if ignored macVersion s.intrStatus then some s
        else some { s with handler := .events s.intrStatus }
      else none
  | .handler => s.handlerStep macVersion
  | .watchdog =>
      if s.handler = .idle ∧ s.timer then
        if s.sched then some { s with timer := false }
        else some { s with timer := false, sched := true, listed := true }
      else none
  | .pollBegin =>
      if s.handler = .idle ∧ s.poll = .idle ∧ s.listed then
        some { s with listed := false, poll := if s.sched then .tx else .idle }
      else none
  | .poll => if s.handler = .idle then s.pollStep weight else none
  | .complete timeout ret =>
      if s.handler = .idle ∧ s.poll = .completeDone ∧ (ret || timeout) then
        some (s.complete timeout ret)
      else none
  | .reset =>
      if s.handler = .idle ∧ s.poll = .idle ∧ s.resetPending ∧ ¬ s.sched then some s.reset
      else none

end IrqPoll

end CrosRt
