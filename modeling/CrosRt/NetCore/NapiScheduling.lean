import CrosRt.Foundations.Holder
import CrosRt.Foundations.LabelledRuns

/-! # Scheduling a NAPI instance

Who may poll one NAPI instance, for any number of contexts on any number of CPUs that call
`napi_schedule`, run `net_rx_action`, let the watchdog timer expire, or take the device down and up
again with `napi_disable` and `napi_enable`. `NAPI_STATE_SCHED` is the token: the context that sets it
links the instance into the poll list of its CPU, the softirq that unlinks it polls it, and only the
poll gives it up. Each access to the state word is one step, and so is each change of a list.

Threaded and busy polling and netpoll are not part of the model: their state bits are clear. What
`poll` does to the device is open; it consumes its whole weight or ends with `napi_complete_done`.
-/

namespace CrosRt
set_option autoImplicit false

open LabelledRuns Holder

/-- The next statement of a context. -/
inductive NapiPc
  | idle
  | schedule
  | watchdog
  | testSched
  | poll
  | completeDone
  | completeSwap
  | exhausted
  | repoll
  | disable
  | disableNpsvc
  | disableClear
  deriving DecidableEq, Repr

/-- The list that links the instance: `poll_list` of a CPU, or one of the two local lists of the
`net_rx_action` that a context runs. -/
inductive PollList (T C : Type*)
  | softnet (cpu : C)
  | list (t : T)
  | repoll (t : T)
  deriving DecidableEq

/-- The state bits of the instance, the lists it is linked in, whether `napi_disable` has returned
and `napi_enable` not been called since, and the contexts. `wanted` records a call of
`napi_schedule` that no poll has followed yet. -/
structure NapiSched (T C : Type*) where
  sched : Bool
  missed : Bool
  disable : Bool
  npsvc : Bool
  lists : List (PollList T C)
  down : Bool
  pc : T → NapiPc
  wanted : Bool

inductive NapiAction
  | schedulePrep
  | schedule
  | watchdogPending
  | watchdogSet
  | rxBegin
  | unlink
  | testSched
  | pollReturns (exhausted : Bool)
  | completeDone
  | completeSwap
  | disablePending
  | repoll
  | rxEnd
  | disable
  | disableSched
  | disableNpsvc
  | disableClear
  | enable
  deriving DecidableEq, Repr

structure NapiSchedEvent (T : Type*) where
  ctx : T
  action : NapiAction

namespace NapiSched

variable {T C : Type*} [DecidableEq T] [DecidableEq C]

/-- After `netif_napi_add`. -/
def init (T C : Type*) : NapiSched T C where
  sched := true
  missed := false
  disable := false
  npsvc := true
  lists := []
  down := true
  pc := fun _ => .idle
  wanted := false

def goto (s : NapiSched T C) (t : T) (pc : NapiPc) : NapiSched T C :=
  { s with pc := Function.update s.pc t pc }

/-- `napi_schedule_prep`: the new state word sets `MISSED` where `SCHED` was set. -/
def schedulePrep (s : NapiSched T C) (t : T) : NapiSched T C :=
  if s.disable then s
  else
    let s' := { s with sched := true, missed := s.missed || s.sched, wanted := s.wanted || !s.down }
    if s.sched then s' else s'.goto t .schedule

/-- `____napi_schedule` on the poll list of the CPU. -/
def schedule (s : NapiSched T C) (t : T) (cpu : C) : NapiSched T C :=
  ({ s with lists := s.lists ++ [.softnet cpu] } : NapiSched T C).goto t .idle

/-- `test_and_set_bit(NAPI_STATE_SCHED)` of `napi_watchdog`. -/
def watchdogSet (s : NapiSched T C) (t : T) : NapiSched T C :=
  if s.sched then s.goto t .idle
  else ({ s with sched := true } : NapiSched T C).goto t .schedule

/-- `list_splice_init(&sd->poll_list, &list)`. -/
def rxBegin (s : NapiSched T C) (t : T) (cpu : C) : NapiSched T C :=
  { s with lists := s.lists.map fun l => if l = .softnet cpu then .list t else l }

/-- The splices at the end of `net_rx_action`. -/
def rxEnd (s : NapiSched T C) (t : T) (cpu : C) : NapiSched T C :=
  { s with lists :=
    s.lists.map fun l => if l = .list t ∨ l = .repoll t then .softnet cpu else l }

/-- `list_del_init` of `napi_poll`. -/
def unlink (s : NapiSched T C) (t : T) : NapiSched T C :=
  ({ s with lists := [] } : NapiSched T C).goto t .testSched

/-- The test of `NAPI_STATE_SCHED` in `__napi_poll`. -/
def testSched (s : NapiSched T C) (t : T) : NapiSched T C :=
  if s.sched then ({ s with wanted := false } : NapiSched T C).goto t .poll else s.goto t .idle

/-- `napi_complete_done` up to the loop on the state word. -/
def completeDone (s : NapiSched T C) (t : T) : NapiSched T C :=
  if s.npsvc then s.goto t .idle
  else ({ s with lists := [] } : NapiSched T C).goto t .completeSwap

/-- The new state word of `napi_complete_done`: a missed call keeps `SCHED` and schedules again. -/
def completeSwap (s : NapiSched T C) (t : T) : NapiSched T C :=
  let s' : NapiSched T C := { s with sched := s.missed, missed := false }
  s'.goto t (if s.missed then .schedule else .idle)

/-- `list_add_tail(&n->poll_list, repoll)`, unless the instance is linked already. -/
def repoll (s : NapiSched T C) (t : T) : NapiSched T C :=
  if s.lists = [] then ({ s with lists := [.repoll t] } : NapiSched T C).goto t .idle
  else s.goto t .idle

def disableSched (s : NapiSched T C) (t : T) : NapiSched T C :=
  if s.sched then s else ({ s with sched := true } : NapiSched T C).goto t .disableNpsvc

def disableNpsvc (s : NapiSched T C) (t : T) : NapiSched T C :=
  if s.npsvc then s else ({ s with npsvc := true } : NapiSched T C).goto t .disableClear

def disableClear (s : NapiSched T C) (t : T) : NapiSched T C :=
  ({ s with disable := false, down := true } : NapiSched T C).goto t .idle

/-- One step of a context, where the context is at the statement that the step names. `cpuOf` is the
CPU of a context. Calls of `napi_disable` and `napi_enable` come in turns, as their callers hold
`rtnl_lock`. -/
def step (cpuOf : T → C) (s : NapiSched T C) (e : NapiSchedEvent T) : Option (NapiSched T C) :=
  let t := e.ctx
  match e.action, s.pc t with
  | .schedulePrep, .idle => some (s.schedulePrep t)
  | .schedule, .schedule => some (s.schedule t (cpuOf t))
  | .watchdogPending, .idle => some (if s.disable then s else s.goto t .watchdog)
  | .watchdogSet, .watchdog => some (s.watchdogSet t)
  | .rxBegin, .idle => some (s.rxBegin t (cpuOf t))
  | .unlink, .idle => if .list t ∈ s.lists then some (s.unlink t) else none
  | .testSched, .testSched => some (s.testSched t)
  | .pollReturns exhausted, .poll =>
      some (s.goto t (if exhausted then .exhausted else .completeDone))
  | .completeDone, .completeDone => some (s.completeDone t)
  | .completeSwap, .completeSwap => some (s.completeSwap t)
  | .disablePending, .exhausted =>
      some (s.goto t (if s.disable then .completeDone else .repoll))
  | .repoll, .repoll => some (s.repoll t)
  | .rxEnd, .idle => some (s.rxEnd t (cpuOf t))
  | .disable, .idle =>
      if s.disable || s.down then none
      else some (({ s with disable := true } : NapiSched T C).goto t .disable)
  | .disableSched, .disable => some (s.disableSched t)
  | .disableNpsvc, .disableNpsvc => some (s.disableNpsvc t)
  | .disableClear, .disableClear => some (s.disableClear t)
  | .enable, .idle =>
      if s.down then some { s with sched := false, npsvc := false, down := false } else none
  | _, _ => none

end NapiSched

end CrosRt
