import Mathlib.Data.Finset.Erase
import Mathlib.Data.Finset.Insert
import Mathlib.Logic.Function.Basic
import CrosRt.Foundations.LabelledRuns
import CrosRt.Foundations.SortedVector

/-! # The timers of a participant

`ResourceEvent.cpp` of Fast-DDS: one thread, `event_service`, updates and triggers the timers; any
number of other threads register, notify and unregister timers and stop the thread; the callback of a
timer does so on the service thread. `pending_timers_` is protected by `mutex_`. The service thread goes
through `active_timers_` without it: `allow_vector_manipulation_` keeps the others away, and
`skip_checking_active_timers_` ends the loop where a callback has taken a timer out of it.

A section under `mutex_` is one step, and so is a wait on a condition variable with the release of the
mutex in front of it. A wait may end at any time. `TimedEventImpl` gives the outcome of `update` and the
trigger times, which change under `update` and `trigger` only. Times are in nanoseconds.
-/

namespace CrosRt.Middleware
set_option autoImplicit false

open LabelledRuns SortedVector

variable (Timer Client : Type)

/-- The next statement of `event_service` and `do_timer_actions`. In the loop over the active timers,
`i` is the iterator and `last` the end it is compared with. -/
inductive ServicePc
  | loop
  | processPending
  | check (i last : ℕ)
  | trigger (i last : ℕ) (tp : Timer)
  | keepSorted
  | testPending
  | waiting (currentTime nextTrigger : ℕ)
  | woken
  | stopping
  | notifyAll
  | done
  | joined
  deriving DecidableEq

/-- Where another thread is: before `notify_one` of `cv_`, waiting in `unregister_timer`, possibly
notified, or in `join`. -/
inductive ClientPc
  | idle
  | notifyOne
  | manipulation (event : Timer) (notified : Bool)
  | join
  deriving DecidableEq

variable {Timer Client}

/-- The members, the trigger times of the timers, the local variable `did_something`, whether `cv_` has
been notified since the service thread waits on it, and the other threads. `registered` are the timers
between `register_timer` and the end of `unregister_timer`; `triggered` those triggered in this round. -/
structure ResourceEvent (Timer Client : Type) where
  timersCount : ℤ
  pendingTimers : List Timer
  activeTimers : List Timer
  allowVectorManipulation : Bool
  skipCheckingActiveTimers : Bool
  stop : Bool
  currentTime : ℕ
  nextTriggerTime : Timer → ℕ
  didSomething : Bool
  service : ServicePc Timer
  signalled : Bool
  client : Client → ClientPc Timer
  registered : Finset Timer
  triggered : List Timer

/-- What a step of the service thread finds outside: the clock, the outcome of `update` for each timer
with its new trigger time, and the order that `std::sort` leaves. -/
structure ServiceInput (Timer : Type) where
  now : ℕ
  update : Timer → Bool × ℕ
  order : List Timer

/-- What a callback or another thread calls. -/
inductive TimerCall (Timer : Type)
  | registerTimer (event : Timer)
  | notify (event : Timer)
  | unregisterTimer (event : Timer)

/-- A next statement of the service thread, a call of a callback, a new trigger time under `trigger`;
a call of another thread and its next statement; `stop_thread` and `init_thread`. -/
inductive TimerEvent (Timer Client : Type)
  | service (input : ServiceInput Timer)
  | callback (call : TimerCall Timer)
  | retime (nextTrigger : ℕ)
  | call (c : Client) (call : TimerCall Timer)
  | client (c : Client)
  | stopThread (c : Client)
  | initThread

namespace ResourceEvent
variable [DecidableEq Timer] [DecidableEq Client]

def setClient (s : ResourceEvent Timer Client) (c : Client) (pc : ClientPc Timer) :
    ResourceEvent Timer Client :=
  { s with client := Function.update s.client c pc }

/-- `cv_.notify_one`. -/
def notifyOne (s : ResourceEvent Timer Client) : ResourceEvent Timer Client :=
  { s with signalled := true }

/-- `cv_manipulation_.notify_all`. -/
def notifyManipulation (s : ResourceEvent Timer Client) : ResourceEvent Timer Client :=
  { s with client := fun c =>
      match s.client c with
      | .manipulation event _ => .manipulation event true
      | pc => pc }

/-! ## The calls -/

/-- `register_timer` up to its `notify_one`. -/
def registerTimer (s : ResourceEvent Timer Client) (event : Timer) : ResourceEvent Timer Client :=
  { s with timersCount := s.timersCount + 1, registered := insert event s.registered }

/-- `notify`, with `register_timer_nts`. -/
def notify (s : ResourceEvent Timer Client) (event : Timer) : ResourceEvent Timer Client :=
  if event ∈ s.pendingTimers then s
  else { s with pendingTimers := s.pendingTimers ++ [event] }.notifyOne

/-- `unregister_timer` behind its wait. -/
def remove (s : ResourceEvent Timer Client) (isServiceThread : Bool) (event : Timer) :
    ResourceEvent Timer Client :=
  let shouldNotify := event ∈ s.pendingTimers ∨ event ∈ s.activeTimers
  let s' := { s with
    pendingTimers := s.pendingTimers.erase event
    activeTimers := s.activeTimers.erase event
    skipCheckingActiveTimers :=
      if event ∈ s.activeTimers ∧ isServiceThread then true else s.skipCheckingActiveTimers
    timersCount := s.timersCount - 1
    registered := s.registered.erase event }
  if shouldNotify then s'.notifyOne else s'

/-- The test of the wait in `unregister_timer`, and what comes behind it. -/
def manipulate (s : ResourceEvent Timer Client) (c : Client) (event : Timer) :
    ResourceEvent Timer Client :=
  if s.allowVectorManipulation then (s.remove false event).setClient c .idle
  else s.setClient c (.manipulation event false)

/-- A call made by a callback. -/
def callback (s : ResourceEvent Timer Client) : TimerCall Timer → ResourceEvent Timer Client
  | .registerTimer event => (s.registerTimer event).notifyOne
  | .notify event => s.notify event
  | .unregisterTimer event => s.remove true event

/-- The first step of a call made by another thread. -/
def clientCall (s : ResourceEvent Timer Client) (c : Client) :
    TimerCall Timer → ResourceEvent Timer Client
  | .registerTimer event => (s.registerTimer event).setClient c .notifyOne
  | .notify event => s.notify event
  | .unregisterTimer event => s.manipulate c event

def clientStep (s : ResourceEvent Timer Client) (c : Client) : Option (ResourceEvent Timer Client) :=
  match s.client c with
  | .idle => none
  | .notifyOne => some (s.notifyOne.setClient c .idle)
  | .manipulation event _ => some (s.manipulate c event)
  | .join =>
      if s.service = .done then some { s.setClient c .idle with service := .joined } else none

/-- `stop_thread` up to `join`. -/
def stopThread (s : ResourceEvent Timer Client) (c : Client) : ResourceEvent Timer Client :=
  { s.notifyOne with stop := true }.setClient c .join

def initThread (s : ResourceEvent Timer Client) : ResourceEvent Timer Client :=
  { s with allowVectorManipulation := false, stop := false, service := .loop }

/-! ## The service thread -/

/-- The body of the loop over the pending timers, on `active_timers_` and the trigger times. -/
def processOrder (update : Timer → Bool × ℕ) (x : List Timer × (Timer → ℕ)) (tp : Timer) :
    List Timer × (Timer → ℕ) :=
  let currentPos := lowerBound x.2 x.1 (x.2 tp)
  let active := x.1.take currentPos ++ (x.1.drop currentPos).erase tp
  let next := Function.update x.2 tp (update tp).2
  if (update tp).1 then (insertSorted next active tp, next) else (active, next)

/-- The pending orders, and the start of the loop over the active timers. -/
def processPending (s : ResourceEvent Timer Client) (update : Timer → Bool × ℕ) :
    ResourceEvent Timer Client :=
  let x := s.pendingTimers.foldl (processOrder update) (s.activeTimers, s.nextTriggerTime)
  { s with
    activeTimers := x.1
    nextTriggerTime := x.2
    pendingTimers := []
    skipCheckingActiveTimers := false
    didSomething := false
    triggered := []
    service := .check 0 x.1.length }

/-- An iterator behind the end of the vector is not defined. -/
def check (s : ResourceEvent Timer Client) (i last : ℕ) : Option (ResourceEvent Timer Client) :=
  if i = last then some { s with service := .keepSorted }
  else
    s.activeTimers[i]?.map fun tp =>
      if s.nextTriggerTime tp ≤ s.currentTime then
        { s with
          didSomething := true
          triggered := s.triggered ++ [tp]
          service := .trigger i last tp }
      else { s with service := .keepSorted }

/-- `cancel_time` is `current_time_` and 24 hours. -/
def cancelTime (s : ResourceEvent Timer Client) : ℕ := s.currentTime + 86400000000000

/-- `sort_timers` and the `erase` behind it; the order is one that `std::sort` may leave. -/
def keepSorted (s : ResourceEvent Timer Client) (order : List Timer) :
    Option (ResourceEvent Timer Client) :=
  if s.didSomething then
    if order.Perm s.activeTimers ∧
        order.Pairwise (fun lhs rhs => s.nextTriggerTime lhs ≤ s.nextTriggerTime rhs) then
      some { s with
        activeTimers := order.take (lowerBound s.nextTriggerTime order s.cancelTime)
        service := .testPending }
    else none
  else some { s with service := .testPending }

/-- When the wait for the first timer is to end. -/
def nextTrigger (s : ResourceEvent Timer Client) (now : ℕ) : ℕ :=
  let first :=
    match s.activeTimers with
    | [] => s.currentTime + 1000000000
    | tp :: _ => s.nextTriggerTime tp
  if now > first then now + 10000 else first

/-- The section between `do_timer_actions` and the wait. -/
def testPending (s : ResourceEvent Timer Client) (now : ℕ) : ResourceEvent Timer Client :=
  if s.stop then { s with service := .stopping }
  else if s.pendingTimers ≠ [] then { s with service := .loop }
  else
    { s with
      allowVectorManipulation := true
      signalled := false
      service := .waiting now (s.nextTrigger now) }.notifyManipulation

def serviceStep (s : ResourceEvent Timer Client) (input : ServiceInput Timer) :
    Option (ResourceEvent Timer Client) :=
  match s.service with
  | .loop =>
      if s.stop then some { s with service := .stopping }
      else some { s with currentTime := input.now, service := .processPending }
  | .processPending => some (s.processPending input.update)
  | .check i last => s.check i last
  | .trigger i last _ =>
      if s.skipCheckingActiveTimers then some { s with service := .keepSorted }
      else some { s with service := .check (i + 1) last }
  | .keepSorted => s.keepSorted input.order
  | .testPending => some (s.testPending input.now)
  | .waiting _ _ => some { s with service := .woken }
  | .woken => some { s with allowVectorManipulation := false, service := .loop }
  | .stopping => some { s with allowVectorManipulation := true, service := .notifyAll }
  | .notifyAll => some { s with service := .done }.notifyManipulation
  | .done => none
  | .joined => none

def step (s : ResourceEvent Timer Client) :
    TimerEvent Timer Client → Option (ResourceEvent Timer Client)
  | .service input => s.serviceStep input
  | .callback call =>
      match s.service with
      | .trigger _ _ _ => some (s.callback call)
      | _ => none
  | .retime nextTrigger =>
      match s.service with
      | .trigger _ _ tp =>
          some { s with nextTriggerTime := Function.update s.nextTriggerTime tp nextTrigger }
      | _ => none
  | .call c call => if s.client c = .idle then some (s.clientCall c call) else none
  | .client c => s.clientStep c
  | .stopThread c =>
      if s.client c = .idle ∧ s.service ≠ .joined then some (s.stopThread c) else none
  | .initThread => if s.service = .joined then some s.initThread else none

/-- `init_thread` has run, and no timer is known. -/
def init (nextTriggerTime : Timer → ℕ) : ResourceEvent Timer Client where
  timersCount := 0
  pendingTimers := []
  activeTimers := []
  allowVectorManipulation := false
  skipCheckingActiveTimers := false
  stop := false
  currentTime := 0
  nextTriggerTime := nextTriggerTime
  didSomething := false
  service := .loop
  signalled := false
  client := fun _ => .idle
  registered := ∅
  triggered := []

end ResourceEvent

end CrosRt.Middleware
