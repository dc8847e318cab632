import CrosRt.Foundations.LabelledRuns
import CrosRt.NetCore.FlowLimit

/-! # The receive backlogs of the CPUs

`enqueue_to_backlog` puts a frame on the queue of a CPU, `process_backlog` takes it from there, and
`get_rps_cpu` chooses the CPU. Every CPU runs `net_rx_action` in its softirq; a frame for another CPU
wakes that CPU through an interrupt between processors, sent when the softirq of the sender gets to it.

Contexts: one for each receive queue, which steers and enqueues a frame at a time; one softirq for each
CPU; calls of `netif_rx` and interrupts at any time. What is done under the lock of a queue is one
step. A frame on a queue carries the entry of the flow table through which it came, whose `last_qtail`
is written with it.

CPUs neither come nor go, and a flow table keeps its size.
-/

namespace CrosRt
set_option autoImplicit false

open LabelledRuns

/-! ## The data -/

/-- An entry of a flow table: its receive queue and its index. -/
abbrev RpsEntry (R : Type) := R × BitVec 32

structure BacklogSkb (Skb R : Type) where
  skb : Skb
  rflow : Option (RpsEntry R)
  deriving DecidableEq

/-- `struct rps_dev_flow`. -/
structure RpsDevFlow where
  cpu : ℕ
  lastQtail : BitVec 32
  deriving DecidableEq, Repr

/-- The lists a NAPI instance can be on: the one of the CPU and the two of `net_rx_action`. -/
inductive NapiList
  | pollList
  | list
  | repoll
  deriving DecidableEq, Repr

/-- `struct softnet_data`. -/
structure SoftnetData (n : ℕ) (Skb R : Type) where
  inputPktQueue : List (BacklogSkb Skb R)
  processQueue : List (BacklogSkb Skb R)
  inputQueueHead : BitVec 32
  inputQueueTail : BitVec 32
  dropped : ℕ
  receivedRps : ℕ
  /-- `NAPI_STATE_SCHED` of `backlog`. -/
  sched : Bool
  /-- The lists that `backlog` is on. -/
  linked : List NapiList
  rpsIpiList : List (Fin n)
  flowLimit : Option FlowLimit

/-- The next statement of the softirq of a CPU, in `net_rx_action`, in `process_backlog` called from it,
or in `net_rps_send_ipi` called from either; and of `flush_backlog`, which keeps the softirq out. -/
inductive NetRxPc (n : ℕ) (Skb R : Type)
  | idle
  | loop
  | processBacklog
  | sendIpi (remsd : List (Fin n)) (polling : Bool)
  | dequeue (work : ℕ)
  | receive (x : BacklogSkb Skb R) (work : ℕ)
  | headIncr (work : ℕ)
  | refill (work : ℕ)
  | flushProcess (unregistering : Skb → Bool)

/-- A receive queue between `get_rps_cpu` and `enqueue_to_backlog`. -/
inductive RxPc (n : ℕ) (Skb R : Type)
  | idle
  | enqueue (x : BacklogSkb Skb R) (cpu : Fin n)

structure Backlogs (n : ℕ) (Skb R : Type) where
  sd : Fin n → SoftnetData n Skb R
  netRx : Fin n → NetRxPc n Skb R
  /-- `NET_RX_SOFTIRQ` is raised. -/
  raised : Fin n → Bool
  /-- The interrupt of `rps_trigger_softirq` is on its way. -/
  ipi : Fin n → Bool
  flows : R → BitVec 32 → RpsDevFlow
  rx : R → RxPc n Skb R
  accepted : List (Fin n × BacklogSkb Skb R)
  delivered : List (Fin n × BacklogSkb Skb R)
  flushed : List (Fin n × BacklogSkb Skb R)

/-- What the functions read and never write: the settings, the masks of the flow tables (none without
one) and the hash of a frame. -/
structure RpsConfig (n : ℕ) (Skb R : Type) where
  netdevMaxBacklog : ℕ
  devRxWeight : ℕ
  weight_pos : 0 < devRxWeight
  rpsCpuMask : BitVec 32
  online : Fin n → Bool
  flowMask : R → Option (BitVec 32)
  hash : Skb → BitVec 32

inductive BacklogEvent (n : ℕ) (Skb R : Type)
  /-- `get_rps_cpu`, with the entry of the socket flow table and the map it reads. -/
  | steer (r : R) (skb : Skb) (ident : Option (BitVec 32)) (map : List (Fin n))
  | enqueue (r : R) (here : Fin n) (running : Bool)
  | netifRx (here cpu : Fin n) (skb : Skb) (running : Bool)
  | ipi (c : Fin n)
  | raise (c : Fin n)
  | softirq (c : Fin n)
  | poll (c : Fin n)
  | netRx (c : Fin n)
  /-- The end of `net_rx_action` after the loop; other instances may be on the list. -/
  | splice (c : Fin n) (others : Bool)
  /-- The return from the loop. -/
  | leave (c : Fin n)
  | flush (c : Fin n) (unregistering : Skb → Bool)

namespace Backlogs
variable {n : ℕ} {Skb R : Type}

/-- No flow has a CPU: `RPS_NO_CPU`. -/
def init (limits : Fin n → Option FlowLimit) : Backlogs n Skb R where
  sd c := {
    inputPktQueue := []
    processQueue := []
    inputQueueHead := 0
    inputQueueTail := 0
    dropped := 0
    receivedRps := 0
    sched := false
    linked := []
    rpsIpiList := []
    flowLimit := limits c }
  netRx _ := .idle
  raised _ := false
  ipi _ := false
  flows _ _ := ⟨0xffff, 0⟩
  rx _ := .idle
  accepted := []
  delivered := []
  flushed := []

def modify (s : Backlogs n Skb R) (c : Fin n)
    (f : SoftnetData n Skb R → SoftnetData n Skb R) : Backlogs n Skb R :=
  { s with sd := Function.update s.sd c (f (s.sd c)) }

def goto (s : Backlogs n Skb R) (c : Fin n) (pc : NetRxPc n Skb R) : Backlogs n Skb R :=
  { s with netRx := Function.update s.netRx c pc }

def raiseNetRx (s : Backlogs n Skb R) (c : Fin n) : Backlogs n Skb R :=
  { s with raised := Function.update s.raised c true }

/-! ## Choosing the CPU -/

/-- `reciprocal_scale`. -/
def reciprocalScale (val : BitVec 32) (epRo : ℕ) : ℕ := val.toNat * epRo / 2 ^ 32

section Steering
variable [DecidableEq R] (cfg : RpsConfig n Skb R) (s : Backlogs n Skb R)

/-- `set_rps_cpu`, without hardware steering. -/
def setRpsCpu (rflow : RpsDevFlow) (nextCpu : ℕ) : RpsDevFlow :=
  { cpu := nextCpu
    lastQtail :=
      if h : nextCpu < n then (s.sd ⟨nextCpu, h⟩).inputQueueHead else rflow.lastQtail }

/-- The entry may go to another CPU: it has none, its CPU is offline, or the head of the queue of its
CPU is not behind the last frame enqueued through it. -/
def maySwitch (rflow : RpsDevFlow) : Bool :=
  if h : rflow.cpu < n then
    !cfg.online ⟨rflow.cpu, h⟩ ||
      decide (0 ≤ ((s.sd ⟨rflow.cpu, h⟩).inputQueueHead - rflow.lastQtail).toInt)
  else true

def tryRps (hash : BitVec 32) (map : List (Fin n)) : Option (Fin n) :=
  match map[reciprocalScale hash map.length]? with
  | some tcpu => if cfg.online tcpu then some tcpu else none
  | none => none

/-- The entry after the choice. -/
def switchCpu (rflow : RpsDevFlow) (nextCpu : ℕ) : RpsDevFlow :=
  if rflow.cpu ≠ nextCpu ∧ s.maySwitch cfg rflow then s.setRpsCpu rflow nextCpu else rflow

def onlineCpu (tcpu : ℕ) : Option (Fin n) :=
  if h : tcpu < n then if cfg.online ⟨tcpu, h⟩ then some ⟨tcpu, h⟩ else none else none

/-- `get_rps_cpu`: the CPU, if any, the entry it is from, and the flow tables after. -/
def getRpsCpu (r : R) (skb : Skb) (ident : Option (BitVec 32)) (map : List (Fin n)) :
    Option (Fin n) × Option (RpsEntry R) × (R → BitVec 32 → RpsDevFlow) :=
  let hash := cfg.hash skb
  if cfg.flowMask r = none ∧ map = [] then (none, none, s.flows)
  else if hash = 0 then (none, none, s.flows)
  else
    match cfg.flowMask r, ident with
    | some mask, some ident =>
        if (ident ^^^ hash) &&& ~~~cfg.rpsCpuMask ≠ 0 then (tryRps cfg hash map, none, s.flows)
        else
          let i := hash &&& mask
          let rflow := s.switchCpu cfg (s.flows r i) (ident &&& cfg.rpsCpuMask).toNat
          let flows := Function.update s.flows r (Function.update (s.flows r) i rflow)
          match onlineCpu cfg rflow.cpu with
          | some tcpu => (some tcpu, some (r, i), flows)
          | none => (tryRps cfg hash map, none, flows)
    | _, _ => (tryRps cfg hash map, none, s.flows)

end Steering

/-! ## Enqueueing -/

section Enqueueing
variable [DecidableEq R] (cfg : RpsConfig n Skb R) (s : Backlogs n Skb R)

/-- `____napi_schedule` of the backlog of a CPU, on that CPU. -/
def napiSchedule (c : Fin n) : Backlogs n Skb R :=
  (s.modify c fun sd => { sd with linked := sd.linked ++ [.pollList] }).raiseNetRx c

/-- `rps_ipi_queued`, where the CPU is another one. -/
def rpsIpiQueued (here cpu : Fin n) : Backlogs n Skb R :=
  (s.modify here fun sd => { sd with rpsIpiList := cpu :: sd.rpsIpiList }).raiseNetRx here

/-- `input_queue_tail_incr_save`, on the entry the frame came through. -/
def tailIncrSave (cpu : Fin n) (rflow : Option (RpsEntry R)) : Backlogs n Skb R :=
  let tail := (s.sd cpu).inputQueueTail + 1
  let s := s.modify cpu fun sd => { sd with inputQueueTail := tail }
  match rflow with
  | none => s
  | some (r, i) =>
      { s with flows := Function.update s.flows r
                (Function.update (s.flows r) i { s.flows r i with lastQtail := tail }) }

/-- From the label `enqueue` on. -/
def queueTail (cpu : Fin n) (x : BacklogSkb Skb R) : Backlogs n Skb R :=
  let s := s.modify cpu fun sd => { sd with inputPktQueue := sd.inputPktQueue ++ [x] }
  { s.tailIncrSave cpu x.rflow with accepted := s.accepted ++ [(cpu, x)] }

/-- The first frame of an empty queue schedules the backlog. -/
def wake (here cpu : Fin n) : Backlogs n Skb R :=
  if (s.sd cpu).sched then s
  else
    let s := s.modify cpu fun sd => { sd with sched := true }
    if cpu ≠ here then s.rpsIpiQueued here cpu else s.napiSchedule cpu

def drop (cpu : Fin n) : Backlogs n Skb R :=
  s.modify cpu fun sd => { sd with dropped := sd.dropped + 1 }

/-- `enqueue_to_backlog`, running on the CPU `here`. -/
def enqueueToBacklog (here cpu : Fin n) (x : BacklogSkb Skb R) (running : Bool) :
    Backlogs n Skb R :=
  if running then
    let qlen := (s.sd cpu).inputPktQueue.length
    if qlen ≤ cfg.netdevMaxBacklog then
      let limited := skbFlowLimit cfg.netdevMaxBacklog (s.sd here).flowLimit (cfg.hash x.skb) qlen
      let s := s.modify here fun sd => { sd with flowLimit := limited.2 }
      if limited.1 then s.drop cpu
      else if qlen = 0 then (s.wake here cpu).queueTail cpu x
      else s.queueTail cpu x
    else s.drop cpu
  else s.drop cpu

end Enqueueing

/-! ## The softirq -/

section Softirq
variable (cfg : RpsConfig n Skb R) (s : Backlogs n Skb R)

/-- `smp_call_function_single_async`: fails where the last call is still on its way. -/
def sendIpi (cpu : Fin n) : Backlogs n Skb R :=
  if cfg.online cpu then { s with ipi := Function.update s.ipi cpu true } else s

/-- `process_backlog` returns to `napi_poll`: a poll that used up its weight is put on `repoll`. -/
def pollReturns (c : Fin n) (work : ℕ) : Backlogs n Skb R :=
  if work < cfg.devRxWeight then s.goto c .loop
  else (s.modify c fun sd => { sd with linked := sd.linked ++ [.repoll] }).goto c .loop

def netRxStep (c : Fin n) : Option (Backlogs n Skb R) :=
  match s.netRx c with
  | .idle | .loop => none
  | .processBacklog =>
      if (s.sd c).rpsIpiList = [] then some (s.goto c (.dequeue 0))
      else some ((s.modify c fun sd => { sd with rpsIpiList := [] }).goto c
        (.sendIpi (s.sd c).rpsIpiList true))
  | .sendIpi (remsd :: next) polling => some ((s.sendIpi cfg remsd).goto c (.sendIpi next polling))
  | .sendIpi [] polling => some (s.goto c (if polling then .dequeue 0 else .idle))
  | .dequeue work =>
      match (s.sd c).processQueue with
      | x :: rest =>
          some ((s.modify c fun sd => { sd with processQueue := rest }).goto c (.receive x work))
      | [] => some (s.goto c (.refill work))
  | .receive x work =>
      some { s.goto c (.headIncr work) with delivered := s.delivered ++ [(c, x)] }
  | .headIncr work =>
      let s := s.modify c fun sd => { sd with inputQueueHead := sd.inputQueueHead + 1 }
      if cfg.devRxWeight ≤ work + 1 then some (s.pollReturns cfg c (work + 1))
      else some (s.goto c (.dequeue (work + 1)))
  | .refill work =>
      if (s.sd c).inputPktQueue = [] then
        some ((s.modify c fun sd => { sd with sched := false }).pollReturns cfg c work)
      else
        some ((s.modify c fun sd => { sd with
          processQueue := sd.processQueue ++ sd.inputPktQueue
          inputPktQueue := [] }).goto c (.dequeue work))
  | .flushProcess unregistering =>
      let gone := (s.sd c).processQueue.filter fun x => unregistering x.skb
      some { (s.modify c fun sd => { sd with
          processQueue := sd.processQueue.filter fun x => !unregistering x.skb
          inputQueueHead := sd.inputQueueHead + BitVec.ofNat 32 gone.length }).goto c .idle with
        flushed := s.flushed ++ gone.map fun x => (c, x) }

/-- `flush_backlog` up to the release of the lock. -/
def flush (c : Fin n) (unregistering : Skb → Bool) : Backlogs n Skb R :=
  let gone := (s.sd c).inputPktQueue.filter fun x => unregistering x.skb
  { (s.modify c fun sd => { sd with
      inputPktQueue := sd.inputPktQueue.filter fun x => !unregistering x.skb
      inputQueueHead := sd.inputQueueHead + BitVec.ofNat 32 gone.length }).goto c
        (.flushProcess unregistering) with
    flushed := s.flushed ++ gone.map fun x => (c, x) }

/-- The three splices at the end of `net_rx_action`, and `net_rps_action_and_irq_enable`. -/
def splice (c : Fin n) (others : Bool) : Backlogs n Skb R :=
  let raised := s.raised c || others || !(s.sd c).linked.isEmpty
  let pc : NetRxPc n Skb R :=
    if (s.sd c).rpsIpiList = [] then .idle else .sendIpi (s.sd c).rpsIpiList false
  { (s.modify c fun sd => { sd with
      linked := sd.linked.map fun _ => .pollList
      rpsIpiList := [] }).goto c pc with
    raised := Function.update s.raised c raised }

end Softirq

/-! ## The step -/

def step [DecidableEq R] (cfg : RpsConfig n Skb R) (s : Backlogs n Skb R) :
    BacklogEvent n Skb R → Option (Backlogs n Skb R)
  | .steer r skb ident map =>
      match s.rx r with
      | .enqueue _ _ => none
      | .idle =>
          match s.getRpsCpu cfg r skb ident map with
          | (none, _, flows) => some { s with flows := flows }
          | (some cpu, rflow, flows) =>
              some { s with
                flows := flows
                rx := Function.update s.rx r (.enqueue ⟨skb, rflow⟩ cpu) }
  | .enqueue r here running =>
      match s.rx r with
      | .idle => none
      | .enqueue x cpu =>
          some { s.enqueueToBacklog cfg here cpu x running with
            rx := Function.update s.rx r .idle }
  | .netifRx here cpu skb running =>
      if cfg.online cpu then some (s.enqueueToBacklog cfg here cpu ⟨skb, none⟩ running) else none
  | .ipi c =>
      if s.ipi c then
        let s := (s.napiSchedule c).modify c fun sd => { sd with receivedRps := sd.receivedRps + 1 }
        some { s with ipi := Function.update s.ipi c false }
      else none
  | .raise c => some (s.raiseNetRx c)
  | .softirq c =>
      match s.netRx c with
      | .idle =>
          -- The two lists of the function are its own, and empty when it begins.
          if s.raised c then
            let s := s.modify c fun sd => { sd with linked := sd.linked.map fun _ => .list }
            some { s.goto c .loop with raised := Function.update s.raised c false }
          else none
      | _ => none
  | .poll c =>
      match s.netRx c with
      | .loop =>
          if NapiList.list ∈ (s.sd c).linked then
            some ((s.modify c fun sd => { sd with linked := sd.linked.erase .list }).goto c
              (if (s.sd c).sched then .processBacklog else .loop))
          else none
      | _ => none
  | .netRx c => s.netRxStep cfg c
  | .splice c others =>
      match s.netRx c with
      | .loop => some (s.splice c others)
      | _ => none
  | .leave c =>
      match s.netRx c with
      | .loop =>
          if (s.sd c).rpsIpiList = [] ∧ .list ∉ (s.sd c).linked ∧ .repoll ∉ (s.sd c).linked then
            some (s.goto c .idle)
          else none
      | _ => none
  | .flush c unregistering =>
      match s.netRx c with
      | .idle => some (s.flush c unregistering)
      | _ => none

end Backlogs

end CrosRt
