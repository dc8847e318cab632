import CrosRt.Driver.ReceiveAccounting
import CrosRt.Driver.RtService

/-! # Routing by the Message Selector

`rtl_rx` extracts the destination port of every frame, but the branch that looks up its priority and
fills the priority queues is commented out: the registry and the queues are not among what a pass
touches. A frame of a registered port therefore goes to `napi_gro_receive` like any other, and the
selection is as intended exactly for ports without a real-time priority.
-/

namespace CrosRt
set_option autoImplicit false

structure NetDriver (hash : ℤ → Fin 256) where
  service : RtService hash Skb
  rx : Receiver

namespace NetDriver

variable {hash : ℤ → Fin 256}

def rtlRx (s : NetDriver hash) (cfg : RxConfig) (alloc : ℕ → Option RxBuffer) (budget : ℤ) :
    NetDriver hash :=
  { s with rx := (CrosRt.rtlRx cfg alloc budget s.rx).2 }

def nextDesc (s : NetDriver hash) : RxDesc := s.rx.rxDescArray (rxEntry s.rx.curRx)
def nextBuf (s : NetDriver hash) : RxBuffer := s.rx.rxDatabuff (rxEntry s.rx.curRx)

def portPriority (s : NetDriver hash) (port : BitVec 16) : ℤ :=
  s.service.registry.getPortPriority port.toNat

end NetDriver

/-- A descriptor the hardware has given back with a whole error-free frame, which is an unfragmented
UDP datagram over IPv4 with a header of 20 bytes, for destination port `port`. -/
structure UdpFrame (cfg : RxConfig) (desc : RxDesc) (rxBuf : RxBuffer) (port : BitVec 16) :
    Prop where
  ready : hasBits desc.opts1 descOwn = false
  noError : hasBits desc.opts1 rxRES = false
  whole : fragmentedFrame desc.opts1 = false
  size : 42 ≤ (pktSize cfg desc.opts1).toNat
  etherType : rxBuf 12 ++ rxBuf 13 = 0x0800#16
  versionIhl : rxBuf 14 = 0x45#8
  unfragmented : (rxBuf 20 ++ rxBuf 21) &&& 0x3FFF#16 = 0#16
  protocol : rxBuf 23 = 17#8
  dest : rxBuf 36 ++ rxBuf 37 = port

/-- `eth_type_trans` pulls the Ethernet header off every frame that has one. -/
def PullsEthHeader (cfg : RxConfig) : Prop :=
  ∀ data len, 14 ≤ BitVec.toNat len → (cfg.ethTypeTrans data len).pulled = 14

/-- The routing of one frame of a port with priority `p`: from 1 to 99 its buffer is appended to the
queue of `p` and `highest_pri` becomes the maximum, otherwise the buffer goes to
`napi_gro_receive`, and nothing else changes. -/
structure Routed {hash : ℤ → Fin 256} (s t : NetDriver hash) (skb : Skb) (p : ℤ) : Prop where
  realTime : 1 ≤ p ∧ p ≤ 99 →
    t.service.pq.cell p = s.service.pq.cell p ++ [⟨p, skb⟩] ∧
      (∀ q, q ≠ p → t.service.pq.cell q = s.service.pq.cell q) ∧
      t.service.highestPri = max s.service.highestPri p ∧
      t.rx.groReceived = s.rx.groReceived
  other : ¬ (1 ≤ p ∧ p ≤ 99) →
    t.rx.groReceived = s.rx.groReceived ++ [skb] ∧
      ∀ q, t.service.pq.cell q = s.service.pq.cell q
  nonRt : t.rx.nonRt = s.rx.nonRt

/-! ## One frame -/

theorem rtlRx_one (cfg : RxConfig) (alloc : ℕ → Option RxBuffer) (tp : Receiver)
    (hready : hasBits (tp.rxDescArray (rxEntry tp.curRx)).opts1 descOwn = false) :
    (rtlRx cfg alloc 1 tp).2.nonRt = (rxRound cfg alloc 0 tp).nonRt ∧
      (rtlRx cfg alloc 1 tp).2.groReceived = (rxRound cfg alloc 0 tp).groReceived := by
  have hloop : rxLoop cfg alloc (1 : ℤ).toNat 0 tp = (1, rxRound cfg alloc 0 tp) := by
    change rxLoop cfg alloc (0 + 1) 0 tp = _
    rw [rxLoop_succ, if_neg (by simp [hready])]
    rfl
  unfold rtlRx
  rw [hloop]
  exact ⟨rfl, rfl⟩

theorem udpDest_rxSkb {cfg : RxConfig} {desc : RxDesc} {rxBuf : RxBuffer} {port : BitVec 16}
    (hpull : PullsEthHeader cfg) (hframe : UdpFrame cfg desc rxBuf port) (room : RxBuffer) :
    udpDest cfg (rxSkb cfg desc rxBuf room) = port := by
  have hsize := hframe.size
  have hlen : (rxSkb cfg desc rxBuf room).len = pktSize cfg desc.opts1 := rfl
  have hpulled : (cfg.ethTypeTrans (rxSkb cfg desc rxBuf room).data
      (rxSkb cfg desc rxBuf room).len).pulled = 14 := hpull _ _ (by rw [hlen]; omega)
  have hbyte : ∀ i, i < 42 → (rxSkb cfg desc rxBuf room).data i = rxBuf i := by
    intro i hi
    exact if_pos (by omega)
  simp only [udpDest]
  rw [hpulled, hbyte 36 (by omega), hbyte 37 (by omega), hframe.dest]

theorem rxOutcome_udpFrame {cfg : RxConfig} {desc : RxDesc} {rxBuf : RxBuffer} {port : BitVec 16}
    (hpull : PullsEthHeader cfg) (hframe : UdpFrame cfg desc rxBuf port) (hport : port ≠ 7778)
    (room : Option RxBuffer) :
    rxOutcome cfg desc rxBuf room =
      match room with
      | none => .dropped
      | some room => .gro (rxSkb cfg desc rxBuf room) := by
  unfold rxOutcome
  simp only [hframe.noError, hframe.whole, Bool.false_and, Bool.false_eq_true, if_false]
  cases room with
  | none => rfl
  | some room =>
    simp only [rxSelection]
    rw [udpDest_rxSkb hpull hframe, if_neg fun h => hport h.2]

/-- A pass over one such frame gives it to `napi_gro_receive` if there is memory for it, and touches
no queue. -/
theorem rtlRx_udpFrame {hash : ℤ → Fin 256} (s : NetDriver hash) {cfg : RxConfig}
    {port : BitVec 16} (hpull : PullsEthHeader cfg)
    (hframe : UdpFrame cfg s.nextDesc s.nextBuf port) (hport : port ≠ 7778)
    (alloc : ℕ → Option RxBuffer) :
    (s.rtlRx cfg alloc 1).service = s.service ∧
      (s.rtlRx cfg alloc 1).rx.nonRt = s.rx.nonRt ∧
      (s.rtlRx cfg alloc 1).rx.groReceived = s.rx.groReceived ++
        ((alloc 0).map fun room => rxSkb cfg s.nextDesc s.nextBuf room).toList := by
  obtain ⟨hnonRt, hgro⟩ := rtlRx_one cfg alloc s.rx hframe.ready
  obtain ⟨_, _, _, hround, hround'⟩ := rxRound_spec cfg alloc 0 s.rx
  have hzero : s.rx.curRx + BitVec.ofNat 32 0 = s.rx.curRx := by simp
  have houtcome : rxOutcomeAt cfg alloc 0 s.rx 0 =
      match alloc 0 with
      | none => .dropped
      | some room => .gro (rxSkb cfg s.nextDesc s.nextBuf room) := by
    simp only [rxOutcomeAt, hzero, Nat.add_zero]
    exact rxOutcome_udpFrame hpull hframe hport (alloc 0)
  refine ⟨rfl, ?_, ?_⟩
  · change (rtlRx cfg alloc 1 s.rx).2.nonRt = s.rx.nonRt
    rw [hnonRt, hround, houtcome]
    cases alloc 0 <;> simp [RxOutcome.toNonRt]
  · change (rtlRx cfg alloc 1 s.rx).2.groReceived = _
    rw [hgro, hround', houtcome]
    cases alloc 0 <;> rfl

theorem not_routed_of_priority {hash : ℤ → Fin 256} (s : NetDriver hash) (cfg : RxConfig)
    (alloc : ℕ → Option RxBuffer) (budget : ℤ) {p : ℤ} (hp : 1 ≤ p ∧ p ≤ 99) (skb : Skb) :
    ¬ Routed s (s.rtlRx cfg alloc budget) skb p := by
  intro h
  have hqueue : s.service.pq.cell p = s.service.pq.cell p ++ [⟨p, skb⟩] := (h.realTime hp).1
  exact absurd hqueue (by simp)

/-- **When the selection is as intended.** A pass over one UDP frame for a port other than 7778
routes its buffer by the priority of the port if and only if there is memory for the buffer and the
port has no priority in `1 .. 99`. -/
theorem routed_iff {hash : ℤ → Fin 256} (s : NetDriver hash) {cfg : RxConfig}
    (hpull : PullsEthHeader cfg) (alloc : ℕ → Option RxBuffer)
    {port : BitVec 16} (hframe : UdpFrame cfg s.nextDesc s.nextBuf port) (hport : port ≠ 7778) :
    (∃ room, alloc 0 = some room ∧
        Routed s (s.rtlRx cfg alloc 1) (rxSkb cfg s.nextDesc s.nextBuf room)
          (s.portPriority port)) ↔
      (alloc 0).isSome ∧ ¬ (1 ≤ s.portPriority port ∧ s.portPriority port ≤ 99) := by
  constructor
  · rintro ⟨room, hroom, hrouted⟩
    refine ⟨by rw [hroom]; rfl, fun hp => ?_⟩
    exact not_routed_of_priority s cfg alloc 1 hp _ hrouted
  · rintro ⟨hsome, hp⟩
    obtain ⟨room, hroom⟩ := Option.isSome_iff_exists.mp hsome
    obtain ⟨hservice, hnonRt, hgro⟩ := rtlRx_udpFrame s hpull hframe hport alloc
    refine ⟨room, hroom, fun hp' => absurd hp' hp, fun _ => ⟨?_, fun q => ?_⟩, hnonRt⟩
    · rw [hgro, hroom]
      rfl
    · rw [hservice]

/-- A frame of 60 bytes to port 7411 in a ring of one kind of descriptor, the handlers on. -/
def udpFrame7411 : RxBuffer := fun i =>
  if i = 12 then 0x08 else if i = 14 then 0x45 else if i = 23 then 17
  else if i = 36 then 0x1C else if i = 37 then 0xF3 else 0

def rxConfigOn : RxConfig := ⟨true, false, false, fun _ _ => ⟨14, false, 0x0800⟩⟩

def rxDesc7411 : RxDesc := ⟨firstFrag ||| lastFrag ||| 64, 0⟩

def driver7411 (service : RtService Kernel.hashMin Skb) : NetDriver Kernel.hashMin where
  service := service
  rx := ⟨fun _ => rxDesc7411, fun _ => udpFrame7411, 0, [], [], .interruptible,
    ⟨0, 0, 0, 0, 0, 0, 0⟩, 0⟩

theorem udpFrame_7411 : UdpFrame rxConfigOn rxDesc7411 udpFrame7411 7411 :=
  ⟨by decide, by decide, by decide, by decide, by decide, by decide, by decide, by decide,
    by decide⟩

theorem routed_iff_unregistered :
    ∃ room, some (fun _ => 0) = some room ∧
      Routed (driver7411 .init) ((driver7411 .init).rtlRx rxConfigOn (fun _ => some fun _ => 0) 1)
        (rxSkb rxConfigOn (driver7411 .init).nextDesc (driver7411 .init).nextBuf room)
        ((driver7411 .init).portPriority 7411) :=
  (routed_iff (driver7411 .init) (fun _ _ _ => rfl) (fun _ => some fun _ => 0)
    udpFrame_7411 (by decide)).mpr ⟨rfl, by decide⟩

theorem not_routed_registered :
    ∃ service : RtService Kernel.hashMin Skb,
      RtService.step .init (.setPort true 50 7411) = some service ∧
      UdpFrame rxConfigOn (driver7411 service).nextDesc (driver7411 service).nextBuf 7411 ∧
      (driver7411 service).portPriority 7411 = 50 ∧
      ∀ skb, ¬ Routed (driver7411 service)
        ((driver7411 service).rtlRx rxConfigOn (fun _ => some fun _ => 0) 1) skb 50 :=
  ⟨_, rfl, udpFrame_7411, by decide,
    not_routed_of_priority _ rxConfigOn _ 1 (by decide)⟩

end CrosRt
