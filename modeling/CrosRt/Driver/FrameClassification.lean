import CrosRt.Driver.MessageSelector

/-! # Which frames are diverted

While the handlers are on, `rtl_rx` diverts every frame that has 7778 in two bytes at a fixed place:
22 bytes behind the Ethernet header. Whether these bytes are the destination port of a UDP datagram
depends on fields that `rtl_rx` does not look at. Beside it stands a reading of the frame that looks
at all of them: EtherType, version, header length, protocol, fragment offset and frame length. The
two agree on a frame exactly under `ReadsTruePort`, and a pass puts all its frames where they belong
exactly when they agree on each.
-/

namespace CrosRt
set_option autoImplicit false

/-! ## The headers of a frame -/

/-- The 16-bit field at an offset, in network byte order. -/
def be16 (data : RxBuffer) (i : ℕ) : BitVec 16 := data i ++ data (i + 1)

/-- The IHL field: words of the IP header. -/
def ipHeaderWords (data : RxBuffer) : ℕ := (data 14 &&& 0xF#8).toNat

/-- A frame of `len` bytes with the first or only fragment of a UDP datagram over IPv4, long enough
for both headers. -/
structure CarriesUdp (data : RxBuffer) (len : ℕ) : Prop where
  etherType : be16 data 12 = 0x0800#16
  version : data 14 >>> 4 = 4#8
  headerLength : 5 ≤ ipHeaderWords data
  protocol : data 23 = 17#8
  firstFragment : be16 data 20 &&& 0x1FFF#16 = 0#16
  bothHeaders : 14 + 4 * ipHeaderWords data + 8 ≤ len

theorem carriesUdp_iff {data : RxBuffer} {len : ℕ} :
    CarriesUdp data len ↔ be16 data 12 = 0x0800#16 ∧ data 14 >>> 4 = 4#8 ∧
      5 ≤ ipHeaderWords data ∧ data 23 = 17#8 ∧ be16 data 20 &&& 0x1FFF#16 = 0#16 ∧
      14 + 4 * ipHeaderWords data + 8 ≤ len :=
  ⟨fun h => ⟨h.1, h.2, h.3, h.4, h.5, h.6⟩, fun ⟨h₁, h₂, h₃, h₄, h₅, h₆⟩ => ⟨h₁, h₂, h₃, h₄, h₅, h₆⟩⟩

instance (data : RxBuffer) (len : ℕ) : Decidable (CarriesUdp data len) :=
  decidable_of_iff _ carriesUdp_iff.symm

/-- The destination port behind an IP header of the length that the frame states. -/
def destPort (data : RxBuffer) : BitVec 16 := be16 data (14 + 4 * ipHeaderWords data + 2)

def ForPort7778 (skb : Skb) : Prop :=
  CarriesUdp skb.data skb.len.toNat ∧ destPort skb.data = 7778

instance : DecidablePred ForPort7778 := fun _ => inferInstanceAs (Decidable (_ ∧ _))

/-- The fixed place holds 7778 where the destination port is 7778, and nowhere else: in a UDP
datagram with a longer IP header the place is among the IP options, and in other frames anything,
behind a short frame even what the memory of the buffer held before. -/
structure ReadsTruePort (cfg : RxConfig) (skb : Skb) : Prop where
  udp : CarriesUdp skb.data skb.len.toNat →
    ipHeaderWords skb.data = 5 ∨ (be16 skb.data 36 = 7778 ↔ destPort skb.data = 7778)
  other : ¬ CarriesUdp skb.data skb.len.toNat →
    be16 skb.data ((cfg.ethTypeTrans skb.data skb.len).pulled + 22) ≠ 7778

theorem udpDest_eq (cfg : RxConfig) (skb : Skb) :
    udpDest cfg skb = be16 skb.data ((cfg.ethTypeTrans skb.data skb.len).pulled + 22) := rfl

theorem udpDest_of_carriesUdp {cfg : RxConfig} (hpull : PullsEthHeader cfg) {skb : Skb}
    (h : CarriesUdp skb.data skb.len.toNat) : udpDest cfg skb = be16 skb.data 36 := by
  have hlen : 14 ≤ skb.len.toNat := by
    have := h.bothHeaders
    omega
  rw [udpDest_eq, hpull _ _ hlen]

theorem selected_iff_forPort7778 {cfg : RxConfig} (hpull : PullsEthHeader cfg) (skb : Skb) :
    (udpDest cfg skb = 7778 ↔ ForPort7778 skb) ↔ ReadsTruePort cfg skb := by
  by_cases hudp : CarriesUdp skb.data skb.len.toNat
  · rw [udpDest_of_carriesUdp hpull hudp, ForPort7778, and_iff_right hudp]
    constructor
    · intro h
      exact ⟨fun _ => Or.inr h, fun hnot => absurd hudp hnot⟩
    · intro h
      rcases h.udp hudp with hwords | hagree
      · have hdest : destPort skb.data = be16 skb.data 36 := by rw [destPort, hwords]
        rw [hdest]
      · exact hagree
  · have hnot : ¬ ForPort7778 skb := fun h => hudp h.1
    rw [iff_false_right hnot, udpDest_eq]
    exact ⟨fun h => ⟨fun hyes => absurd hyes hudp, fun _ => h⟩, fun h => h.other hudp⟩

/-! ## The frames of a pass -/

/-- The socket buffer of a successfully received frame. -/
def rxReceived (cfg : RxConfig) (desc : RxDesc) (rxBuf : RxBuffer) (room : Option RxBuffer) :
    Option Skb :=
  if hasBits desc.opts1 rxRES && releasedOnError cfg desc.opts1 then none
  else if fragmentedFrame desc.opts1 then none
  else room.map (rxSkb cfg desc rxBuf)

/-- The frames received in the first `n` rounds of a pass, in ring order. -/
def received (cfg : RxConfig) (alloc : ℕ → Option RxBuffer) (tp : Receiver) (n : ℕ) : List Skb :=
  (List.range n).filterMap fun k =>
    let entry := rxEntry (tp.curRx + BitVec.ofNat 32 k)
    rxReceived cfg (tp.rxDescArray entry) (tp.rxDatabuff entry) (alloc k)

theorem rxOutcome_eq (cfg : RxConfig) (desc : RxDesc) (rxBuf : RxBuffer)
    (room : Option RxBuffer) :
    rxOutcome cfg desc rxBuf room =
      match rxReceived cfg desc rxBuf room with
      | none => .dropped
      | some skb => rxSelection cfg skb := by
  unfold rxOutcome rxReceived
  split_ifs
  · rfl
  · rfl
  · cases room <;> rfl

theorem rxSelection_on {cfg : RxConfig} (hon : cfg.krtdOn = true) (skb : Skb) :
    rxSelection cfg skb = if udpDest cfg skb = 7778 then .nonRt skb else .gro skb := by
  simp only [rxSelection, hon, true_and]

theorem rxOutcome_toNonRt {cfg : RxConfig} (hon : cfg.krtdOn = true) (desc : RxDesc)
    (rxBuf : RxBuffer) (room : Option RxBuffer) :
    (rxOutcome cfg desc rxBuf room).toNonRt =
      (rxReceived cfg desc rxBuf room).filter fun skb => decide (udpDest cfg skb = 7778) := by
  rw [rxOutcome_eq]
  cases rxReceived cfg desc rxBuf room with
  | none => rfl
  | some skb =>
    simp only [rxSelection_on hon, Option.filter_some]
    by_cases hport : udpDest cfg skb = 7778
    · rw [if_pos hport, if_pos (decide_eq_true hport)]
      rfl
    · rw [if_neg hport, if_neg (by simpa using hport)]
      rfl

theorem rxOutcome_toGro {cfg : RxConfig} (hon : cfg.krtdOn = true) (desc : RxDesc)
    (rxBuf : RxBuffer) (room : Option RxBuffer) :
    (rxOutcome cfg desc rxBuf room).toGro =
      (rxReceived cfg desc rxBuf room).filter fun skb => !decide (udpDest cfg skb = 7778) := by
  rw [rxOutcome_eq]
  cases rxReceived cfg desc rxBuf room with
  | none => rfl
  | some skb =>
    simp only [rxSelection_on hon, Option.filter_some]
    by_cases hport : udpDest cfg skb = 7778
    · rw [if_pos hport, if_neg (by simpa using hport)]
      rfl
    · rw [if_neg hport, if_pos (by simpa using hport)]
      rfl

/-- A pass splits what it has received by the port it reads. -/
theorem rtlRx_splits {cfg : RxConfig} (hon : cfg.krtdOn = true) (alloc : ℕ → Option RxBuffer)
    (budget : ℤ) (tp : Receiver) :
    (rtlRx cfg alloc budget tp).2.nonRt = tp.nonRt ++
        (received cfg alloc tp (rtlRx cfg alloc budget tp).1).filter
          (fun skb => decide (udpDest cfg skb = 7778)) ∧
      (rtlRx cfg alloc budget tp).2.groReceived = tp.groReceived ++
        (received cfg alloc tp (rtlRx cfg alloc budget tp).1).filter
          (fun skb => !decide (udpDest cfg skb = 7778)) := by
  have hpass := (rtlRx_spec cfg alloc budget tp).pass
  rw [hpass.nonRt, hpass.gro, received, List.filter_filterMap, List.filter_filterMap]
  simp only [rxOutcomeAt, Nat.zero_add, rxOutcome_toNonRt hon, rxOutcome_toGro hon, and_self]

/-! ## Right and wrong places -/

theorem filter_eq_filter_iff {A : Type*} {p q : A → Bool} {xs : List A} :
    xs.filter p = xs.filter q ↔ ∀ x ∈ xs, p x = q x := by
  constructor
  · intro h x hx
    have hp : x ∈ xs.filter p ↔ x ∈ xs.filter q := by rw [h]
    rw [List.mem_filter, List.mem_filter, and_iff_right hx, and_iff_right hx] at hp
    exact Bool.eq_iff_iff.mpr hp
  · exact List.filter_congr

/-- Every frame of a pass that is meant for the non-real-time queue is there, and every other frame
has gone to `napi_gro_receive`, each in the order received. -/
structure Classified (cfg : RxConfig) (alloc : ℕ → Option RxBuffer) (budget : ℤ) (tp : Receiver) :
    Prop where
  nonRt : (rtlRx cfg alloc budget tp).2.nonRt = tp.nonRt ++
    (received cfg alloc tp (rtlRx cfg alloc budget tp).1).filter fun skb => decide (ForPort7778 skb)
  gro : (rtlRx cfg alloc budget tp).2.groReceived = tp.groReceived ++
    (received cfg alloc tp (rtlRx cfg alloc budget tp).1).filter
      fun skb => !decide (ForPort7778 skb)

/-- **When the right frames are diverted.** A pass classifies all its frames as their headers do if
and only if for each of them the place that `rtl_rx` looks at holds 7778 just when the destination
port of a UDP datagram is 7778. -/
theorem classified_iff {cfg : RxConfig} (hon : cfg.krtdOn = true) (hpull : PullsEthHeader cfg)
    (alloc : ℕ → Option RxBuffer) (budget : ℤ) (tp : Receiver) :
    Classified cfg alloc budget tp ↔
      ∀ skb ∈ received cfg alloc tp (rtlRx cfg alloc budget tp).1, ReadsTruePort cfg skb := by
  obtain ⟨hnonRt, hgro⟩ := rtlRx_splits hon alloc budget tp
  have hagree : ∀ skb, decide (udpDest cfg skb = 7778) = decide (ForPort7778 skb) ↔
      ReadsTruePort cfg skb := by
    intro skb
    rw [decide_eq_decide]
    exact selected_iff_forPort7778 hpull skb
  constructor
  · intro h skb hskb
    have hfilter := h.nonRt
    rw [hnonRt, List.append_cancel_left_eq, filter_eq_filter_iff] at hfilter
    exact (hagree skb).mp (hfilter skb hskb)
  · intro h
    refine ⟨?_, ?_⟩
    · rw [hnonRt, List.append_cancel_left_eq, filter_eq_filter_iff]
      exact fun skb hskb => (hagree skb).mpr (h skb hskb)
    · rw [hgro, List.append_cancel_left_eq, filter_eq_filter_iff]
      intro skb hskb
      rw [(hagree skb).mpr (h skb hskb)]

/-- A frame of 60 bytes with an IP header of 20 bytes and 7778 behind its first word. -/
def frame7778 (protocol : BitVec 8) : RxBuffer := fun i =>
  if i = 12 then 0x08 else if i = 14 then 0x45 else if i = 23 then protocol
  else if i = 36 then 0x1E else if i = 37 then 0x62 else 0

def receiver7778 (protocol : BitVec 8) : Receiver :=
  ⟨fun _ => rxDesc7411, fun _ => frame7778 protocol, 0, [], [], .interruptible,
    ⟨0, 0, 0, 0, 0, 0, 0⟩, 0⟩

theorem classified_iff_udp :
    Classified rxConfigOn (fun _ => some fun _ => 0) 1 (receiver7778 17) := by
  refine (classified_iff rfl (fun _ _ _ => rfl) _ 1 (receiver7778 17)).mpr ?_
  intro skb hskb
  obtain rfl : skb = rxSkb rxConfigOn rxDesc7411 (frame7778 17) fun _ => 0 :=
    List.mem_singleton.mp hskb
  exact ⟨fun _ => Or.inl (by decide), fun hnot => absurd (by decide) hnot⟩

theorem tcp_diverted :
    ¬ CarriesUdp (frame7778 6) 60 ∧
      (rtlRx rxConfigOn (fun _ => some fun _ => 0) 1 (receiver7778 6)).2.nonRt =
        [rxSkb rxConfigOn rxDesc7411 (frame7778 6) fun _ => 0] ∧
      ¬ ForPort7778 (rxSkb rxConfigOn rxDesc7411 (frame7778 6) fun _ => 0) ∧
      ¬ Classified rxConfigOn (fun _ => some fun _ => 0) 1 (receiver7778 6) := by
  have hnonRt : (rtlRx rxConfigOn (fun _ => some fun _ => 0) 1 (receiver7778 6)).2.nonRt =
      [rxSkb rxConfigOn rxDesc7411 (frame7778 6) fun _ => 0] := rfl
  have hnot : ¬ ForPort7778 (rxSkb rxConfigOn rxDesc7411 (frame7778 6) fun _ => 0) := by decide
  refine ⟨by decide, hnonRt, hnot, fun h => ?_⟩
  have hfor : rxSkb rxConfigOn rxDesc7411 (frame7778 6) (fun _ => 0) ∈
      (received rxConfigOn (fun _ => some fun _ => 0) (receiver7778 6)
        (rtlRx rxConfigOn (fun _ => some fun _ => 0) 1 (receiver7778 6)).1).filter
          fun skb => decide (ForPort7778 skb) := by
    have hlist := h.nonRt
    rw [hnonRt] at hlist
    have hmem : rxSkb rxConfigOn rxDesc7411 (frame7778 6) (fun _ => 0) ∈
        [rxSkb rxConfigOn rxDesc7411 (frame7778 6) fun _ => 0] := List.mem_singleton_self _
    rw [hlist] at hmem
    exact hmem
  exact hnot (of_decide_eq_true (List.mem_filter.mp hfor).2)

end CrosRt
