import Mathlib.Data.Nat.ModEq
import Mathlib.Data.List.Range
import CrosRt.Driver.NonRtQueue
import CrosRt.Kernel.Primitives

/-! # The receive path

`rtl_rx` of `r8169_main.c` over a ring of 256 descriptors. A descriptor the hardware has given back
becomes nothing, or a socket buffer that goes to `napi_gro_receive` or, for UDP port 7778 while the
handlers are on, to the non-real-time queue; then it is returned to the hardware.

`eth_type_trans` is not part of the sources: what it decides about a frame is a parameter. The
memory that `napi_alloc_skb` returns is not cleared, so a port read past the end of a short frame is
whatever lay there.
-/

namespace CrosRt
set_option autoImplicit false

open Kernel

/-- `struct RxDesc` without its DMA address. -/
structure RxDesc where
  opts1 : BitVec 32
  opts2 : BitVec 32
  deriving DecidableEq, Repr

abbrev RxBuffer := ℕ → BitVec 8

/-- The parts of a `struct sk_buff` that `rtl_rx` sets; `data` starts at the MAC header. -/
structure Skb where
  len : BitVec 32
  data : RxBuffer
  checksumUnnecessary : Bool
  protocol : BitVec 16
  vlanTag : Option (BitVec 16)

/-- The outcome of `eth_type_trans`: bytes pulled, whether `pkt_type` is `PACKET_MULTICAST`, and
the protocol returned. -/
structure EthType where
  pulled : ℕ
  multicast : Bool
  protocol : BitVec 16

/-- What a pass of `rtl_rx` does not change: `krtd_on`, two feature flags of the device, and
`eth_type_trans` as a function of the bytes and their number. -/
structure RxConfig where
  krtdOn : Bool
  rxAll : Bool
  rxFcs : Bool
  ethTypeTrans : RxBuffer → BitVec 32 → EthType

/-- The counters of `dev->stats` and of the per-CPU statistics that `rtl_rx` moves. -/
structure RxStats where
  rxErrors : ℕ
  rxLengthErrors : ℕ
  rxCrcErrors : ℕ
  rxDropped : ℕ
  multicast : ℕ
  rxPackets : ℕ
  rxBytes : ℕ
  deriving DecidableEq, Repr

/-- The receive side of `struct rtl8169_private`, the state of `knonrtd`, and the buffers `rtl_rx`
has handed to `napi_gro_receive`, in order. -/
structure Receiver where
  rxDescArray : Fin 256 → RxDesc
  rxDatabuff : Fin 256 → RxBuffer
  curRx : BitVec 32
  nonRt : List Skb
  groReceived : List Skb
  knonrtd : TaskState
  stats : RxStats
  aspmPacketCount : ℤ

/-! ## Descriptor bits -/

def descOwn : BitVec 32 := 1 <<< 31
def ringEnd : BitVec 32 := 1 <<< 30
def firstFrag : BitVec 32 := 1 <<< 29
def lastFrag : BitVec 32 := 1 <<< 28
def rxRWT : BitVec 32 := 1 <<< 22
def rxRES : BitVec 32 := 1 <<< 21
def rxRUNT : BitVec 32 := 1 <<< 20
def rxCRC : BitVec 32 := 1 <<< 19
def rxProtoUDP : BitVec 32 := 1 <<< 18
def rxProtoTCP : BitVec 32 := 1 <<< 17
def rxCSFailMask : BitVec 32 := 1 <<< 16 ||| 1 <<< 15 ||| 1 <<< 14
def rxVlanTag : BitVec 32 := 1 <<< 16

def r8169RxBufSize : BitVec 32 := 0x3FFF

def hasBits (status mask : BitVec 32) : Bool := status &&& mask != 0

def rtl8169MarkToAsic (desc : RxDesc) : RxDesc where
  opts1 := descOwn ||| (desc.opts1 &&& ringEnd) ||| r8169RxBufSize
  opts2 := 0

def fragmentedFrame (status : BitVec 32) : Bool :=
  status &&& (firstFrag ||| lastFrag) != firstFrag ||| lastFrag

/-- `rtl8169_rx_csum`: whether the hardware has checked the checksum. -/
def rxCsum (opts1 : BitVec 32) : Bool :=
  let status := opts1 &&& (rxProtoUDP ||| rxProtoTCP ||| rxCSFailMask)
  status == rxProtoTCP || status == rxProtoUDP

def swab16 (x : BitVec 16) : BitVec 16 := x.extractLsb' 0 8 ++ x.extractLsb' 8 8

def rxVlanTagOf (opts2 : BitVec 32) : Option (BitVec 16) :=
  if hasBits opts2 rxVlanTag then some (swab16 (opts2.extractLsb' 0 16)) else none

/-- `tp->cur_rx % NUM_RX_DESC`. -/
def rxEntry (curRx : BitVec 32) : Fin 256 := ⟨curRx.toNat % 256, Nat.mod_lt _ (by decide)⟩

/-! ## One frame -/

def countRxError (status : BitVec 32) (stats : RxStats) : RxStats :=
  { stats with
    rxErrors := stats.rxErrors + 1
    rxLengthErrors := stats.rxLengthErrors + if hasBits status (rxRWT ||| rxRUNT) then 1 else 0
    rxCrcErrors := stats.rxCrcErrors + if hasBits status rxCRC then 1 else 0 }

/-- The frame of an erroneous descriptor is given up, unless the device takes all frames and the
error is only a runt or a wrong CRC. -/
def releasedOnError (cfg : RxConfig) (status : BitVec 32) : Bool :=
  !cfg.rxAll || hasBits status rxRWT || !hasBits status (rxRUNT ||| rxCRC)

/-- `pkt_size`, in `unsigned int`. -/
def pktSize (cfg : RxConfig) (status : BitVec 32) : BitVec 32 :=
  let size := status &&& r8169RxBufSize
  if cfg.rxFcs then size else size - 4

/-- The socket buffer for a descriptor, in memory that held `room` before. -/
def rxSkb (cfg : RxConfig) (desc : RxDesc) (rxBuf room : RxBuffer) : Skb :=
  let size := pktSize cfg desc.opts1
  let data : RxBuffer := fun i => if i < size.toNat then rxBuf i else room i
  { len := size
    data := data
    checksumUnnecessary := rxCsum desc.opts1
    protocol := (cfg.ethTypeTrans data size).protocol
    vlanTag := rxVlanTagOf desc.opts2 }

/-- `ntohs(uh->dest)` behind an IP header of 20 bytes. -/
def udpDest (cfg : RxConfig) (skb : Skb) : BitVec 16 :=
  let transport := (cfg.ethTypeTrans skb.data skb.len).pulled + 20
  skb.data (transport + 2) ++ skb.data (transport + 3)

def rxSelect (cfg : RxConfig) (tp : Receiver) (skb : Skb) : Receiver :=
  if cfg.krtdOn then
    if udpDest cfg skb = 7778 then
      { tp with
        nonRt := skbQueueTail tp.nonRt skb
        knonrtd := wakeIfNotRunning tp.knonrtd }
    else { tp with groReceived := tp.groReceived ++ [skb] }
  else { tp with groReceived := tp.groReceived ++ [skb] }

def countRxFrame (cfg : RxConfig) (skb : Skb) (stats : RxStats) : RxStats :=
  { stats with
    multicast :=
      stats.multicast + if (cfg.ethTypeTrans skb.data skb.len).multicast then 1 else 0
    rxPackets := stats.rxPackets + 1
    rxBytes := stats.rxBytes + skb.len.toNat }

/-- The loop body from the error check to `release_descriptor`; `room` is what `napi_alloc_skb`
returns. -/
def rxFrame (cfg : RxConfig) (tp : Receiver) (desc : RxDesc) (rxBuf : RxBuffer)
    (room : Option RxBuffer) : Receiver :=
  let status := desc.opts1
  let stats := if hasBits status rxRES then countRxError status tp.stats else tp.stats
  if hasBits status rxRES && releasedOnError cfg status then { tp with stats := stats }
  else if fragmentedFrame status then
    { tp with stats := { stats with
        rxDropped := stats.rxDropped + 1
        rxLengthErrors := stats.rxLengthErrors + 1 } }
  else
    match room with
    | none => { tp with stats := { stats with rxDropped := stats.rxDropped + 1 } }
    | some room =>
        let skb := rxSkb cfg desc rxBuf room
        { rxSelect cfg tp skb with stats := countRxFrame cfg skb stats }

/-! ## The loop -/

/-- The loop of `rtl_rx` with `rounds` rounds left. `alloc k` is the outcome of the allocation in
the round that counts `k`. -/
def rxLoop (cfg : RxConfig) (alloc : ℕ → Option RxBuffer) : ℕ → ℕ → Receiver → ℕ × Receiver
  | 0, count, tp => (count, tp)
  | rounds + 1, count, tp =>
      let entry := rxEntry tp.curRx
      let desc := tp.rxDescArray entry
      if hasBits desc.opts1 descOwn then (count, tp)
      else
        let tp := rxFrame cfg tp desc (tp.rxDatabuff entry) (alloc count)
        rxLoop cfg alloc rounds (count + 1)
          { tp with
            rxDescArray := Function.update tp.rxDescArray entry
              (rtl8169MarkToAsic (tp.rxDescArray entry))
            curRx := tp.curRx + 1 }

/-- `rtl_rx`: the number of descriptors consumed and the state left. -/
def rtlRx (cfg : RxConfig) (alloc : ℕ → Option RxBuffer) (budget : ℤ) (tp : Receiver) :
    ℕ × Receiver :=
  let (count, tp) := rxLoop cfg alloc budget.toNat 0 tp
  (count, { tp with aspmPacketCount := int32 (tp.aspmPacketCount + count) })

/-! ## Giving a descriptor back -/

theorem markToAsic_owned (desc : RxDesc) :
    hasBits (rtl8169MarkToAsic desc).opts1 descOwn = true := by
  have h : (rtl8169MarkToAsic desc).opts1 &&& descOwn = descOwn := by
    simp only [rtl8169MarkToAsic]
    rw [BitVec.or_assoc, BitVec.and_comm, BitVec.and_or_distrib_left, BitVec.and_self]
    ext i
    simp only [BitVec.getElem_or, BitVec.getElem_and]
    cases descOwn[i] <;> simp
  rw [hasBits, h]
  decide

theorem markToAsic_ringEnd (desc : RxDesc) :
    (rtl8169MarkToAsic desc).opts1 &&& ringEnd = desc.opts1 &&& ringEnd := by
  have hown : descOwn &&& ringEnd = 0 := by decide
  have hsize : r8169RxBufSize &&& ringEnd = 0 := by decide
  simp only [rtl8169MarkToAsic]
  rw [BitVec.and_or_distrib_right, BitVec.and_or_distrib_right, hown, hsize, BitVec.and_assoc,
    BitVec.and_self]
  simp

end CrosRt
