import CrosRt.Driver.Receive
import CrosRt.Foundations.LabelledRuns
import CrosRt.Foundations.RingWindow

/-! # The transmit ring

`rtl8169_start_xmit`, `rtl_tx`, the hardware and `rtl_reset_work` on the ring of 256 transmit
descriptors. The three functions run on different CPUs and take their statements in any order:
`start_xmit` under the transmit lock, called where the queue is awake, `rtl_tx` from the poll of the one
NAPI instance, `rtl_reset_work` from the work item of the device. The hardware takes descriptors in ring
order, one at a time, whenever the next one is its own and the chip has not been stopped.

`cur_tx` and `dirty_tx` are `u32` counters that wrap; an entry is a counter modulo 256. The two arrays
`TxDescArray` and `tx_skb` are one array of pairs. What a mapping of the DMA layer gives and what the
checksum set-up decides is part of the event; so is what the hardware writes back.

`start_xmit` reads the number of fragments before the checksum set-up, which may pad the socket buffer
(`__skb_put_padto`, which makes it linear); the loop over the fragments reads the number again. So what
the set-up leaves of the socket buffer is part of the event too.
-/

namespace CrosRt
set_option autoImplicit false

open LabelledRuns RingWindow

/-- `MAX_SKB_FRAGS` with pages of 4 KiB. -/
def maxSkbFrags : ℕ := 17

/-- The bits of `opts1` that control the ring. -/
def txControl : BitVec 32 := descOwn ||| ringEnd ||| firstFrag ||| lastFrag

/-- The data of a socket buffer: the length of the linear part and of each fragment. None is zero and
none reaches the control bits of a descriptor. -/
structure TxParts where
  headLen : BitVec 32
  frags : List (BitVec 32)
  frags_le : frags.length ≤ maxSkbFrags
  len_ne_zero : ∀ len ∈ headLen :: frags, len ≠ 0
  len_control : ∀ len ∈ headLen :: frags, len &&& txControl = 0

/-- A socket buffer as `start_xmit` reads it. -/
structure TxSkb (F : Type*) extends TxParts where
  skb : F

/-- `opts[0]` and `opts[1]`, the first without control bits. -/
structure TxOpts where
  opts0 : BitVec 32
  opts1 : BitVec 32
  opts0_control : opts0 &&& txControl = 0

/-- What `rtl8169_tso_csum_v1` or `rtl8169_tso_csum_v2` leaves: the options, and the data of the socket
buffer, which `__skb_put_padto` may have padded and made linear. -/
structure TxSetup where
  opts : TxOpts
  parts : TxParts

structure TxDesc where
  opts1 : BitVec 32
  opts2 : BitVec 32
  addr : BitVec 64
  deriving DecidableEq, Repr

structure RingInfo (F : Type*) where
  skb : Option (TxSkb F)
  len : BitVec 32

/-- An entry of `TxDescArray` with the entry of `tx_skb` at the same place. -/
structure TxEntry (F : Type*) where
  desc : TxDesc
  info : RingInfo F

variable {F : Type*}

/-- `skb->len`. -/
def TxSkb.len (skb : TxSkb F) : ℕ := ((skb.headLen :: skb.frags).map BitVec.toNat).sum

/-- The socket buffer after the checksum set-up. -/
def TxSkb.afterSetup (skb : TxSkb F) (setup : TxSetup) : TxSkb F :=
  { setup.parts with skb := skb.skb }

/-- An entry after the two calls of `memset`. -/
def blankEntry : TxEntry F := ⟨⟨0, 0, 0⟩, ⟨none, 0⟩⟩

def TxEntry.owned (x : TxEntry F) : Bool := hasBits x.desc.opts1 descOwn

namespace TxRing

/-- `NUM_TX_DESC` is not zero. -/
scoped instance numTxDesc_neZero : NeZero 256 := ⟨by decide⟩

end TxRing

open scoped TxRing

/-- A counter modulo `NUM_TX_DESC`. -/
def txEntry (c : BitVec 32) : Fin 256 := cell 256 c.toNat

abbrev TxArray (F : Type*) := Fin 256 → TxEntry F

/-! ## The functions on the arrays -/

/-- `rtl8169_tx_map` once the mapping has succeeded. -/
def rtl8169TxMap (ring : TxArray F) (opts : TxOpts) (len : BitVec 32) (mapping : BitVec 64)
    (entry : Fin 256) (descOwned : Bool) : TxArray F :=
  let opts1 := opts.opts0 ||| len
  let opts1 := if entry = 255 then opts1 ||| ringEnd else opts1
  let opts1 := if descOwned then opts1 ||| descOwn else opts1
  Function.update ring entry
    ⟨⟨opts1, opts.opts1, mapping⟩, { (ring entry).info with len := len }⟩

def rtl8169UnmapTxSkb (ring : TxArray F) (entry : Fin 256) : TxArray F :=
  Function.update ring entry blankEntry

/-- `rtl8169_tx_clear_range`: the arrays left and the socket buffers consumed, in order. -/
def rtl8169TxClearRange (ring : TxArray F) (start : BitVec 32) : ℕ → TxArray F × List (TxSkb F)
  | 0 => (ring, [])
  | n + 1 =>
      let (ring, consumed) := rtl8169TxClearRange ring start n
      let entry := txEntry (start + BitVec.ofNat 32 n)
      if (ring entry).info.len ≠ 0 then
        (rtl8169UnmapTxSkb ring entry, consumed ++ (ring entry).info.skb.toList)
      else (ring, consumed)

def setSkb (ring : TxArray F) (entry : Fin 256) (skb : TxSkb F) : TxArray F :=
  Function.update ring entry
    ⟨{ (ring entry).desc with opts1 := (ring entry).desc.opts1 ||| lastFrag },
      { (ring entry).info with skb := some skb }⟩

def orOpts1 (ring : TxArray F) (entry : Fin 256) (bits : BitVec 32) : TxArray F :=
  Function.update ring entry
    { ring entry with desc :=
      { (ring entry).desc with opts1 := (ring entry).desc.opts1 ||| bits } }

def rtlTxSlotsAvail (dirtyTx curTx : BitVec 32) : Bool :=
  BitVec.ofNat 32 maxSkbFrags < dirtyTx + 256 - curTx

/-! ## The three threads and the hardware -/

/-- The local variables of `rtl8169_start_xmit`: the socket buffer as the checksum set-up has left it,
`frags` and the first `entry` as read at the call. -/
structure XmitLocals (F : Type*) where
  skb : TxSkb F
  opts : TxOpts
  frags : ℕ
  first : Fin 256

/-- The next statement of `rtl8169_start_xmit`; `called` is the test of the slots. -/
inductive XmitPc (F : Type*)
  | idle
  | called (skb : TxSkb F) (setup : Option TxSetup) (first : Fin 256)
  | full (skb : TxSkb F)
  | mapHead (x : XmitLocals F)
  | mapFrag (x : XmitLocals F) (entry : Fin 256) (curFrag : ℕ)
  | last (x : XmitLocals F) (entry : Fin 256)
  | sentQueue (x : XmitLocals F)
  | release (x : XmitLocals F)
  | publish (x : XmitLocals F)
  | check
  | stop
  | recheck

def XmitPc.isIdle : XmitPc F → Bool
  | .idle => true
  | _ => false

/-- The next statement of `rtl_tx`, with its local variables. -/
inductive RtlTxPc
  | idle
  | loop (dirtyTx : BitVec 32) (pktsCompl bytesCompl : ℕ)
  | completed (dirtyTx : BitVec 32) (pktsCompl bytesCompl : ℕ)
  | store (dirtyTx : BitVec 32)
  | stopped
  | avail
  | wake
  deriving DecidableEq, Repr

/-- The next statement of `rtl_reset_work` and of the wake-up behind it. `grace` is the wait of
`synchronize_net` for the call of `start_xmit` that was under way when it began, the `calls`-th. -/
inductive ResetPc
  | idle
  | napiDisable
  | synchronize
  | grace (calls : ℕ)
  | hwReset
  | txClear
  | initIndexes
  | napiEnable
  | hwStart
  | wake
  deriving DecidableEq, Repr

/-- Between `napi_disable` and `napi_enable`. -/
def ResetPc.napiOff : ResetPc → Bool
  | .synchronize | .grace _ | .hwReset | .txClear | .initIndexes | .napiEnable => true
  | _ => false

/-- Between `rtl_hw_reset` and `rtl_hw_start`. -/
def ResetPc.hwOff : ResetPc → Bool
  | .txClear | .initIndexes | .napiEnable | .hwStart => true
  | _ => false

/-- The transmit side of `struct rtl8169_private` with the byte queue limits of the queue and the
statistics of the device, the three threads, the calls of `start_xmit` so far, and the next descriptor
of the hardware. Four lists record socket buffers in order: those passed to the hardware, those consumed
after transmission or by `rtl8169_tx_clear`, those dropped by `start_xmit`, and those refused with
`NETDEV_TX_BUSY`. -/
structure TxRing (F : Type*) where
  ring : TxArray F
  curTx : BitVec 32
  dirtyTx : BitVec 32
  queueStopped : Bool
  queuedBytes : ℕ
  completedBytes : ℕ
  txPackets : ℕ
  txBytes : ℕ
  xmit : XmitPc F
  rtlTx : RtlTxPc
  reset : ResetPc
  calls : ℕ
  hwTx : BitVec 32
  sent : List (TxSkb F)
  freed : List (TxSkb F)
  dropped : List (TxSkb F)
  refused : List (TxSkb F)

inductive TxEvent (F : Type*)
  | startXmit (skb : TxSkb F) (setup : Option TxSetup)
  | dmaMap (mapping : Option (BitVec 64))
  | xmit
  | startRtlTx
  | rtlTx
  | transmit (written : BitVec 32)
  | startReset
  | reset

namespace TxRing

def init (F : Type*) : TxRing F where
  ring := fun _ => blankEntry
  curTx := 0
  dirtyTx := 0
  queueStopped := false
  queuedBytes := 0
  completedBytes := 0
  txPackets := 0
  txBytes := 0
  xmit := .idle
  rtlTx := .idle
  reset := .idle
  calls := 0
  hwTx := 0
  sent := []
  freed := []
  dropped := []
  refused := []

def slotsAvail (s : TxRing F) : Bool := rtlTxSlotsAvail s.dirtyTx s.curTx

/-- `err_dma_0`. -/
def errDma0 (s : TxRing F) (skb : TxSkb F) : TxRing F :=
  { s with dropped := s.dropped ++ [skb], xmit := .idle }

/-- The call of `rtl8169_start_xmit` and what it reads at its entry. -/
def startXmit (s : TxRing F) (skb : TxSkb F) (setup : Option TxSetup) : TxRing F :=
  { s with calls := s.calls + 1, xmit := .called skb setup (txEntry s.curTx) }

/-- The test of the slots and the checksum set-up; `setup` is `none` where the set-up fails. -/
def testSlots (s : TxRing F) (skb : TxSkb F) (setup : Option TxSetup) (first : Fin 256) : TxRing F :=
  if s.slotsAvail then
    match setup with
    | none => s.errDma0 skb
    | some setup =>
        { s with xmit := .mapHead ⟨skb.afterSetup setup, setup.opts, skb.frags.length, first⟩ }
  else { s with xmit := .full skb }

/-- The head of the loop of `rtl8169_xmit_frags`, which reads the number of fragments again, and what
`start_xmit` does behind the loop. -/
def xmitFrags (x : XmitLocals F) (entry : Fin 256) (curFrag : ℕ) : XmitPc F :=
  if curFrag < x.skb.frags.length then .mapFrag x entry curFrag
  else .last x (x.first + Fin.ofNat 256 x.frags)

/-- A statement with a call of `rtl8169_tx_map`. On failure `rtl8169_xmit_frags` clears the fragments
mapped so far, and `err_dma_1` unmaps the first entry. -/
def dmaMap (s : TxRing F) (mapping : Option (BitVec 64)) : Option (TxRing F) :=
  match s.xmit with
  | .mapHead x =>
      match mapping with
      | none => some (s.errDma0 x.skb)
      | some mapping =>
          some { s with
            ring := rtl8169TxMap s.ring x.opts x.skb.headLen mapping x.first false
            xmit := if x.frags = 0 then .last x x.first else xmitFrags x x.first 0 }
  | .mapFrag x entry curFrag =>
      let next := entry + 1
      match mapping with
      | none =>
          let ring := (rtl8169TxClearRange s.ring (s.curTx + 1) curFrag).1
          some ({ s with ring := rtl8169UnmapTxSkb ring x.first }.errDma0 x.skb)
      | some mapping =>
          some { s with
            ring := rtl8169TxMap s.ring x.opts (x.skb.frags.getD curFrag 0) mapping next true
            xmit := xmitFrags x next (curFrag + 1) }
  | _ => none

/-- One of the other statements of `rtl8169_start_xmit`. -/
def xmitStep (s : TxRing F) : Option (TxRing F) :=
  match s.xmit with
  | .called skb setup first => some (s.testSlots skb setup first)
  | .full skb =>
      some { s with queueStopped := true, refused := s.refused ++ [skb], xmit := .idle }
  | .last x entry => some { s with ring := setSkb s.ring entry x.skb, xmit := .sentQueue x }
  | .sentQueue x => some { s with queuedBytes := s.queuedBytes + x.skb.len, xmit := .release x }
  | .release x =>
      some { s with
        ring := orOpts1 s.ring x.first (descOwn ||| firstFrag)
        sent := s.sent ++ [x.skb]
        xmit := .publish x }
  | .publish x =>
      some { s with curTx := s.curTx + BitVec.ofNat 32 x.frags + 1, xmit := .check }
  | .check => some { s with xmit := if s.slotsAvail then .idle else .stop }
  | .stop => some { s with queueStopped := true, xmit := .recheck }
  | .recheck => some { s with
      queueStopped := if s.slotsAvail then false else s.queueStopped
      xmit := .idle }
  | _ => none

/-- A round of the loop of `rtl_tx`, or the end of the loop. -/
def rtlTxLoop (s : TxRing F) (dirtyTx : BitVec 32) (pktsCompl bytesCompl : ℕ) : TxRing F :=
  let entry := txEntry dirtyTx
  if s.curTx ≠ dirtyTx ∧ ¬ (s.ring entry).owned then
    let skb := (s.ring entry).info.skb
    { s with
      ring := rtl8169UnmapTxSkb s.ring entry
      freed := s.freed ++ skb.toList
      rtlTx := .loop (dirtyTx + 1) (pktsCompl + skb.toList.length)
        (bytesCompl + (skb.toList.map TxSkb.len).sum) }
  else
    { s with
      rtlTx := if s.dirtyTx ≠ dirtyTx then .completed dirtyTx pktsCompl bytesCompl else .idle }

def rtlTxStep (s : TxRing F) : Option (TxRing F) :=
  match s.rtlTx with
  | .idle => none
  | .loop dirtyTx pktsCompl bytesCompl => some (s.rtlTxLoop dirtyTx pktsCompl bytesCompl)
  | .completed dirtyTx pktsCompl bytesCompl =>
      some { s with
        completedBytes := s.completedBytes + bytesCompl
        txPackets := s.txPackets + pktsCompl
        txBytes := s.txBytes + bytesCompl
        rtlTx := .store dirtyTx }
  | .store dirtyTx => some { s with dirtyTx := dirtyTx, rtlTx := .stopped }
  | .stopped => some { s with rtlTx := if s.queueStopped then .avail else .idle }
  | .avail => some { s with rtlTx := if s.slotsAvail then .wake else .idle }
  | .wake => some { s with queueStopped := false, rtlTx := .idle }

/-- The hardware gives back its next descriptor, with `written` in `opts1`. -/
def transmit (s : TxRing F) (written : BitVec 32) : Option (TxRing F) :=
  let entry := txEntry s.hwTx
  if ¬ s.reset.hwOff ∧ (s.ring entry).owned then
    some { s with
      ring := Function.update s.ring entry
        { s.ring entry with desc :=
          { (s.ring entry).desc with opts1 := written &&& ~~~descOwn } }
      hwTx := s.hwTx + 1 }
  else none

/-- `rtl8169_tx_clear`. -/
def rtl8169TxClear (s : TxRing F) : TxRing F :=
  let cleared := rtl8169TxClearRange s.ring s.dirtyTx 256
  { s with
    ring := cleared.1
    freed := s.freed ++ cleared.2
    queuedBytes := 0
    completedBytes := 0 }

theorem rtl8169TxClear_eq (s : TxRing F) : ∃ ring freed, s.rtl8169TxClear = { s with
    ring := ring
    freed := freed
    queuedBytes := 0
    completedBytes := 0 } := ⟨_, _, rfl⟩

/-- One statement of `rtl_reset_work`, `rtl8169_cleanup` and the `netif_wake_queue` behind them.
`napi_disable` waits for the poll, which `rtl_tx` is part of; once started again the hardware begins
with the first descriptor. -/
def resetStep (s : TxRing F) : Option (TxRing F) :=
  match s.reset with
  | .idle => none
  | .napiDisable => if s.rtlTx = .idle then some { s with reset := .synchronize } else none
  | .synchronize => some { s with reset := .grace s.calls }
  | .grace calls =>
      if s.xmit.isIdle ∨ s.calls ≠ calls then some { s with reset := .hwReset } else none
  | .hwReset => some { s with reset := .txClear }
  | .txClear => some { s.rtl8169TxClear with reset := .initIndexes }
  | .initIndexes => some { s with curTx := 0, dirtyTx := 0, reset := .napiEnable }
  | .napiEnable => some { s with reset := .hwStart }
  | .hwStart => some { s with hwTx := 0, reset := .wake }
  | .wake => some { s with queueStopped := false, reset := .idle }

/-- `startReset` is the work item with its first statement, `netif_stop_queue`. -/
def step (s : TxRing F) : TxEvent F → Option (TxRing F)
  | .startXmit skb setup =>
      match s.xmit with
      | .idle => if s.queueStopped then none else some (s.startXmit skb setup)
      | _ => none
  | .dmaMap mapping => s.dmaMap mapping
  | .xmit => s.xmitStep
  | .startRtlTx =>
      if s.rtlTx = .idle ∧ ¬ s.reset.napiOff then some { s with rtlTx := .loop s.dirtyTx 0 0 }
      else none
  | .rtlTx => s.rtlTxStep
  | .transmit written => s.transmit written
  | .startReset =>
      if s.reset = .idle then some { s with queueStopped := true, reset := .napiDisable } else none
  | .reset => s.resetStep

/-- The packet of two descriptors that goes through the ring below. -/
def twoParts : TxParts where
  headLen := 60
  frags := [1000]
  frags_le := by decide
  len_ne_zero := by simp
  len_control := by
    simp only [List.mem_cons, List.not_mem_nil, or_false, forall_eq_or_imp, forall_eq]
    decide

def onePacket : List (TxEvent ℕ) :=
  [.startXmit ⟨twoParts, 7⟩ (some ⟨⟨0, 0, by decide⟩, twoParts⟩), .xmit, .dmaMap (some 0),
    .dmaMap (some 64), .xmit, .xmit, .xmit, .transmit 0, .xmit, .xmit, .startRtlTx, .rtlTx,
    .transmit 0, .rtlTx, .rtlTx, .rtlTx, .rtlTx, .rtlTx]

example : (run step (init ℕ) onePacket).map (fun s => (s.curTx, s.dirtyTx, s.freed.length)) =
    some (2, 2, 1) := by decide

end TxRing

end CrosRt
