import CrosRt.Driver.TxRing

/-! # What the transmit ring holds

The ring between `dirty_tx` and `cur_tx` seen as a queue of entries: those released to the hardware,
which has given back the first few of them, and behind them those of the packet that `start_xmit` is
mapping. The first entry of that packet stays hidden from the hardware until its last one is written.
Between two statements of a reset the ring is empty and the counters are still the old ones.
-/

namespace CrosRt
set_option autoImplicit false

open RingWindow
open scoped TxRing

variable {F : Type*}

/-! ## Counters and bits -/

theorem txEntry_add (c : BitVec 32) (k : ℕ) :
    txEntry (c + BitVec.ofNat 32 k) = cell 256 (c.toNat + k) := by
  apply cell_congr
  rw [BitVec.toNat_add, BitVec.toNat_ofNat]
  omega

theorem toNat_add_one_mod (c : BitVec 32) : (c.toNat + 1) % 256 = (c + 1).toNat % 256 := by
  rw [BitVec.toNat_add]
  show _ = (c.toNat + 1) % 2 ^ 32 % 256
  omega

theorem cell_add_fin (j k : ℕ) : cell 256 j + Fin.ofNat 256 k = cell 256 (j + k) := by
  apply Fin.ext
  show (j % 256 + k % 256) % 256 = (j + k) % 256
  omega

theorem hasBits_descOwn (x : BitVec 32) : hasBits x descOwn = x.getLsbD 31 := by
  have hbit : ∀ i, (x &&& descOwn).getLsbD i = (x.getLsbD 31 && decide (i = 31)) := by
    intro i
    have hown : descOwn = BitVec.twoPow 32 31 := by decide
    rw [BitVec.getLsbD_and, hown, BitVec.getLsbD_twoPow]
    by_cases hi : i = 31
    · subst hi; simp
    · simp [hi, Ne.symm hi]
  cases hx : x.getLsbD 31 with
  | true =>
    have hne : x &&& descOwn ≠ 0 := by
      intro h0
      have := hbit 31
      rw [h0, hx] at this
      simp at this
    simpa [hasBits] using hne
  | false =>
    have h0 : x &&& descOwn = 0 := by
      apply BitVec.eq_of_getLsbD_eq
      intro i _
      rw [hbit i, hx, Bool.false_and, BitVec.ofNat_eq_ofNat, BitVec.getLsbD_zero]
    simp [hasBits, h0]

theorem getLsbD_of_control {x : BitVec 32} (h : x &&& txControl = 0) : x.getLsbD 31 = false := by
  have hbit : (x &&& txControl).getLsbD 31 = false := by rw [h]; rfl
  rw [BitVec.getLsbD_and] at hbit
  have hc : txControl.getLsbD 31 = true := by decide
  rwa [hc, Bool.and_true] at hbit

theorem blankEntry_owned : (blankEntry : TxEntry F).owned = false := by
  show hasBits 0 descOwn = false
  decide

/-- The entry `rtl8169_tx_map` writes over a blank one. -/
def mappedEntry (opts : TxOpts) (len : BitVec 32) (mapping : BitVec 64) (entry : Fin 256)
    (descOwned : Bool) : TxEntry F :=
  let opts1 := opts.opts0 ||| len
  let opts1 := if entry = 255 then opts1 ||| ringEnd else opts1
  let opts1 := if descOwned then opts1 ||| descOwn else opts1
  ⟨⟨opts1, opts.opts1, mapping⟩, ⟨none, len⟩⟩

theorem mappedEntry_owned (opts : TxOpts) {len : BitVec 32} (hlen : len &&& txControl = 0)
    (mapping : BitVec 64) (entry : Fin 256) (descOwned : Bool) :
    (mappedEntry opts len mapping entry descOwned : TxEntry F).owned = descOwned := by
  have hopts := getLsbD_of_control opts.opts0_control
  have hlen := getLsbD_of_control hlen
  have hend : ringEnd.getLsbD 31 = false := by decide
  have hown : descOwn.getLsbD 31 = true := by decide
  unfold TxEntry.owned mappedEntry
  rw [hasBits_descOwn]
  cases descOwned <;> by_cases he : entry = 255 <;>
    simp only [he, if_true, if_false, BitVec.getLsbD_or, hopts, hlen, hend, hown, Bool.or_false,
      Bool.or_true, Bool.false_eq_true]

theorem txMap_of_blank {ring : TxArray F} {entry : Fin 256} (h : ring entry = blankEntry)
    (opts : TxOpts) (len : BitVec 32) (mapping : BitVec 64) (descOwned : Bool) :
    rtl8169TxMap ring opts len mapping entry descOwned =
      Function.update ring entry (mappedEntry opts len mapping entry descOwned) := by
  unfold rtl8169TxMap mappedEntry
  rw [h]
  rfl

/-! ## Clearing a range -/

/-- What `rtl8169_tx_clear_range` leaves and consumes where the ring holds a queue of entries in
use. -/
theorem clearRange_spec {ring : TxArray F} {start : BitVec 32} {q : List (TxEntry F)}
    (h : Window blankEntry ring start.toNat q) (hlen : ∀ x ∈ q, x.info.len ≠ 0) (k n : ℕ)
    (hkn : k + n ≤ 256) :
    (∀ i < 256, (rtl8169TxClearRange ring (start + BitVec.ofNat 32 k) n).1
        (cell 256 (start.toNat + i)) = if k ≤ i ∧ i < k + n then blankEntry else q.getD i blankEntry) ∧
      (rtl8169TxClearRange ring (start + BitVec.ofNat 32 k) n).2 =
        ((q.drop k).take n).filterMap (·.info.skb) := by
  induction n with
  | zero =>
    refine ⟨fun i hi => ?_, rfl⟩
    rw [if_neg (by omega)]
    exact h.reads i hi
  | succ n ih =>
    obtain ⟨hread, hcons⟩ := ih (by omega)
    have hentry : txEntry (start + BitVec.ofNat 32 k + BitVec.ofNat 32 n) =
        cell 256 (start.toNat + (k + n)) := by
      rw [BitVec.add_assoc, ← BitVec.ofNat_add, txEntry_add]
    have hat := hread (k + n) (by omega)
    rw [if_neg (by omega)] at hat
    have htake : (q.drop k).take (n + 1) = (q.drop k).take n ++ q[k + n]?.toList := by
      rw [List.take_add_one, List.getElem?_drop]
    simp only [rtl8169TxClearRange]
    rw [hentry, hat, htake, List.filterMap_append, ← hcons]
    by_cases hin : k + n < q.length
    · -- The entry is in use: it is blanked and its socket buffer consumed.
      have hget : q.getD (k + n) blankEntry = q[k + n] := List.getD_eq_getElem _ _ hin
      rw [if_pos (hget ▸ hlen _ (List.getElem_mem hin)), hget, List.getElem?_eq_getElem hin]
      refine ⟨fun i hi => ?_, ?_⟩
      · show Function.update _ _ _ _ = _
        by_cases hik : i = k + n
        · rw [hik, Function.update_self, if_pos (by omega)]
        · have hne : cell 256 (start.toNat + i) ≠ cell 256 (start.toNat + (k + n)) :=
            fun hc => hik (cell_add_inj hi (by omega) hc)
          rw [Function.update_of_ne hne, hread i hi]
          exact if_congr (by omega) rfl rfl
      · cases hskb : q[k + n].info.skb <;> simp [hskb]
    · have hget : q.getD (k + n) blankEntry = blankEntry := List.getD_eq_default _ _ (by omega)
      rw [hget, if_neg (by simp [blankEntry]), List.getElem?_eq_none (by omega)]
      refine ⟨fun i hi => ?_, (List.append_nil _).symm⟩
      rw [hread i hi]
      by_cases hik : i = k + n
      · rw [hik, if_neg (by omega), if_pos (by omega), hget]
      · exact if_congr (by omega) rfl rfl

/-! ## The queue in the ring -/

/-- The packet being mapped: its first entry is not yet the hardware's, the others are. -/
def Hidden : List (TxEntry F) → Prop
  | [] => False
  | x :: l => x.owned = false ∧ ∀ y ∈ l, y.owned = true

theorem Hidden.push {b : List (TxEntry F)} (h : Hidden b) {x : TxEntry F} (hx : x.owned = true) :
    Hidden (b ++ [x]) := by
  cases b with
  | nil => exact h.elim
  | cons y l =>
    refine ⟨h.1, fun z hz => ?_⟩
    rcases List.mem_append.mp hz with hz | hz
    · exact h.2 z hz
    · rwa [List.mem_singleton.mp hz]

theorem Hidden.set_last {b : List (TxEntry F)} (h : Hidden b) {x y : TxEntry F}
    (hb : b.getLast? = some x) (hown : y.owned = x.owned) : Hidden (b.dropLast ++ [y]) := by
  have hsplit : b.dropLast ++ [x] = b := List.dropLast_append_getLast? x hb
  cases hd : b.dropLast with
  | nil =>
    rw [hd, List.nil_append] at hsplit
    subst hsplit
    exact ⟨hown.trans h.1, by simp⟩
  | cons z l =>
    rw [hd] at hsplit
    subst hsplit
    refine ⟨h.1, fun u hu => ?_⟩
    rcases List.mem_append.mp hu with hu | hu
    · exact h.2 u (List.mem_append_left _ hu)
    · rw [List.mem_singleton.mp hu, hown]
      exact h.2 x (List.mem_append_right _ (List.mem_singleton.mpr rfl))

def skbsOf (entries : List (TxEntry F)) : List (TxSkb F) := entries.filterMap (·.info.skb)

/-- The ring as a queue: how many entries `rtl_tx` has cleared since it last stored `dirty_tx`, the
entries released to the hardware, how many of these it has given back, and the entries mapped for the
next packet. -/
structure TxView (F : Type*) where
  ahead : ℕ
  released : List (TxEntry F)
  done : ℕ
  building : List (TxEntry F)

namespace TxRing

/-- `dirty_tx` as `rtl_tx` sees it. -/
def dirty (s : TxRing F) : BitVec 32 :=
  match s.rtlTx with
  | .loop dirtyTx _ _ | .completed dirtyTx _ _ | .store dirtyTx => dirtyTx
  | _ => s.dirtyTx

/-- Entries released but not yet counted in `cur_tx`. -/
def unpublished (s : TxRing F) : ℕ :=
  match s.xmit with
  | .publish x => x.frags + 1
  | _ => 0

/-- Entries the packet being mapped takes. -/
def reserved (s : TxRing F) : ℕ :=
  match s.xmit with
  | .mapHead x | .mapFrag x _ _ | .last x _ | .sentQueue x | .release x => x.frags + 1
  | _ => 0

/-- The descriptor the hardware takes next: the first one where it is yet to be started again. -/
def hwNext (s : TxRing F) : BitVec 32 :=
  match s.reset with
  | .napiEnable | .hwStart => 0
  | _ => s.hwTx

/-- What `start_xmit` has read at its entry still holds, and will after the checksum set-up. -/
def LocalsHold (s : TxRing F) : Prop :=
  match s.xmit with
  | .called skb setup first =>
      first = txEntry s.curTx ∧
        ∀ su ∈ setup, su.parts.frags.length = skb.frags.length
  | .mapHead x | .mapFrag x _ _ | .last x _ | .sentQueue x | .release x =>
      x.frags = x.skb.frags.length ∧ x.first = txEntry s.curTx
  | _ => True

/-- The packet being mapped as far as `start_xmit` has come. -/
def Builds (s : TxRing F) (b : List (TxEntry F)) : Prop :=
  match s.xmit with
  | .mapFrag x entry curFrag =>
      curFrag < x.frags ∧ b.length = curFrag + 1 ∧
        entry = txEntry (s.curTx + BitVec.ofNat 32 curFrag) ∧ Hidden b ∧ skbsOf b = []
  | .last x entry =>
      b.length = x.frags + 1 ∧
        entry = txEntry (s.curTx + BitVec.ofNat 32 x.frags) ∧ Hidden b ∧ skbsOf b = []
  | .sentQueue x | .release x =>
      b.length = x.frags + 1 ∧ Hidden b ∧ skbsOf b = [x.skb] ∧
        ∀ y ∈ b.getLast?, y.info.skb.isSome
  | _ => b = []

/-- Bytes counted in `queuedBytes` for a packet not yet released. -/
def bytesEarly (s : TxRing F) : ℕ :=
  match s.xmit with
  | .release x => x.skb.len
  | _ => 0

/-- Bytes of consumed packets not yet counted in `completedBytes`. -/
def bytesLate (s : TxRing F) : ℕ :=
  match s.rtlTx with
  | .loop _ _ bytesCompl | .completed _ _ bytesCompl => bytesCompl
  | _ => 0

def bytesOf (skbs : List (TxSkb F)) : ℕ := (skbs.map TxSkb.len).sum

structure Shows (s : TxRing F) (v : TxView F) : Prop where
  window : Window blankEntry s.ring s.dirty.toNat (v.released ++ v.building)
  dirty_eq : s.dirty = s.dirtyTx + BitVec.ofNat 32 v.ahead
  cur_eq : s.curTx + BitVec.ofNat 32 s.unpublished = s.dirty + BitVec.ofNat 32 v.released.length
  unpublished_le : s.unpublished ≤ v.released.length
  room : v.ahead + v.released.length + s.reserved ≤ 256
  hw_eq : s.hwNext = s.dirty + BitVec.ofNat 32 v.done
  done_le : v.done ≤ v.released.length
  returned : ∀ x ∈ v.released.take v.done, x.owned = false
  waiting : ∀ x ∈ v.released.drop v.done, x.owned = true
  in_use : ∀ x ∈ v.released ++ v.building, x.info.len ≠ 0
  locals : s.LocalsHold
  builds : s.Builds v.building
  whole : ∀ x ∈ v.released.getLast?, x.info.skb.isSome
  fifo : s.sent = s.freed ++ skbsOf v.released
  bytes : s.queuedBytes =
    s.completedBytes + s.bytesLate + bytesOf (skbsOf v.released) + s.bytesEarly
  late : v.ahead = 0 → s.bytesLate = 0

/-- The ring between `rtl8169_tx_clear` and `rtl8169_init_ring_indexes`. -/
structure Cleared (s : TxRing F) : Prop where
  blank : ∀ entry, s.ring entry = blankEntry
  xmit : s.xmit = .idle
  rtlTx : s.rtlTx = .idle
  fifo : s.sent = s.freed
  queued : s.queuedBytes = 0
  completed : s.completedBytes = 0

/-- The invariant of the transmit ring: it shows a queue, but for one statement of a reset. -/
def Inv (s : TxRing F) : Prop :=
  (s.reset ≠ .initIndexes ∧ ∃ v, s.Shows v) ∨ (s.reset = .initIndexes ∧ s.Cleared)

theorem add_ofNat_zero (c : BitVec 32) : c + BitVec.ofNat 32 0 = c := BitVec.add_zero c

/-- A blank ring with nobody at work is an empty queue. -/
theorem shows_blank {s : TxRing F} (hblank : ∀ entry, s.ring entry = blankEntry)
    (hx : s.xmit = .idle) (hr : s.rtlTx = .idle) (hcur : s.curTx = s.dirtyTx)
    (hhw : s.hwNext = s.dirtyTx) (hfifo : s.sent = s.freed)
    (hbytes : s.queuedBytes = s.completedBytes) : s.Shows ⟨0, [], 0, []⟩ := by
  have hdirty : s.dirty = s.dirtyTx := by rw [dirty, hr]
  have hunpublished : s.unpublished = 0 := by rw [unpublished, hx]
  have hreserved : s.reserved = 0 := by rw [reserved, hx]
  have hlate : s.bytesLate = 0 := by rw [bytesLate, hr]
  have hearly : s.bytesEarly = 0 := by rw [bytesEarly, hx]
  refine {
    window := window_nil hblank
    dirty_eq := ?_
    cur_eq := ?_
    unpublished_le := hunpublished.le
    room := ?_
    hw_eq := ?_
    done_le := le_rfl
    returned := by simp
    waiting := by simp
    in_use := by simp
    locals := ?_
    builds := ?_
    whole := by simp
    fifo := ?_
    bytes := ?_
    late := fun _ => hlate }
  · rw [hdirty, add_ofNat_zero]
  · rw [hunpublished, hdirty, hcur]
    rfl
  · rw [hreserved]
    exact Nat.zero_le _
  · rw [hhw, hdirty, add_ofNat_zero]
  · rw [LocalsHold, hx]
    trivial
  · rw [Builds, hx]
  · rw [hfifo]
    exact (List.append_nil _).symm
  · rw [hbytes, hlate, hearly]
    rfl

theorem shows_init : (init F).Shows ⟨0, [], 0, []⟩ :=
  shows_blank (fun _ => rfl) rfl rfl rfl rfl rfl rfl

end TxRing

end CrosRt
