import CrosRt.Driver.TxRingReset

/-! # Runs of the transmit ring

Each statement of the three threads and each step of the hardware keeps the queue view of the ring: one
lemma for each statement, then every step, then every run. Two things are assumed of a run: the checksum
set-up leaves the number of fragments as it was, and nobody starts the queue during a reset.
-/

namespace CrosRt
set_option autoImplicit false

open LabelledRuns RingWindow

variable {F : Type*}

namespace TxRing

variable {s : TxRing F} {v : TxView F}

/-! ## Positions of the ring -/

/-- Between two packets the counter `cur_tx` points behind the released entries. -/
theorem Shows.cur_cell (h : s.Shows v) (hu : s.unpublished = 0) (k : ℕ) :
    txEntry (s.curTx + BitVec.ofNat 32 k) =
      cell 256 (s.dirty.toNat + (v.released.length + k)) := by
  have hcur := h.cur_eq
  rw [hu, add_ofNat_zero] at hcur
  rw [hcur, BitVec.add_assoc, ← BitVec.ofNat_add, txEntry_add]

theorem Shows.cur_cell_zero (h : s.Shows v) (hu : s.unpublished = 0) :
    txEntry s.curTx = cell 256 (s.dirty.toNat + v.released.length) := by
  have := h.cur_cell hu 0
  rwa [add_ofNat_zero, Nat.add_zero] at this

theorem Shows.hw_cell (h : s.Shows v) :
    txEntry s.hwNext = cell 256 (s.dirty.toNat + v.done) := by
  rw [h.hw_eq, txEntry_add]

/-- Where `rtl_tx` has stored what it cleared, nothing is ahead. -/
theorem Shows.ahead_eq (h : s.Shows v) (hd : s.dirty = s.dirtyTx) : v.ahead = 0 := by
  have hval := congrArg BitVec.toNat (hd.symm.trans h.dirty_eq)
  rw [BitVec.toNat_add, BitVec.toNat_ofNat] at hval
  have hroom := h.room
  have hlt := s.dirtyTx.isLt
  omega

theorem Shows.curTx_eq (h : s.Shows v) :
    s.curTx = s.dirty + BitVec.ofNat 32 (v.released.length - s.unpublished) := by
  have hcur : s.curTx = s.dirty + BitVec.ofNat 32 v.released.length -
      BitVec.ofNat 32 s.unpublished := by rw [← h.cur_eq, BitVec.add_sub_cancel]
  have hsplit : BitVec.ofNat 32 v.released.length =
      BitVec.ofNat 32 (v.released.length - s.unpublished) + BitVec.ofNat 32 s.unpublished := by
    rw [← BitVec.ofNat_add, Nat.sub_add_cancel h.unpublished_le]
  rw [hcur, hsplit, ← BitVec.add_assoc, BitVec.add_sub_cancel]

theorem Shows.counters (h : s.Shows v) :
    s.Counters v.ahead (v.ahead + v.released.length - s.unpublished) := by
  have hle := h.unpublished_le
  have hroom := h.room
  refine ⟨h.dirty_eq, ?_, by omega, by omega⟩
  rw [h.curTx_eq, h.dirty_eq, BitVec.add_assoc, ← BitVec.ofNat_add, Nat.add_sub_assoc hle]

/-! ## The statements of `rtl8169_start_xmit` -/

/-- The checksum set-up of the call changes the number of fragments, which has been read before. -/
def changesFragments : TxEvent F → Bool
  | .startXmit skb (some setup) => decide (setup.parts.frags.length ≠ skb.frags.length)
  | _ => false

theorem shows_testSlots {skb : TxSkb F} {setup : Option TxSetup} {first : Fin 256}
    (h : ({ s with xmit := .called skb setup first } : TxRing F).Shows v) :
    (s.testSlots skb setup first).Shows v := by
  have hslots : s.slotsAvail = true ↔ _ := h.counters.slotsAvail_iff
  have hroom := h.room
  obtain ⟨hfirst, hkeep⟩ : first = txEntry s.curTx ∧
    ∀ su ∈ setup, su.parts.frags.length = skb.frags.length := h.locals
  rcases testSlots_cases s skb setup first with ⟨-, -, ht⟩ | ⟨su, hs, rfl, ht⟩ | ⟨-, ht⟩ <;> rw [ht]
  · exact { h with locals := trivial }
  · refine { h with room := ?_, locals := ⟨(hkeep su rfl).symm, hfirst⟩ }
    have hfree := hslots.mp hs
    have hfrags := skb.frags_le
    have hu : ({ s with xmit := .called skb (some su) first } : TxRing F).unpublished = 0 := rfl
    show v.ahead + v.released.length + (skb.frags.length + 1) ≤ 256
    unfold maxSkbFrags at hfree hfrags
    rw [hu] at hfree
    omega
  · exact { h with locals := trivial }

/-- Room for one more entry of the packet being mapped. -/
theorem Shows.fits (h : s.Shows v) (hb : v.building.length < s.reserved) :
    (v.released ++ v.building).length < 256 := by
  have hroom := h.room
  rw [List.length_append]
  omega

/-- An entry mapped at the next free position joins the packet being mapped. -/
theorem Shows.map_window (h : s.Shows v) (hb : v.building.length < s.reserved) (opts : TxOpts)
    (len : BitVec 32) (mapping : BitVec 64) (descOwned : Bool) (entry : Fin 256)
    (hentry : entry = cell 256 (s.dirty.toNat + (v.released.length + v.building.length))) :
    Window blankEntry (rtl8169TxMap s.ring opts len mapping entry descOwned) s.dirty.toNat
      (v.released ++ (v.building ++ [mappedEntry opts len mapping entry descOwned])) := by
  have hroom := h.fits hb
  have hpush := h.window.push hroom (mappedEntry opts len mapping entry descOwned)
  have hblank : s.ring entry = blankEntry := by
    rw [hentry, ← List.length_append, h.window.reads _ hroom]
    exact List.getD_eq_default _ _ le_rfl
  rw [txMap_of_blank hblank, ← List.append_assoc]
  rwa [List.length_append, ← hentry] at hpush

theorem shows_mapHead {x : XmitLocals F} (h : ({ s with xmit := .mapHead x } : TxRing F).Shows v)
    (mapping : BitVec 64) :
    ∃ v', ({ s with
      ring := rtl8169TxMap s.ring x.opts x.skb.headLen mapping x.first false
      xmit := if x.frags = 0 then .last x x.first else xmitFrags x x.first 0 } : TxRing F).Shows
        v' := by
  obtain ⟨hfrags, hfirst⟩ : x.frags = x.skb.frags.length ∧ x.first = txEntry s.curTx := h.locals
  have hempty : v.building = [] := h.builds
  have hentry := h.cur_cell_zero rfl
  have hwin := h.map_window (by rw [hempty]; exact Nat.succ_pos _) x.opts x.skb.headLen mapping false
    x.first (by rw [hempty, hfirst]; exact hentry)
  rw [hempty, List.nil_append] at hwin
  let y : TxEntry F := mappedEntry x.opts x.skb.headLen mapping x.first false
  have hhidden : Hidden [y] :=
    ⟨mappedEntry_owned x.opts (x.skb.len_control _ List.mem_cons_self) mapping _ _, by simp⟩
  have hin : ∀ z ∈ v.released ++ [y], z.info.len ≠ 0 := by
    intro z hz
    rcases List.mem_append.mp hz with hz | hz
    · exact h.in_use z (List.mem_append_left _ hz)
    · rw [List.mem_singleton.mp hz]
      exact x.skb.len_ne_zero _ List.mem_cons_self
  refine ⟨{ v with building := [y] }, ?_⟩
  have hzero : x.first = txEntry (s.curTx + BitVec.ofNat 32 0) := by
    rw [add_ofNat_zero, hfirst]
  by_cases hn : x.frags = 0
  · rw [if_pos hn]
    refine { h with
      window := hwin
      in_use := hin
      locals := ⟨hfrags, hfirst⟩
      builds := ⟨by rw [hn]; rfl, ?_, hhidden, rfl⟩ }
    rw [hn]
    exact hzero
  · have hpos : 0 < x.skb.frags.length := hfrags ▸ Nat.pos_of_ne_zero hn
    rw [if_neg hn, xmitFrags, if_pos hpos]
    exact { h with
      window := hwin
      in_use := hin
      locals := ⟨hfrags, hfirst⟩
      builds := ⟨Nat.pos_of_ne_zero hn, rfl, hzero, hhidden, rfl⟩ }

theorem frag_len_mem (skb : TxSkb F) {curFrag : ℕ} (hlt : curFrag < skb.frags.length) :
    skb.frags.getD curFrag 0 ∈ skb.headLen :: skb.frags := by
  rw [List.getD_eq_getElem _ _ hlt]
  exact List.mem_cons_of_mem _ (List.getElem_mem hlt)

theorem shows_mapFrag {x : XmitLocals F} {entry : Fin 256} {curFrag : ℕ}
    (h : ({ s with xmit := .mapFrag x entry curFrag } : TxRing F).Shows v) (mapping : BitVec 64) :
    ∃ v', ({ s with
      ring := rtl8169TxMap s.ring x.opts (x.skb.frags.getD curFrag 0) mapping (entry + 1) true
      xmit := xmitFrags x (entry + 1) (curFrag + 1) } : TxRing F).Shows v' := by
  obtain ⟨hfrags, hfirst⟩ : x.frags = x.skb.frags.length ∧ x.first = txEntry s.curTx := h.locals
  obtain ⟨hlt, hlen, hat, hhidden, hskbs⟩ := h.builds
  have hlt : curFrag < x.frags := hlt
  have hlen : v.building.length = curFrag + 1 := hlen
  have hat : entry = txEntry (s.curTx + BitVec.ofNat 32 curFrag) := hat
  have hnext : entry + 1 = txEntry (s.curTx + BitVec.ofNat 32 (curFrag + 1)) := by
    rw [hat, txEntry_add, txEntry_add]
    exact cell_add_fin _ 1
  have hlast : x.first + Fin.ofNat 256 x.frags = txEntry (s.curTx + BitVec.ofNat 32 x.frags) := by
    rw [hfirst, txEntry_add]
    exact cell_add_fin _ _
  have hmem := frag_len_mem x.skb (hfrags ▸ hlt)
  have hcell := h.cur_cell rfl (curFrag + 1)
  rw [← hlen] at hcell
  have hwin := h.map_window (by rw [hlen]; exact Nat.succ_lt_succ hlt) x.opts
    (x.skb.frags.getD curFrag 0) mapping true (entry + 1)
    (by rw [hnext, ← hlen]; exact hcell)
  let y : TxEntry F := mappedEntry x.opts (x.skb.frags.getD curFrag 0) mapping (entry + 1) true
  have hhidden' : Hidden (v.building ++ [y]) :=
    hhidden.push (mappedEntry_owned x.opts (x.skb.len_control _ hmem) mapping _ _)
  have hskbs' : skbsOf (v.building ++ [y]) = [] := by
    unfold skbsOf at hskbs ⊢
    rw [List.filterMap_append, hskbs]
    rfl
  have hin : ∀ z ∈ v.released ++ (v.building ++ [y]), z.info.len ≠ 0 := by
    intro z hz
    rw [← List.append_assoc] at hz
    rcases List.mem_append.mp hz with hz | hz
    · exact h.in_use z hz
    · rw [List.mem_singleton.mp hz]
      exact x.skb.len_ne_zero _ hmem
  have hlen' : (v.building ++ [y]).length = curFrag + 1 + 1 := by
    rw [List.length_append, hlen, List.length_singleton]
  refine ⟨{ v with building := v.building ++ [y] }, ?_⟩
  unfold xmitFrags
  by_cases hn : curFrag + 1 = x.frags
  · rw [if_neg (by omega)]
    exact { h with
      window := hwin
      in_use := hin
      locals := ⟨hfrags, hfirst⟩
      builds := ⟨by rw [hlen', hn], hlast, hhidden', hskbs'⟩ }
  · rw [if_pos (by omega)]
    exact { h with
      window := hwin
      in_use := hin
      locals := ⟨hfrags, hfirst⟩
      builds := ⟨by omega, hlen', hnext, hhidden', hskbs'⟩ }

/-- A failed mapping of a fragment leaves the ring as it was before the packet. -/
theorem shows_unwind {x : XmitLocals F} {entry : Fin 256} {curFrag : ℕ}
    (h : ({ s with xmit := .mapFrag x entry curFrag } : TxRing F).Shows v) :
    (({ s with
      ring := rtl8169UnmapTxSkb (rtl8169TxClearRange s.ring (s.curTx + 1) curFrag).1
        x.first } : TxRing F).errDma0 x.skb).Shows { v with building := [] } := by
  obtain ⟨-, hfirst⟩ : x.frags = x.skb.frags.length ∧ x.first = txEntry s.curTx := h.locals
  obtain ⟨hlt, hlen, -, hhidden, -⟩ := h.builds
  have hlt : curFrag < x.frags := hlt
  have hlen : v.building.length = curFrag + 1 := hlen
  have hroom := h.room
  have hcur : s.curTx + 1 = s.dirty + BitVec.ofNat 32 (v.released.length + 1) := by
    have hcur := h.cur_eq
    have hz : s.curTx + BitVec.ofNat 32 0 = s.dirty + BitVec.ofNat 32 v.released.length := hcur
    rw [add_ofNat_zero] at hz
    rw [hz, BitVec.ofNat_add, BitVec.add_assoc]
    rfl
  have hres : ({ s with xmit := .mapFrag x entry curFrag } : TxRing F).reserved = x.frags + 1 := rfl
  rw [hres] at hroom
  have hclear := (clearRange_spec h.window h.in_use (v.released.length + 1) curFrag
    (by omega)).1
  have hcell := h.cur_cell_zero rfl
  have hshort : ∀ i, v.released.length < i →
      v.released.getD i blankEntry = blankEntry :=
    fun i hi => List.getD_eq_default _ _ hi.le
  refine { h with window := ⟨?_, ?_⟩, room := ?_, in_use := ?_, locals := trivial, builds := rfl }
  · rw [List.append_nil]
    show v.released.length ≤ 256
    omega
  · intro i hi
    rw [List.append_nil]
    show Function.update _ _ _ _ = _
    rw [hcur]
    have hcell' : x.first = cell 256 (s.dirty.toNat + v.released.length) := hfirst.trans hcell
    rw [hcell']
    by_cases hir : i = v.released.length
    · -- The first entry of the packet, unmapped last.
      show Function.update _ _ _ (cell 256 (s.dirty.toNat + i)) = _
      rw [hir, Function.update_self]
      exact (List.getD_eq_default _ _ le_rfl).symm
    · have hne : cell 256 (s.dirty.toNat + i) ≠ cell 256 (s.dirty.toNat + v.released.length) :=
        fun hc => hir (cell_add_inj hi (by omega) hc)
      show Function.update _ _ _ (cell 256 (s.dirty.toNat + i)) = _
      rw [Function.update_of_ne hne]
      refine (hclear i hi).trans ?_
      by_cases hin : v.released.length + 1 ≤ i ∧ i < v.released.length + 1 + curFrag
      · rw [if_pos hin, hshort i (by omega)]
      · rw [if_neg hin]
        rcases Nat.lt_or_gt_of_ne hir with hlo | hhi
        · exact List.getD_append _ _ _ _ hlo
        · rw [hshort i hhi]
          exact List.getD_eq_default _ _ (by rw [List.length_append, hlen]; omega)
  · show v.ahead + v.released.length + 0 ≤ 256
    omega
  · intro y hy
    rw [List.append_nil] at hy
    exact h.in_use y (List.mem_append_left _ hy)

theorem shows_last {p : XmitLocals F} {entry : Fin 256}
    (h : ({ s with xmit := .last p entry } : TxRing F).Shows v) :
    ∃ v', ({ s with ring := setSkb s.ring entry p.skb, xmit := .sentQueue p } : TxRing F).Shows
      v' := by
  obtain ⟨hlen, hat, hhidden, hskbs⟩ := h.builds
  have hlen : v.building.length = p.frags + 1 := hlen
  have hhidden : Hidden v.building := hhidden
  have hne : v.building ≠ [] := fun hb => by rw [hb] at hlen; cases hlen
  obtain ⟨x, hx⟩ : ∃ x, v.building.getLast? = some x :=
    ⟨_, List.getLast?_eq_some_getLast hne⟩
  have hsplit : v.building.dropLast ++ [x] = v.building := List.dropLast_append_getLast? x hx
  have hdrop : v.building.dropLast.length = p.frags := by
    rw [List.length_dropLast, hlen, Nat.add_sub_cancel]
  have hcell := h.cur_cell rfl p.frags
  have hentry : entry = cell 256 (s.dirty.toNat + (v.released.length + p.frags)) :=
    hat.trans hcell
  let i := v.released.length + p.frags
  have hi : i < (v.released ++ v.building).length := by
    rw [List.length_append, hlen]
    exact Nat.add_lt_add_left (Nat.lt_succ_self _) _
  have hget : (v.released ++ v.building)[i] = x := by
    rw [List.getElem_append_right (Nat.le_add_right _ _)]
    have : v.building[i - v.released.length]? = some x := by
      rw [← hx, List.getLast?_eq_getElem?, hlen, Nat.add_sub_cancel_left, Nat.add_sub_cancel]
    exact Option.some.inj ((List.getElem?_eq_getElem _).symm.trans this)
  have hread : s.ring entry = x := by
    rw [hentry]
    exact (h.window.get hi).trans hget
  let y : TxEntry F :=
    ⟨{ x.desc with opts1 := x.desc.opts1 ||| lastFrag }, { x.info with skb := some p.skb }⟩
  have hring : setSkb s.ring entry p.skb =
      Function.update s.ring (cell 256 (s.dirty.toNat + i)) y := by
    unfold setSkb
    rw [hread, ← hentry]
  have hown : y.owned = x.owned := by
    have hbit : lastFrag.getLsbD 31 = false := by decide
    show hasBits (x.desc.opts1 ||| lastFrag) descOwn = hasBits x.desc.opts1 descOwn
    rw [hasBits_descOwn, hasBits_descOwn, BitVec.getLsbD_or, hbit, Bool.or_false]
  have hset : (v.released ++ v.building).set i y = v.released ++ (v.building.dropLast ++ [y]) := by
    rw [List.set_append_right _ _ (Nat.le_add_right _ _), Nat.add_sub_cancel_left, ← hdrop]
    conv_lhs => rw [← hsplit]
    rw [List.set_append_right _ _ (by rw [List.dropLast_concat]), List.dropLast_concat, Nat.sub_self]
    rfl
  have hskbs' : skbsOf (v.building.dropLast ++ [y]) = [p.skb] := by
    have hpart : skbsOf v.building.dropLast = [] := by
      unfold skbsOf at hskbs ⊢
      rw [← hsplit, List.filterMap_append] at hskbs
      exact (List.append_eq_nil_iff.mp hskbs).1
    unfold skbsOf at hpart ⊢
    rw [List.filterMap_append, hpart]
    rfl
  refine ⟨{ v with building := v.building.dropLast ++ [y] }, ?_⟩
  have hwin := h.window.set hi y
  refine { h with
    window := ?_
    in_use := ?_
    locals := h.locals
    builds := ⟨?_, hhidden.set_last hx hown, hskbs', ?_⟩ }
  · show Window blankEntry (setSkb s.ring entry p.skb) s.dirty.toNat _
    rw [hring, ← hset]
    exact hwin
  · intro z hz
    rw [← List.append_assoc] at hz
    rcases List.mem_append.mp hz with hz | hz
    · refine h.in_use z ?_
      rw [← hsplit, ← List.append_assoc]
      exact List.mem_append_left _ hz
    · rw [List.mem_singleton.mp hz]
      exact h.in_use x (List.mem_append_right _ (List.mem_of_getLast? hx))
  · rw [List.length_append, hdrop]
    rfl
  · intro z hz
    rw [List.getLast?_concat] at hz
    rw [← Option.some.inj hz]
    rfl

theorem shows_sentQueue {p : XmitLocals F}
    (h : ({ s with xmit := .sentQueue p } : TxRing F).Shows v) :
    ({ s with queuedBytes := s.queuedBytes + p.skb.len, xmit := .release p } : TxRing F).Shows v := by
  refine { h with locals := h.locals, bytes := ?_ }
  have hbytes := h.bytes
  simp only [bytesEarly, bytesLate] at hbytes ⊢
  omega

/-- The first descriptor of the packet goes to the hardware, and with it the whole packet. -/
theorem shows_release {p : XmitLocals F}
    (h : ({ s with xmit := .release p } : TxRing F).Shows v) :
    ∃ v', ({ s with
      ring := orOpts1 s.ring p.first (descOwn ||| firstFrag)
      sent := s.sent ++ [p.skb]
      xmit := .publish p } : TxRing F).Shows v' := by
  obtain ⟨-, hfirst⟩ : p.frags = p.skb.frags.length ∧ p.first = txEntry s.curTx := h.locals
  obtain ⟨hlen, hhidden, hskbs, hwhole⟩ := h.builds
  have hlen : v.building.length = p.frags + 1 := hlen
  obtain ⟨x, l, hb⟩ : ∃ x l, v.building = x :: l := by
    cases hb : v.building with
    | nil => rw [hb] at hlen; cases hlen
    | cons x l => exact ⟨x, l, rfl⟩
  rw [hb] at hlen hhidden hskbs hwhole
  let y : TxEntry F :=
    { x with desc := { x.desc with opts1 := x.desc.opts1 ||| (descOwn ||| firstFrag) } }
  have hcell : p.first = cell 256 (s.dirty.toNat + v.released.length) :=
    hfirst.trans (h.cur_cell_zero rfl)
  have hi : v.released.length < (v.released ++ v.building).length := by
    rw [hb, List.length_append]
    exact Nat.lt_add_of_pos_right (Nat.succ_pos _)
  have hread : s.ring p.first = x := by
    rw [hcell]
    refine (h.window.get hi).trans ?_
    simp [hb]
  have hring : orOpts1 s.ring p.first (descOwn ||| firstFrag) =
      Function.update s.ring (cell 256 (s.dirty.toNat + v.released.length)) y := by
    unfold orOpts1
    rw [hread, ← hcell]
  have hset : (v.released ++ v.building).set v.released.length y = v.released ++ y :: l := by
    rw [List.set_append_right _ _ le_rfl, Nat.sub_self, hb]
    rfl
  have hyown : y.owned = true := by
    have hbit : (descOwn ||| firstFrag).getLsbD 31 = true := by decide
    show hasBits (x.desc.opts1 ||| (descOwn ||| firstFrag)) descOwn = true
    rw [hasBits_descOwn, BitVec.getLsbD_or, hbit, Bool.or_true]
  have hskbs' : skbsOf (y :: l) = [p.skb] := hskbs
  have hroom := h.room
  have hres : ({ s with xmit := .release p } : TxRing F).reserved = p.frags + 1 := rfl
  have hnew : (v.released ++ y :: l).length = v.released.length + (p.frags + 1) := by
    rw [List.length_append, ← hlen]
    rfl
  have hcur := h.cur_eq
  have hz : s.curTx + BitVec.ofNat 32 0 = s.dirty + BitVec.ofNat 32 v.released.length := hcur
  rw [add_ofNat_zero] at hz
  have hdone := h.done_le
  have hall : skbsOf (v.released ++ y :: l) = skbsOf v.released ++ [p.skb] := by
    rw [← hskbs']
    exact List.filterMap_append ..
  refine ⟨⟨v.ahead, v.released ++ y :: l, v.done, []⟩, ?_⟩
  refine { h with
    window := ?_
    cur_eq := ?_
    unpublished_le := ?_
    room := ?_
    done_le := hdone.trans (by rw [hnew]; exact Nat.le_add_right _ _)
    returned := ?_
    waiting := ?_
    in_use := ?_
    locals := trivial
    builds := rfl
    whole := ?_
    fifo := ?_
    bytes := ?_ }
  · show Window blankEntry (orOpts1 s.ring _ _) s.dirty.toNat _
    rw [hring, List.append_nil, ← hset]
    exact h.window.set hi y
  · show s.curTx + BitVec.ofNat 32 (p.frags + 1) =
      s.dirty + BitVec.ofNat 32 (v.released ++ y :: l).length
    rw [hnew, hz, BitVec.add_assoc, ← BitVec.ofNat_add]
  · show p.frags + 1 ≤ (v.released ++ y :: l).length
    rw [hnew]
    exact Nat.le_add_left _ _
  · show v.ahead + (v.released ++ y :: l).length + 0 ≤ 256
    rw [hnew]
    omega
  · intro z hz
    refine h.returned z ?_
    show z ∈ v.released.take v.done
    have htake : (v.released ++ y :: l).take v.done = v.released.take v.done :=
      List.take_append_of_le_length hdone
    rw [← htake]
    exact hz
  · intro z hz
    have hdrop : (v.released ++ y :: l).drop v.done = v.released.drop v.done ++ y :: l :=
      List.drop_append_of_le_length hdone
    rw [hdrop] at hz
    rcases List.mem_append.mp hz with hz | hz
    · exact h.waiting z hz
    · rcases List.mem_cons.mp hz with hz | hz
      · rw [hz, hyown]
      · exact hhidden.2 z hz
  · intro z hz
    rw [List.append_nil] at hz
    rcases List.mem_append.mp hz with hz | hz
    · exact h.in_use z (List.mem_append_left _ hz)
    · rcases List.mem_cons.mp hz with hz | hz
      · rw [hz]
        exact h.in_use x (List.mem_append_right _ (by rw [hb]; exact List.mem_cons_self))
      · exact h.in_use z (List.mem_append_right _ (by rw [hb]; exact List.mem_cons_of_mem _ hz))
  · intro z hz
    have hz : z ∈ (v.released ++ y :: l).getLast? := hz
    rw [List.getLast?_append_of_ne_nil _ (List.cons_ne_nil _ _)] at hz
    cases hl : l with
    | nil =>
      rw [hl] at hz hwhole
      have hzy : y = z := Option.some.inj hz
      rw [← hzy]
      exact hwhole x rfl
    | cons u l' =>
      rw [hl, List.getLast?_cons_cons] at hz hwhole
      exact hwhole z hz
  · show s.sent ++ [p.skb] = s.freed ++ skbsOf (v.released ++ y :: l)
    have hfifo : s.sent = s.freed ++ skbsOf v.released := h.fifo
    rw [hall, hfifo, List.append_assoc]
  · have hbytes := h.bytes
    have hsum : bytesOf (skbsOf (v.released ++ y :: l)) = bytesOf (skbsOf v.released) + p.skb.len := by
      rw [hall]
      simp [bytesOf]
    simp only [bytesEarly, bytesLate] at hbytes ⊢
    show s.queuedBytes = _ + bytesOf (skbsOf (v.released ++ y :: l)) + 0
    omega

theorem shows_publish {p : XmitLocals F} (h : ({ s with xmit := .publish p } : TxRing F).Shows v) :
    ({ s with
      curTx := s.curTx + BitVec.ofNat 32 p.frags + 1
      xmit := .check } : TxRing F).Shows v := by
  refine { h with cur_eq := ?_, unpublished_le := Nat.zero_le _, locals := trivial }
  have hcur := h.cur_eq
  have hsum : s.curTx + BitVec.ofNat 32 p.frags + 1 + BitVec.ofNat 32 0 =
      s.curTx + BitVec.ofNat 32 (p.frags + 1) := by
    rw [add_ofNat_zero, BitVec.add_assoc, BitVec.ofNat_add]
    rfl
  exact hsum.trans hcur

/-! ## The statements of `rtl_tx` -/

/-- Clearing the first entry in use: `rtl_tx` has found it before `cur_tx` and given back. -/
theorem shows_clear {d : BitVec 32} {pkts bytes : ℕ}
    (h : ({ s with rtlTx := .loop d pkts bytes } : TxRing F).Shows v) (hcur : s.curTx ≠ d)
    (hown : (s.ring (txEntry d)).owned = false) :
    ∃ v', ({ s with
      ring := rtl8169UnmapTxSkb s.ring (txEntry d)
      freed := s.freed ++ (s.ring (txEntry d)).info.skb.toList
      rtlTx := .loop (d + 1) (pkts + (s.ring (txEntry d)).info.skb.toList.length)
        (bytes + bytesOf (s.ring (txEntry d)).info.skb.toList) } : TxRing F).Shows v' := by
  have hc : s.curTx + BitVec.ofNat 32 s.unpublished = d + BitVec.ofNat 32 v.released.length :=
    h.cur_eq
  have hu : s.unpublished ≤ v.released.length := h.unpublished_le
  have hlt : s.unpublished < v.released.length := by
    refine lt_of_le_of_ne hu fun heq => hcur ?_
    rw [heq] at hc
    have hsub := congrArg (fun c => c - BitVec.ofNat 32 v.released.length) hc
    simpa [BitVec.add_sub_cancel] using hsub
  obtain ⟨x, rest, hr⟩ : ∃ x rest, v.released = x :: rest := by
    cases hr : v.released with
    | nil => rw [hr] at hlt; cases hlt
    | cons x rest => exact ⟨x, rest, rfl⟩
  have hwin := h.window
  rw [hr, List.cons_append] at hwin
  have hread : s.ring (txEntry d) = x := hwin.front
  rw [hread] at hown ⊢
  have hdone : v.done ≠ 0 := by
    intro h0
    have hx : x.owned = true := by
      refine h.waiting x ?_
      rw [h0, hr]
      exact List.mem_cons_self
    rw [hown] at hx
    cases hx
  obtain ⟨k, hk⟩ := Nat.exists_eq_succ_of_ne_zero hdone
  have hlen : v.released.length = rest.length + 1 := by rw [hr]; rfl
  have hle := h.done_le
  have hskbs : skbsOf v.released = x.info.skb.toList ++ skbsOf rest := by
    rw [hr]
    unfold skbsOf
    cases hskb : x.info.skb <;> simp [hskb]
  refine ⟨⟨v.ahead + 1, rest, k, v.building⟩, ?_⟩
  refine { h with
    window := hwin.pop.congr_start (toNat_add_one_mod d)
    dirty_eq := ?_
    cur_eq := ?_
    unpublished_le := ?_
    room := ?_
    hw_eq := ?_
    done_le := ?_
    returned := ?_
    waiting := ?_
    in_use := ?_
    whole := ?_
    fifo := ?_
    bytes := ?_
    late := fun h0 => absurd h0 (Nat.succ_ne_zero _) }
  · have hd : d = s.dirtyTx + BitVec.ofNat 32 v.ahead := h.dirty_eq
    show d + 1 = s.dirtyTx + BitVec.ofNat 32 (v.ahead + 1)
    rw [BitVec.ofNat_add, ← BitVec.add_assoc, ← hd]
    rfl
  · show s.curTx + BitVec.ofNat 32 s.unpublished = d + 1 + BitVec.ofNat 32 rest.length
    rw [hc, hlen, Nat.add_comm, BitVec.ofNat_add, BitVec.add_assoc]
    rfl
  · show s.unpublished ≤ rest.length
    omega
  · have hroom : v.ahead + v.released.length + s.reserved ≤ 256 := h.room
    show v.ahead + 1 + rest.length + s.reserved ≤ 256
    omega
  · have hhw : s.hwNext = d + BitVec.ofNat 32 v.done := h.hw_eq
    show s.hwNext = d + 1 + BitVec.ofNat 32 k
    rw [hhw, hk, Nat.succ_eq_one_add, BitVec.ofNat_add, BitVec.add_assoc]
    rfl
  · show k ≤ rest.length
    omega
  · intro y hy
    refine h.returned y ?_
    rw [hk, hr]
    exact List.mem_cons_of_mem _ hy
  · intro y hy
    refine h.waiting y ?_
    rw [hk, hr]
    exact hy
  · intro y hy
    refine h.in_use y ?_
    rw [hr]
    exact List.mem_cons_of_mem _ hy
  · intro y hy
    refine h.whole y ?_
    have hy : y ∈ rest.getLast? := hy
    cases hrest : rest with
    | nil => rw [hrest] at hy; cases hy
    | cons z l =>
      rw [hrest] at hy
      rw [hr, hrest, List.getLast?_cons_cons]
      exact hy
  · have hfifo : s.sent = s.freed ++ skbsOf v.released := h.fifo
    show s.sent = s.freed ++ x.info.skb.toList ++ skbsOf rest
    rw [hfifo, hskbs, List.append_assoc]
  · have hbytes : s.queuedBytes =
        s.completedBytes + bytes + bytesOf (skbsOf v.released) + s.bytesEarly := h.bytes
    have hsum : bytesOf (skbsOf v.released) = bytesOf x.info.skb.toList + bytesOf (skbsOf rest) := by
      rw [hskbs]
      unfold bytesOf
      rw [List.map_append, List.sum_append]
    show s.queuedBytes = s.completedBytes + (bytes + bytesOf x.info.skb.toList) +
      bytesOf (skbsOf rest) + s.bytesEarly
    omega

theorem rtlTxLoop_clear {d : BitVec 32} (hcur : s.curTx ≠ d)
    (hown : (s.ring (txEntry d)).owned = false) (pkts bytes : ℕ) :
    s.rtlTxLoop d pkts bytes = { s with
      ring := rtl8169UnmapTxSkb s.ring (txEntry d)
      freed := s.freed ++ (s.ring (txEntry d)).info.skb.toList
      rtlTx := .loop (d + 1) (pkts + (s.ring (txEntry d)).info.skb.toList.length)
        (bytes + bytesOf (s.ring (txEntry d)).info.skb.toList) } := by
  unfold rtlTxLoop
  exact if_pos ⟨hcur, by rw [hown]; exact Bool.false_ne_true⟩

theorem rtlTxLoop_end {d : BitVec 32}
    (h : s.curTx = d ∨ (s.ring (txEntry d)).owned = true) (pkts bytes : ℕ) :
    s.rtlTxLoop d pkts bytes =
      { s with rtlTx := if s.dirtyTx ≠ d then .completed d pkts bytes else .idle } := by
  unfold rtlTxLoop
  refine if_neg fun hc => ?_
  rcases h with h | h
  · exact hc.1 h
  · exact hc.2 h

/-- At the end of the loop; where nothing was cleared, nothing is counted. -/
theorem shows_loopEnd {d : BitVec 32} {pkts bytes : ℕ}
    (h : ({ s with rtlTx := .loop d pkts bytes } : TxRing F).Shows v) :
    ({ s with
      rtlTx := if s.dirtyTx ≠ d then .completed d pkts bytes else .idle } : TxRing F).Shows v := by
  by_cases hd : s.dirtyTx ≠ d
  · rw [if_pos hd]
    exact { h with }
  · rw [if_neg hd]
    obtain rfl : s.dirtyTx = d := not_not.mp hd
    have hahead : v.ahead = 0 := h.ahead_eq rfl
    have hlate : bytes = 0 := h.late hahead
    subst hlate
    exact { h with }

theorem shows_rtlTxLoop (h : s.Shows v) {d : BitVec 32} {pkts bytes : ℕ}
    (hpc : s.rtlTx = .loop d pkts bytes) : ∃ v', (s.rtlTxLoop d pkts bytes).Shows v' := by
  rw [← with_rtlTx hpc] at h
  by_cases hcur : s.curTx = d
  · rw [rtlTxLoop_end (Or.inl hcur)]
    exact ⟨v, shows_loopEnd h⟩
  · cases hown : (s.ring (txEntry d)).owned with
    | true =>
      rw [rtlTxLoop_end (Or.inr hown)]
      exact ⟨v, shows_loopEnd h⟩
    | false =>
      rw [rtlTxLoop_clear hcur hown]
      exact shows_clear h hcur hown

theorem shows_completed {d : BitVec 32} {pkts bytes : ℕ}
    (h : ({ s with rtlTx := .completed d pkts bytes } : TxRing F).Shows v) :
    ({ s with
      completedBytes := s.completedBytes + bytes
      txPackets := s.txPackets + pkts
      txBytes := s.txBytes + bytes
      rtlTx := .store d } : TxRing F).Shows v :=
  { h with late := fun _ => rfl }

theorem shows_store {d : BitVec 32} (h : ({ s with rtlTx := .store d } : TxRing F).Shows v) :
    ({ s with dirtyTx := d, rtlTx := .stopped } : TxRing F).Shows { v with ahead := 0 } := by
  refine { h with
    dirty_eq := (add_ofNat_zero d).symm
    room := ?_
    late := fun _ => rfl }
  have hroom : v.ahead + v.released.length + s.reserved ≤ 256 := h.room
  show 0 + v.released.length + s.reserved ≤ 256
  omega

/-! ## The hardware and the reset -/

theorem map_info_set {l : List (TxEntry F)} {i : ℕ} (hi : i < l.length) {y : TxEntry F}
    (hy : y.info = l[i].info) : (l.set i y).map (·.info) = l.map (·.info) := by
  have hi' : i < (l.map (·.info)).length := by rwa [List.length_map]
  have hget : l[i].info = (l.map (·.info))[i] := by rw [List.getElem_map]
  rw [List.map_set, hy, hget, List.set_getElem_self]

theorem skbsOf_eq_map (l : List (TxEntry F)) : skbsOf l = (l.map (·.info)).filterMap (·.skb) := by
  unfold skbsOf
  rw [List.filterMap_map]
  rfl

theorem hwNext_eq (h : ¬ s.reset.hwOff = true) : s.hwNext = s.hwTx := by
  unfold hwNext
  split
  case h_1 hpc => exact absurd (by rw [hpc]; rfl) h
  case h_2 hpc => exact absurd (by rw [hpc]; rfl) h
  case h_3 => rfl

/-- The hardware only finds a descriptor of its own among those released to it. -/
theorem Shows.hw_released (h : s.Shows v) (hown : (s.ring (txEntry s.hwNext)).owned = true) :
    v.done < v.released.length := by
  rw [h.hw_cell] at hown
  have hle := h.done_le
  have hroom := h.room
  by_contra hge
  have hdone : v.done = v.released.length := by omega
  by_cases hfull : v.released.length = 256
  · -- The hardware has been round the ring: it is at the front entry, already given back.
    obtain ⟨x, rest, hr⟩ : ∃ x rest, v.released = x :: rest := by
      cases hr : v.released with
      | nil => rw [hr] at hfull; cases hfull
      | cons x rest => exact ⟨x, rest, rfl⟩
    have hwin := h.window
    rw [hr, List.cons_append] at hwin
    rw [hdone, hfull, cell_add_self, hwin.front] at hown
    have hx := h.returned x (by rw [hdone, hr, List.take_length]; exact List.mem_cons_self)
    rw [hx] at hown
    cases hown
  · have hlt : v.done < 256 := by omega
    rw [h.window.reads _ hlt, hdone] at hown
    have hfree : ((v.released ++ v.building).getD v.released.length blankEntry).owned = false := by
      cases hb : v.building with
      | nil =>
        rw [List.append_nil, List.getD_eq_default _ _ le_rfl, blankEntry_owned]
      | cons x l =>
        have hhidden : Hidden (x :: l) := by
          have hbuild := h.builds
          rw [hb] at hbuild
          unfold Builds at hbuild
          split at hbuild
          · exact hbuild.2.2.2.1
          · exact hbuild.2.2.1
          · exact hbuild.2.1
          · exact hbuild.2.1
          · cases hbuild
        rw [List.getD_append_right _ _ _ _ le_rfl, Nat.sub_self]
        exact hhidden.1
    rw [hfree] at hown
    cases hown

theorem shows_transmit (h : s.Shows v) {written : BitVec 32} {t : TxRing F}
    (ht : s.transmit written = some t) : ∃ v', t.Shows v' := by
  simp only [transmit, Option.ite_none_right_eq_some, Option.some.injEq] at ht
  obtain ⟨⟨hon, hown⟩, rfl⟩ := ht
  have hnext : s.hwNext = s.hwTx := hwNext_eq hon
  have hlt := h.hw_released (hnext.symm ▸ hown)
  have hi : v.done < (v.released ++ v.building).length := by
    rw [List.length_append]
    omega
  have hcell := h.hw_cell
  rw [hnext] at hcell
  have hread : s.ring (txEntry s.hwTx) = v.released[v.done] := by
    rw [hcell, h.window.get hi, List.getElem_append_left hlt]
  let y : TxEntry F :=
    { s.ring (txEntry s.hwTx) with desc :=
      { (s.ring (txEntry s.hwTx)).desc with opts1 := written &&& ~~~descOwn } }
  have hyinfo : y.info = v.released[v.done].info := by
    rw [← hread]
  have hyown : y.owned = false := by
    have hbit : (~~~descOwn).getLsbD 31 = false := by decide
    show hasBits (written &&& ~~~descOwn) descOwn = false
    rw [hasBits_descOwn, BitVec.getLsbD_and, hbit, Bool.and_false]
  have hmap := map_info_set hlt hyinfo
  have hset : (v.released ++ v.building).set v.done y = v.released.set v.done y ++ v.building :=
    List.set_append_left _ _ hlt
  have hsplit : v.released.set v.done y = v.released.take v.done ++ y :: v.released.drop (v.done + 1) :=
    List.set_eq_take_append_cons_drop ..|>.trans (if_pos hlt)
  have hskbs : skbsOf (v.released.set v.done y) = skbsOf v.released := by
    rw [skbsOf_eq_map, hmap, ← skbsOf_eq_map]
  have hlen : (v.released.set v.done y).length = v.released.length := List.length_set
  have hmem : ∀ x ∈ v.released.set v.done y, ∃ x' ∈ v.released, x'.info = x.info := by
    intro x hx
    have : x.info ∈ (v.released.set v.done y).map (·.info) := List.mem_map_of_mem hx
    rw [hmap] at this
    exact List.mem_map.mp this
  refine ⟨{ v with released := v.released.set v.done y, done := v.done + 1 }, ?_⟩
  refine { h with
    window := ?_
    cur_eq := ?_
    unpublished_le := ?_
    room := ?_
    hw_eq := ?_
    done_le := ?_
    returned := ?_
    waiting := ?_
    in_use := ?_
    whole := ?_
    fifo := ?_
    bytes := ?_ }
  · show Window blankEntry (Function.update s.ring (txEntry s.hwTx) y) s.dirty.toNat _
    rw [hcell, ← hset]
    exact h.window.set hi y
  · show s.curTx + BitVec.ofNat 32 s.unpublished =
      s.dirty + BitVec.ofNat 32 (v.released.set v.done y).length
    rw [hlen]
    exact h.cur_eq
  · exact h.unpublished_le.trans hlen.ge
  · show v.ahead + (v.released.set v.done y).length + s.reserved ≤ 256
    rw [hlen]
    exact h.room
  · rw [hwNext_eq]
    · show s.hwTx + 1 = s.dirty + BitVec.ofNat 32 (v.done + 1)
      rw [← hnext, h.hw_eq, BitVec.ofNat_add, BitVec.add_assoc]
      rfl
    · exact hon
  · show v.done + 1 ≤ (v.released.set v.done y).length
    rw [hlen]
    exact hlt
  · intro x hx
    have hx : x ∈ (v.released.set v.done y).take (v.done + 1) := hx
    have htake : (v.released.take v.done).length = v.done := List.length_take_of_le hlt.le
    rw [hsplit, List.take_append, htake, Nat.add_sub_cancel_left] at hx
    rcases List.mem_append.mp hx with hx | hx
    · exact h.returned x (List.mem_of_mem_take hx)
    · rw [List.mem_singleton.mp hx]
      exact hyown
  · intro x hx
    have hx : x ∈ (v.released.set v.done y).drop (v.done + 1) := hx
    rw [List.drop_set_of_lt (Nat.lt_succ_self _)] at hx
    refine h.waiting x ?_
    rw [List.drop_eq_getElem_cons hlt]
    exact List.mem_cons_of_mem _ hx
  · intro x hx
    rcases List.mem_append.mp hx with hx | hx
    · obtain ⟨x', hx', hinfo⟩ := hmem x hx
      rw [← hinfo]
      exact h.in_use x' (List.mem_append_left _ hx')
    · exact h.in_use x (List.mem_append_right _ hx)
  · intro x hx
    have hlast : (v.released.set v.done y).getLast?.map (·.info) =
        v.released.getLast?.map (·.info) := by
      rw [← List.getLast?_map, hmap, List.getLast?_map]
    have hx : (v.released.set v.done y).getLast? = some x := hx
    rw [hx] at hlast
    obtain ⟨x', hx', hinfo⟩ := Option.map_eq_some_iff.mp hlast.symm
    have hinfo : x'.info = x.info := hinfo
    rw [← hinfo]
    exact h.whole x' hx'
  · show s.sent = s.freed ++ skbsOf (v.released.set v.done y)
    rw [hskbs]
    exact h.fifo
  · show s.queuedBytes = s.completedBytes + s.bytesLate +
      bytesOf (skbsOf (v.released.set v.done y)) + s.bytesEarly
    rw [hskbs]
    exact h.bytes

/-- `rtl8169_tx_clear` consumes what the ring still holds. -/
theorem cleared_txClear (h : ({ s with xmit := .idle, rtlTx := .idle } : TxRing F).Shows v)
    (hx : s.xmit = .idle) (hr : s.rtlTx = .idle) :
    ({ s.rtl8169TxClear with reset := .initIndexes } : TxRing F).Cleared := by
  have hempty : v.building = [] := h.builds
  have hq : v.released ++ v.building = v.released := by rw [hempty, List.append_nil]
  have hwin : Window blankEntry s.ring s.dirtyTx.toNat v.released := hq ▸ h.window
  have hin : ∀ x ∈ v.released, x.info.len ≠ 0 := hq ▸ h.in_use
  obtain ⟨hread, hcons⟩ := clearRange_spec hwin hin 0 256 le_rfl
  rw [add_ofNat_zero] at hread hcons
  have hall : ((v.released.drop 0).take 256) = v.released :=
    List.take_of_length_le hwin.fits
  rw [hall] at hcons
  have hblank : ∀ c, (rtl8169TxClearRange s.ring s.dirtyTx 256).1 c = blankEntry := by
    intro c
    obtain ⟨i, hi, rfl⟩ := exists_cell_add s.dirtyTx.toNat c
    rw [hread i hi, if_pos ⟨Nat.zero_le i, by omega⟩]
  have hfifo : s.sent = s.freed ++ skbsOf v.released := h.fifo
  unfold rtl8169TxClear
  generalize rtl8169TxClearRange s.ring s.dirtyTx 256 = cleared at hcons hblank ⊢
  refine ⟨hblank, hx, hr, ?_, rfl, rfl⟩
  show s.sent = s.freed ++ cleared.2
  rw [hcons]
  exact hfifo

/-- With its counters back at 0 the cleared ring is an empty queue again. -/
theorem shows_initIndexes (h : s.Cleared) :
    ({ s with curTx := 0, dirtyTx := 0, reset := .napiEnable } : TxRing F).Shows ⟨0, [], 0, []⟩ :=
  shows_blank h.blank h.xmit h.rtlTx rfl rfl h.fifo (h.queued.trans h.completed.symm)

/-! ## Every step, every run -/

theorem shows_startXmit (h : ({ s with xmit := .idle } : TxRing F).Shows v) {skb : TxSkb F}
    {setup : Option TxSetup} (hfrags : changesFragments (.startXmit skb setup) = false) :
    (s.startXmit skb setup).Shows v := by
  refine { h with locals := ⟨rfl, ?_⟩ }
  rintro su rfl
  exact not_not.mp (of_decide_eq_false hfrags)

theorem shows_dmaMap (h : s.Shows v) {m : Option (BitVec 64)} {t : TxRing F}
    (hst : s.dmaMap m = some t) : ∃ v', t.Shows v' := by
  simp only [dmaMap] at hst
  split at hst
  case h_1 x hpc =>
    rw [← with_xmit hpc] at h
    cases m with
    | none =>
      obtain rfl := Option.some.inj hst
      exact ⟨v, { h with
        room := (Nat.add_le_add_left (Nat.zero_le _) _).trans h.room
        locals := trivial
        builds := h.builds }⟩
    | some m =>
      obtain rfl := Option.some.inj hst
      exact shows_mapHead h m
  case h_2 x entry curFrag hpc =>
    rw [← with_xmit hpc] at h
    cases m with
    | none =>
      obtain rfl := Option.some.inj hst
      exact ⟨_, shows_unwind h⟩
    | some m =>
      obtain rfl := Option.some.inj hst
      exact shows_mapFrag h m
  case h_3 => cases hst

theorem shows_xmit (h : s.Shows v) {t : TxRing F} (hst : s.xmitStep = some t) :
    ∃ v', t.Shows v' := by
  simp only [xmitStep] at hst
  split at hst
  case h_1 skb setup first hpc =>
    rw [← with_xmit hpc] at h
    obtain rfl := Option.some.inj hst
    exact ⟨v, shows_testSlots h⟩
  case h_2 hpc =>
    rw [← with_xmit hpc] at h
    obtain rfl := Option.some.inj hst
    exact ⟨v, { h with }⟩
  case h_3 p entry hpc =>
    rw [← with_xmit hpc] at h
    obtain rfl := Option.some.inj hst
    exact shows_last h
  case h_4 p hpc =>
    rw [← with_xmit hpc] at h
    obtain rfl := Option.some.inj hst
    exact ⟨v, shows_sentQueue h⟩
  case h_5 p hpc =>
    rw [← with_xmit hpc] at h
    obtain rfl := Option.some.inj hst
    exact shows_release h
  case h_6 p hpc =>
    rw [← with_xmit hpc] at h
    obtain rfl := Option.some.inj hst
    exact ⟨v, shows_publish h⟩
  case h_7 hpc =>
    rw [← with_xmit hpc] at h
    obtain rfl := Option.some.inj hst
    cases s.slotsAvail <;> exact ⟨v, { h with }⟩
  case h_8 hpc =>
    rw [← with_xmit hpc] at h
    obtain rfl := Option.some.inj hst
    exact ⟨v, { h with }⟩
  case h_9 hpc =>
    rw [← with_xmit hpc] at h
    obtain rfl := Option.some.inj hst
    exact ⟨v, { h with }⟩
  case h_10 => cases hst

theorem shows_rtlTx (h : s.Shows v) {t : TxRing F} (hst : s.rtlTxStep = some t) :
    ∃ v', t.Shows v' := by
  simp only [rtlTxStep] at hst
  split at hst
  case h_1 => cases hst
  case h_2 d pkts bytes hpc =>
    obtain rfl := Option.some.inj hst
    exact shows_rtlTxLoop h hpc
  case h_3 d pkts bytes hpc =>
    rw [← with_rtlTx hpc] at h
    obtain rfl := Option.some.inj hst
    exact ⟨v, shows_completed h⟩
  case h_4 d hpc =>
    rw [← with_rtlTx hpc] at h
    obtain rfl := Option.some.inj hst
    exact ⟨_, shows_store h⟩
  case h_5 hpc =>
    rw [← with_rtlTx hpc] at h
    obtain rfl := Option.some.inj hst
    cases s.queueStopped <;> exact ⟨v, { h with }⟩
  case h_6 hpc =>
    rw [← with_rtlTx hpc] at h
    obtain rfl := Option.some.inj hst
    cases s.slotsAvail <;> exact ⟨v, { h with }⟩
  case h_7 hpc =>
    rw [← with_rtlTx hpc] at h
    obtain rfl := Option.some.inj hst
    exact ⟨v, { h with }⟩

theorem inv_reset (h : s.Inv) (hr : s.ResetInv) {t : TxRing F} (hst : s.resetStep = some t) :
    t.Inv := by
  simp only [resetStep] at hst
  rcases h with ⟨hpc, v, h⟩ | ⟨hpc, h⟩
  case inr =>
    rw [hpc] at hst
    obtain rfl := Option.some.inj hst
    exact Or.inl ⟨(fun h => by cases h), _, shows_initIndexes h⟩
  split at hst
  case h_1 => cases hst
  case h_2 | h_4 =>
    rw [Option.ite_none_right_eq_some] at hst
    obtain rfl := Option.some.inj hst.2
    rename_i hpc'
    rw [← with_reset hpc'] at h
    exact Or.inl ⟨(fun h => by cases h), v, { h with }⟩
  case h_6 hpc' =>
    obtain rfl := Option.some.inj hst
    have hx : s.xmit = .idle := hr.alone (by rw [hpc']; rfl)
    have hrtl : s.rtlTx = .idle := hr.napi (by rw [hpc']; rfl)
    have h' : ({ s with xmit := .idle, rtlTx := .idle } : TxRing F).Shows v := by
      rw [← with_rtlTx hrtl, ← with_xmit hx] at h
      exact h
    exact Or.inr ⟨rfl, cleared_txClear h' hx hrtl⟩
  case h_7 hpc' => exact absurd hpc' hpc
  all_goals
    obtain rfl := Option.some.inj hst
    rename_i hpc'
    rw [← with_reset hpc'] at h
    exact Or.inl ⟨(fun h => by cases h), v, { h with }⟩

/-- While the ring is cleared and the counters are the old ones, the reset alone goes on. -/
theorem eq_reset_of_initIndexes (h : s.Cleared) (hr : s.ResetInv) (hpc : s.reset = .initIndexes)
    {t : TxRing F} {e : TxEvent F} (hst : step s e = some t) : e = .reset := by
  cases e with
  | startXmit skb setup =>
    have hq : s.queueStopped = true := hr.stopped (by rw [hpc]; nofun)
    rw [step, h.xmit, hq] at hst
    cases hst
  | dmaMap m =>
    rw [step, dmaMap, h.xmit] at hst
    cases hst
  | xmit =>
    rw [step, xmitStep, h.xmit] at hst
    cases hst
  | startRtlTx =>
    rw [step, hpc, if_neg fun hon => hon.2 rfl] at hst
    cases hst
  | rtlTx =>
    rw [step, rtlTxStep, h.rtlTx] at hst
    cases hst
  | transmit written =>
    have hoff : s.transmit written = none := if_neg fun hon => hon.1 (by rw [hpc]; rfl)
    rw [step, hoff] at hst
    cases hst
  | startReset =>
    have hbusy : ¬ s.reset = .idle := by
      rw [hpc]
      nofun
    rw [step, if_neg hbusy] at hst
    cases hst
  | reset => rfl

theorem inv_step {t : TxRing F} {e : TxEvent F} (h : s.Inv) (hr : s.ResetInv)
    (hfrags : changesFragments e = false) (hst : step s e = some t) : t.Inv := by
  rcases h with ⟨hpc, v, h⟩ | ⟨hpc, h⟩
  case inr =>
    obtain rfl := eq_reset_of_initIndexes h hr hpc hst
    exact inv_reset (Or.inr ⟨hpc, h⟩) hr hst
  cases e with
  | reset => exact inv_reset (Or.inl ⟨hpc, v, h⟩) hr hst
  | startReset =>
    simp only [step, Option.ite_none_right_eq_some, Option.some.injEq] at hst
    obtain ⟨hidle, rfl⟩ := hst
    rw [← with_reset hidle] at h
    exact Or.inl ⟨(fun h => by cases h), v, { h with }⟩
  | startXmit skb setup =>
    refine Or.inl ⟨ne_initIndexes_of_step hst rfl hpc, v, ?_⟩
    simp only [step] at hst
    split at hst
    case h_2 => cases hst
    case h_1 hx =>
      rw [Option.ite_none_left_eq_some] at hst
      obtain rfl := Option.some.inj hst.2
      rw [← with_xmit hx] at h
      exact shows_startXmit h hfrags
  | dmaMap m => exact Or.inl ⟨ne_initIndexes_of_step hst rfl hpc, shows_dmaMap h hst⟩
  | xmit => exact Or.inl ⟨ne_initIndexes_of_step hst rfl hpc, shows_xmit h hst⟩
  | startRtlTx =>
    simp only [step, Option.ite_none_right_eq_some, Option.some.injEq] at hst
    obtain ⟨⟨hidle, -⟩, rfl⟩ := hst
    rw [← with_rtlTx hidle] at h
    exact Or.inl ⟨hpc, v, { h with }⟩
  | rtlTx => exact Or.inl ⟨ne_initIndexes_of_step hst rfl hpc, shows_rtlTx h hst⟩
  | transmit written =>
    exact Or.inl ⟨ne_initIndexes_of_step hst rfl hpc, shows_transmit h hst⟩

/-- A checksum set-up leaves the number of fragments as it was, and nobody starts the queue during a
reset. -/
def Regular (s : TxRing F) (e : TxEvent F) : Prop :=
  changesFragments e = false ∧ s.undoesStop e = false

instance (s : TxRing F) (e : TxEvent F) : Decidable (s.Regular e) :=
  inferInstanceAs (Decidable (changesFragments e = false ∧ s.undoesStop e = false))

theorem inv_reachable {es : List (TxEvent F)} (h : run step (init F) es = some s)
    (hes : StepsMeet step Regular (init F) es) :
    s.Inv ∧ s.ResetInv ∧ ∃ ahead used, s.Counters ahead used := by
  refine run_invariant_of_stepsMeet
    (I := fun s : TxRing F => s.Inv ∧ s.ResetInv ∧ ∃ ahead used, s.Counters ahead used) ?_
    ⟨Or.inl ⟨(fun h => by cases h), _, shows_init⟩, resetInv_init, 0, 0, counters_init⟩ hes h
  rintro s e t ⟨hi, hr, hc⟩ ⟨hfrags, hundo⟩ hst
  exact ⟨inv_step hi hr hfrags hst, resetInv_step hr hundo hst, counters_step hc hr hst⟩

end TxRing

end CrosRt
