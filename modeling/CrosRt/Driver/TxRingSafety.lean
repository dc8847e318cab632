import Mathlib.Algebra.BigOperators.Group.Multiset.Basic
import Mathlib.Tactic.Abel
import CrosRt.Driver.TxRingRuns

/-! # Conservation and safety of the transmit ring

What the queue view says about whole runs: socket buffers are consumed once and in the order sent,
the byte queue limits never see more bytes completed than queued, no entry in use is overwritten, and
the hardware never comes to the end of what it was given inside a packet.
-/

namespace CrosRt
set_option autoImplicit false

open LabelledRuns RingWindow

variable {F : Type*}

namespace TxRing

variable {s : TxRing F} {v : TxView F}

/-! ## Conservation -/

/-- The socket buffer `start_xmit` is working on and has not released. -/
def current (s : TxRing F) : Multiset (TxSkb F) :=
  match s.xmit with
  | .called skb _ _ | .full skb => {skb}
  | .mapHead x | .mapFrag x _ _ | .last x _ | .sentQueue x | .release x => {x.skb}
  | _ => 0

/-- Every socket buffer `start_xmit` was called with; the checksum set-up makes none another. -/
def taken (s : TxRing F) : Multiset F :=
  Multiset.map TxSkb.skb (↑s.sent + ↑s.dropped + ↑s.refused + s.current)

def startedBy : TxEvent F → Multiset F
  | .startXmit skb _ => {skb.skb}
  | _ => 0

def started (es : List (TxEvent F)) : Multiset F := (es.map startedBy).sum

theorem coe_concat (l : List (TxSkb F)) (skb : TxSkb F) :
    ((l ++ [skb] : List (TxSkb F)) : Multiset (TxSkb F)) = ↑l + {skb} := rfl

theorem taken_dmaMap {m : Option (BitVec 64)} {t : TxRing F} (hst : s.dmaMap m = some t) :
    t.taken = s.taken := by
  obtain ⟨x, ring, hpc, ht⟩ := dmaMap_cases hst
  have hcur : s.current = {x.skb} := by
    rcases hpc with hpc | ⟨_, _, hpc⟩ <;> rw [current, hpc]
  have hafter : ↑t.sent + ↑t.dropped + ↑t.refused + t.current =
      (↑s.sent + ↑s.dropped + ↑s.refused + {x.skb} : Multiset (TxSkb F)) := by
    rcases ht with rfl | ⟨_, rfl⟩ | ⟨_, _, rfl⟩
    · simp only [current, errDma0, coe_concat]
      abel
    · rfl
    · rfl
  rw [taken, taken, hafter, hcur]

theorem taken_xmit {t : TxRing F} (hst : s.xmitStep = some t) : t.taken = s.taken := by
  simp only [xmitStep] at hst
  split at hst
  case h_1 skb setup first hpc =>
    obtain rfl := Option.some.inj hst
    rcases testSlots_cases s skb setup first with ⟨-, -, ht⟩ | ⟨su, -, -, ht⟩ | ⟨-, ht⟩ <;> rw [ht]
    · simp only [taken, current, errDma0, hpc, coe_concat]
      congr 1
      abel
    · simp only [taken, current, hpc, Multiset.map_add, Multiset.map_singleton, TxSkb.afterSetup]
    · simp only [taken, current, hpc]
  case h_7 hpc =>
    obtain rfl := Option.some.inj hst
    cases s.slotsAvail <;> simp [taken, current, hpc]
  case h_10 => cases hst
  all_goals
    obtain rfl := Option.some.inj hst
    rename_i hpc
    simp only [taken, current, hpc, coe_concat]
    try (congr 1; abel)

theorem taken_frame {t : TxRing F} {e : TxEvent F} (hst : step s e = some t)
    (he : e.ofCall = false) : t.taken = s.taken := by
  obtain ⟨hx, hsent, hdropped, hrefused⟩ := call_eq_of_step hst he
  have hcur : t.current = s.current := by rw [current, current, hx]
  rw [taken, taken, hsent, hdropped, hrefused, hcur]

theorem taken_step {t : TxRing F} {e : TxEvent F} (hst : step s e = some t) :
    t.taken = s.taken + startedBy e := by
  cases e with
  | startXmit skb setup =>
    simp only [step] at hst
    split at hst
    case h_2 => cases hst
    case h_1 hpc =>
      rw [Option.ite_none_left_eq_some] at hst
      obtain rfl := Option.some.inj hst.2
      simp only [taken, current, startXmit, startedBy, hpc, add_zero, Multiset.map_add,
        Multiset.map_singleton]
  | dmaMap m => exact (taken_dmaMap hst).trans (add_zero _).symm
  | xmit => exact (taken_xmit hst).trans (add_zero _).symm
  | startRtlTx | rtlTx | transmit | startReset | reset =>
    exact (taken_frame hst rfl).trans (add_zero _).symm

theorem taken_run {t : TxRing F} {es : List (TxEvent F)} (h : run step s es = some t) :
    t.taken = s.taken + started es := by
  induction es generalizing s with
  | nil =>
    obtain rfl := Option.some.inj h
    exact (add_zero _).symm
  | cons e es ih =>
    obtain ⟨u, hu, ht⟩ := run_cons_eq_some.mp h
    rw [ih ht, taken_step hu, add_assoc]
    rfl

/-- **Transmit conservation.** In every run in which the checksum set-up leaves the number of fragments
as it was and nobody starts the queue during a reset: every socket buffer given to `start_xmit` is sent,
dropped, refused or in its hands; those sent are consumed once and in order; and the bytes queued are
those completed with those still to be counted. -/
theorem transmit_conservation {es : List (TxEvent F)} (h : run step (init F) es = some s)
    (hes : StepsMeet step Regular (init F) es) :
    started es = Multiset.map TxSkb.skb
        (↑s.sent + ↑s.dropped + ↑s.refused + s.current : Multiset (TxSkb F)) ∧
      s.freed <+: s.sent ∧
      s.queuedBytes = s.completedBytes + s.bytesLate +
        bytesOf (s.sent.drop s.freed.length) + s.bytesEarly ∧
      (s.rtlTx = .idle → s.xmit = .idle → s.dirtyTx = s.curTx →
        s.freed = s.sent ∧ s.completedBytes = s.queuedBytes) := by
  have htaken := taken_run h
  have hinit : (init F).taken = 0 := rfl
  rw [hinit, zero_add] at htaken
  refine ⟨htaken.symm, ?_⟩
  obtain ⟨⟨-, v, hv⟩ | ⟨-, hc⟩, -, -⟩ := inv_reachable h hes
  case inr =>
    have hlate : s.bytesLate = 0 := by rw [bytesLate, hc.rtlTx]
    have hearly : s.bytesEarly = 0 := by rw [bytesEarly, hc.xmit]
    refine ⟨hc.fifo ▸ List.prefix_rfl, ?_, fun _ _ _ => ⟨hc.fifo.symm, ?_⟩⟩
    · rw [hc.queued, hc.completed, hlate, hearly, hc.fifo, List.drop_length]
      rfl
    · rw [hc.queued, hc.completed]
  have hwaiting : s.sent.drop s.freed.length = skbsOf v.released := by
    rw [hv.fifo, List.drop_left]
  refine ⟨?_, ?_, ?_⟩
  · rw [hv.fifo]
    exact List.prefix_append _ _
  · rw [hwaiting]
    exact hv.bytes
  · intro hr hx hcur
    have hempty : v.released = [] := by
      have hc := hv.cur_eq
      have hu : s.unpublished = 0 := by rw [unpublished, hx]
      have hd : s.dirty = s.dirtyTx := by rw [dirty, hr]
      rw [hu, add_ofNat_zero, hd, ← hcur] at hc
      have hval := congrArg BitVec.toNat hc
      rw [BitVec.toNat_add, BitVec.toNat_ofNat] at hval
      have hroom := hv.room
      have hlt := s.dirtyTx.isLt
      exact List.length_eq_zero_iff.mp (by omega)
    have hfifo := hv.fifo
    have hbytes := hv.bytes
    have hlate : s.bytesLate = 0 := by rw [bytesLate, hr]
    have hearly : s.bytesEarly = 0 := by rw [bytesEarly, hx]
    rw [hempty] at hfifo hbytes
    rw [hlate, hearly] at hbytes
    exact ⟨hfifo.symm ▸ (List.append_nil _).symm, hbytes.symm⟩

/-- After one packet and a reset of the empty ring everything sent has been consumed. -/
theorem transmit_conservation_one_packet :
    ∃ s, run step (init ℕ) (onePacket ++ .startReset :: List.replicate 9 .reset) = some s ∧
      s.freed = s.sent ∧ s.completedBytes = s.queuedBytes := by
  obtain ⟨s, hs, hrtl, hxmit, hcur⟩ : ∃ s,
      run step (init ℕ) (onePacket ++ .startReset :: List.replicate 9 .reset) = some s ∧
        s.rtlTx = .idle ∧ s.xmit = .idle ∧ s.dirtyTx = s.curTx := ⟨_, rfl, rfl, rfl, rfl⟩
  have hes : StepsMeet step Regular (init ℕ)
      (onePacket ++ .startReset :: List.replicate 9 .reset) := by decide
  exact ⟨s, hs, (transmit_conservation hs hes).2.2.2 hrtl hxmit hcur⟩

/-! ## What is overwritten, what the hardware finds -/

/-- The entry the next `rtl8169_tx_map` writes. -/
def mapTarget (s : TxRing F) : Option (Fin 256) :=
  match s.xmit with
  | .mapHead x => some x.first
  | .mapFrag _ entry _ => some (entry + 1)
  | _ => none

theorem mapTarget_blank (h : s.Shows v) {entry : Fin 256} (he : entry ∈ s.mapTarget) :
    s.ring entry = blankEntry := by
  have hfree : ∀ i, (v.released ++ v.building).length ≤ i → i < 256 →
      s.ring (cell 256 (s.dirty.toNat + i)) = blankEntry := by
    intro i hle hlt
    rw [h.window.reads i hlt, List.getD_eq_default _ _ hle]
  have hroom := h.room
  unfold mapTarget at he
  split at he
  case h_1 x hpc =>
    rw [← with_xmit hpc] at h hroom
    obtain rfl := Option.some.inj he
    obtain ⟨-, hfirst⟩ : x.frags = x.skb.frags.length ∧ x.first = txEntry s.curTx := h.locals
    have hempty : v.building = [] := h.builds
    have hcell := h.cur_cell_zero rfl
    rw [hempty, List.append_nil] at hfree
    have hres : ({ s with xmit := .mapHead x } : TxRing F).reserved = x.frags + 1 := rfl
    rw [hfirst]
    exact hcell ▸ hfree _ le_rfl (by omega)
  case h_2 x last curFrag hpc =>
    rw [← with_xmit hpc] at h hroom
    obtain rfl := Option.some.inj he
    obtain ⟨hlt, hlen, hat, -, -⟩ := h.builds
    have hlt : curFrag < x.frags := hlt
    have hat : last = txEntry (s.curTx + BitVec.ofNat 32 curFrag) := hat
    have hcell := h.cur_cell rfl (curFrag + 1)
    have hnext : last + 1 = txEntry (s.curTx + BitVec.ofNat 32 (curFrag + 1)) := by
      rw [hat, txEntry_add, txEntry_add]
      exact cell_add_fin _ 1
    have hres : ({ s with xmit := .mapFrag x last curFrag } : TxRing F).reserved = x.frags + 1 := rfl
    rw [hnext]
    refine hcell ▸ hfree _ ?_ (by omega)
    rw [List.length_append, hlen]
  case h_3 => cases he

/-- **Safety of the ring.** In every such run `start_xmit` only writes blank entries; where the next
descriptor is the hardware's own, so are all up to one that ends a packet; and between two packets
everything outside `dirty_tx .. cur_tx` is blank, so a failed mapping has left nothing behind. -/
theorem transmit_ring_safe {es : List (TxEvent F)} (h : run step (init F) es = some s)
    (hes : StepsMeet step Regular (init F) es) :
    (∀ entry ∈ s.mapTarget, s.ring entry = blankEntry) ∧
      ((s.ring (txEntry s.hwNext)).owned = true → ∃ k < 256,
        (∀ j ≤ k, (s.ring (txEntry (s.hwNext + BitVec.ofNat 32 j))).owned = true) ∧
          (s.ring (txEntry (s.hwNext + BitVec.ofNat 32 k))).info.skb.isSome = true) ∧
      (s.curTx - s.dirtyTx).toNat ≤ 256 ∧
      (s.xmit = .idle → ∀ k, (s.curTx - s.dirty).toNat ≤ k → k < 256 →
        s.ring (txEntry (s.dirty + BitVec.ofNat 32 k)) = blankEntry) := by
  obtain ⟨hinv, -, ahead, used, hcount⟩ := inv_reachable h hes
  have hused : (s.curTx - s.dirtyTx).toNat ≤ 256 := by
    have hroom := hcount.room
    rw [hcount.curTx_sub_dirtyTx]
    omega
  obtain ⟨-, v, hv⟩ | ⟨-, hc⟩ := hinv
  case inr =>
    refine ⟨fun entry he => ?_, fun hown => ?_, hused, fun _ k _ _ => hc.blank _⟩
    · rw [mapTarget, hc.xmit] at he
      cases he
    · rw [hc.blank, blankEntry_owned] at hown
      cases hown
  have hroom := hv.room
  have hdone := hv.done_le
  have hcur : s.curTx - s.dirty = BitVec.ofNat 32 (v.released.length - s.unpublished) := by
    rw [hv.curTx_eq, BitVec.add_comm, BitVec.add_sub_cancel]
  refine ⟨fun entry he => mapTarget_blank hv he, ?_, hused, ?_⟩
  · intro hown
    have hlt := hv.hw_released hown
    have hpos : ∀ j, txEntry (s.hwNext + BitVec.ofNat 32 j) =
        cell 256 (s.dirty.toNat + (v.done + j)) := by
      intro j
      rw [hv.hw_eq, BitVec.add_assoc, ← BitVec.ofNat_add, txEntry_add]
    have hget : ∀ j (hj : v.done + j < v.released.length),
        s.ring (txEntry (s.hwNext + BitVec.ofNat 32 j)) = v.released[v.done + j] := by
      intro j hj
      have hj' : v.done + j < (v.released ++ v.building).length := by
        rw [List.length_append]
        omega
      rw [hpos j, hv.window.get hj', List.getElem_append_left hj]
    refine ⟨v.released.length - 1 - v.done, by omega, ?_, ?_⟩
    · intro j hj
      have hj' : v.done + j < v.released.length := by omega
      rw [hget j hj']
      refine hv.waiting _ ?_
      have hj'' : j < (v.released.drop v.done).length := by
        rw [List.length_drop]
        omega
      have hdrop : v.released[v.done + j] = (v.released.drop v.done)[j] := by
        rw [List.getElem_drop]
      rw [hdrop]
      exact List.getElem_mem _
    · have hlast : v.done + (v.released.length - 1 - v.done) = v.released.length - 1 := by omega
      rw [hget _ (by omega)]
      refine hv.whole _ ?_
      rw [List.getLast?_eq_getElem?]
      simp only [hlast]
      exact List.getElem?_eq_getElem _
  · intro hx k hle hlt
    have hu : s.unpublished = 0 := by rw [unpublished, hx]
    have hempty : v.building = [] := by
      have hbuild := hv.builds
      rw [← with_xmit hx] at hbuild
      exact hbuild
    rw [hcur, hu, BitVec.toNat_ofNat] at hle
    rw [txEntry_add, hv.window.reads k hlt, hempty, List.append_nil]
    exact List.getD_eq_default _ _ (by omega)

/-- A packet of two descriptors just released: both are the hardware's. -/
theorem transmit_ring_safe_one_packet :
    ∃ s, run step (init ℕ) (onePacket.take 7) = some s ∧ ∃ k < 256,
      (∀ j ≤ k, (s.ring (txEntry (s.hwNext + BitVec.ofNat 32 j))).owned = true) ∧
        (s.ring (txEntry (s.hwNext + BitVec.ofNat 32 k))).info.skb.isSome = true := by
  obtain ⟨s, hs, hown⟩ : ∃ s, run step (init ℕ) (onePacket.take 7) = some s ∧
      (s.ring (txEntry s.hwNext)).owned = true := ⟨_, rfl, by decide⟩
  exact ⟨s, hs, (transmit_ring_safe hs (by decide)).2.1 hown⟩

/-- 30 bytes and a fragment of 20. -/
def shortParts : TxParts where
  headLen := 30
  frags := [20]
  frags_le := by decide
  len_ne_zero := by simp
  len_control := by
    simp only [List.mem_cons, List.not_mem_nil, or_false, forall_eq_or_imp, forall_eq]
    decide

/-- The same linear and padded to `ETH_ZLEN`. -/
def paddedParts : TxParts where
  headLen := 60
  frags := []
  frags_le := by decide
  len_ne_zero := by simp
  len_control := by
    simp only [List.mem_cons, List.not_mem_nil, or_false, forall_eq]
    decide

/-- Where the set-up pads a socket buffer with a fragment, a packet is released half built: its first descriptor is the
hardware's, the one behind it, which ends the packet, is not. -/
example :
    (run step (init ℕ) [.startXmit ⟨shortParts, 7⟩ (some ⟨⟨0, 0, by decide⟩, paddedParts⟩),
      .xmit, .dmaMap (some 0), .xmit, .xmit, .xmit]).map
        (fun s => ((s.ring 0).owned, (s.ring 1).owned, (s.ring 1).info.skb.isSome)) =
      some (true, false, true) := by
  decide

end TxRing

end CrosRt
