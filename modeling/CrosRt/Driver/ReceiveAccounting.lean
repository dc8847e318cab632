import CrosRt.Driver.Receive

/-! # What becomes of every descriptor

One round of `rtl_rx` has one of three outcomes for its descriptor, and its outcome depends on the
descriptor, the buffer and the allocation only. A pass is the outcomes of consecutive descriptors, in
ring order (`RxPass`), and over runs in which the two servers empty the non-real-time queue at
arbitrary times, what was diverted is what was served followed by what still waits.
-/

namespace CrosRt
set_option autoImplicit false

open Kernel

inductive RxOutcome
  | dropped
  | gro (skb : Skb)
  | nonRt (skb : Skb)

namespace RxOutcome

def toGro : RxOutcome → Option Skb
  | .gro skb => some skb
  | _ => none

def toNonRt : RxOutcome → Option Skb
  | .nonRt skb => some skb
  | _ => none

end RxOutcome

def rxSelection (cfg : RxConfig) (skb : Skb) : RxOutcome :=
  if cfg.krtdOn ∧ udpDest cfg skb = 7778 then .nonRt skb else .gro skb

def rxOutcome (cfg : RxConfig) (desc : RxDesc) (rxBuf : RxBuffer) (room : Option RxBuffer) :
    RxOutcome :=
  if hasBits desc.opts1 rxRES && releasedOnError cfg desc.opts1 then .dropped
  else if fragmentedFrame desc.opts1 then .dropped
  else
    match room with
    | none => .dropped
    | some room => rxSelection cfg (rxSkb cfg desc rxBuf room)

/-- The same for the `k`-th round of a pass over the ring of `tp`, the first allocation being number
`count`. -/
def rxOutcomeAt (cfg : RxConfig) (alloc : ℕ → Option RxBuffer) (count : ℕ) (tp : Receiver)
    (k : ℕ) : RxOutcome :=
  let entry := rxEntry (tp.curRx + BitVec.ofNat 32 k)
  rxOutcome cfg (tp.rxDescArray entry) (tp.rxDatabuff entry) (alloc (count + k))

/-! ## One round -/

theorem rxSelect_spec (cfg : RxConfig) (tp : Receiver) (skb : Skb) :
    (rxSelect cfg tp skb).nonRt = tp.nonRt ++ (rxSelection cfg skb).toNonRt.toList ∧
      (rxSelect cfg tp skb).groReceived = tp.groReceived ++ (rxSelection cfg skb).toGro.toList ∧
      (rxSelect cfg tp skb).rxDescArray = tp.rxDescArray ∧
      (rxSelect cfg tp skb).rxDatabuff = tp.rxDatabuff ∧
      (rxSelect cfg tp skb).curRx = tp.curRx := by
  unfold rxSelect rxSelection
  by_cases hon : cfg.krtdOn = true
  · rw [if_pos hon]
    by_cases hport : udpDest cfg skb = 7778
    · rw [if_pos hport, if_pos ⟨hon, hport⟩]
      exact ⟨rfl, (List.append_nil _).symm, rfl, rfl, rfl⟩
    · rw [if_neg hport, if_neg fun h => hport h.2]
      exact ⟨(List.append_nil _).symm, rfl, rfl, rfl, rfl⟩
  · rw [if_neg hon, if_neg fun h => hon h.1]
    exact ⟨(List.append_nil _).symm, rfl, rfl, rfl, rfl⟩

/-- **One outcome for a descriptor.** The round appends to the queue its outcome names, and leaves
ring, buffers and index alone. -/
theorem rxFrame_spec (cfg : RxConfig) (tp : Receiver) (desc : RxDesc) (rxBuf : RxBuffer)
    (room : Option RxBuffer) :
    (rxFrame cfg tp desc rxBuf room).nonRt =
        tp.nonRt ++ (rxOutcome cfg desc rxBuf room).toNonRt.toList ∧
      (rxFrame cfg tp desc rxBuf room).groReceived =
        tp.groReceived ++ (rxOutcome cfg desc rxBuf room).toGro.toList ∧
      (rxFrame cfg tp desc rxBuf room).rxDescArray = tp.rxDescArray ∧
      (rxFrame cfg tp desc rxBuf room).rxDatabuff = tp.rxDatabuff ∧
      (rxFrame cfg tp desc rxBuf room).curRx = tp.curRx := by
  unfold rxFrame rxOutcome
  by_cases herr : (hasBits desc.opts1 rxRES && releasedOnError cfg desc.opts1) = true
  · simp [herr, RxOutcome.toNonRt, RxOutcome.toGro]
  by_cases hfrag : fragmentedFrame desc.opts1 = true
  · simp [herr, hfrag, RxOutcome.toNonRt, RxOutcome.toGro]
  cases room with
  | none => simp [herr, hfrag, RxOutcome.toNonRt, RxOutcome.toGro]
  | some room =>
    simp only [herr, hfrag, if_false, Bool.false_eq_true]
    exact rxSelect_spec cfg tp (rxSkb cfg desc rxBuf room)

/-! ## Ring positions -/

theorem rxEntry_add (curRx : BitVec 32) (k : ℕ) :
    (rxEntry (curRx + BitVec.ofNat 32 k)).val = (curRx.toNat + k) % 256 := by
  simp only [rxEntry, BitVec.toNat_add, BitVec.toNat_ofNat]
  omega

/-- Fewer than 256 consecutive rounds look at different descriptors. -/
theorem rxEntry_add_inj {curRx : BitVec 32} {i j : ℕ} (hi : i < 256) (hj : j < 256)
    (h : rxEntry (curRx + BitVec.ofNat 32 i) = rxEntry (curRx + BitVec.ofNat 32 j)) : i = j := by
  have hval := congrArg Fin.val h
  rw [rxEntry_add, rxEntry_add] at hval
  omega

theorem rxEntry_add_256 (curRx : BitVec 32) :
    rxEntry (curRx + BitVec.ofNat 32 256) = rxEntry curRx := by
  apply Fin.ext
  rw [rxEntry_add]
  simp [rxEntry]

theorem add_one_add_ofNat (curRx : BitVec 32) (k : ℕ) :
    curRx + 1 + BitVec.ofNat 32 k = curRx + BitVec.ofNat 32 (k + 1) := by
  rw [BitVec.ofNat_add, BitVec.add_assoc, BitVec.add_comm 1]
  rfl

/-! ## A pass -/

/-- `n` consecutive descriptors from `cur_rx` on, none owned by the hardware, have been consumed:
each is given back, the others are as they were, and the outcomes are those of the descriptors in
ring order. -/
structure RxPass (cfg : RxConfig) (alloc : ℕ → Option RxBuffer) (count n : ℕ) (tp tp' : Receiver) :
    Prop where
  le_ring : n ≤ 256
  curRx : tp'.curRx = tp.curRx + BitVec.ofNat 32 n
  ready : ∀ k < n,
    hasBits (tp.rxDescArray (rxEntry (tp.curRx + BitVec.ofNat 32 k))).opts1 descOwn = false
  given : ∀ k < n, tp'.rxDescArray (rxEntry (tp.curRx + BitVec.ofNat 32 k)) =
    rtl8169MarkToAsic (tp.rxDescArray (rxEntry (tp.curRx + BitVec.ofNat 32 k)))
  others : ∀ e, (∀ k < n, rxEntry (tp.curRx + BitVec.ofNat 32 k) ≠ e) →
    tp'.rxDescArray e = tp.rxDescArray e
  databuff : tp'.rxDatabuff = tp.rxDatabuff
  nonRt : tp'.nonRt =
    tp.nonRt ++ (List.range n).filterMap fun k => (rxOutcomeAt cfg alloc count tp k).toNonRt
  gro : tp'.groReceived =
    tp.groReceived ++ (List.range n).filterMap fun k => (rxOutcomeAt cfg alloc count tp k).toGro

theorem RxPass.nil (cfg : RxConfig) (alloc : ℕ → Option RxBuffer) (count : ℕ) (tp : Receiver) :
    RxPass cfg alloc count 0 tp tp where
  le_ring := by omega
  curRx := by simp
  ready := fun k hk => absurd hk (Nat.not_lt_zero k)
  given := fun k hk => absurd hk (Nat.not_lt_zero k)
  others := fun _ _ => rfl
  databuff := rfl
  nonRt := by simp
  gro := by simp

def rxRound (cfg : RxConfig) (alloc : ℕ → Option RxBuffer) (count : ℕ) (tp : Receiver) : Receiver :=
  let entry := rxEntry tp.curRx
  let tp' := rxFrame cfg tp (tp.rxDescArray entry) (tp.rxDatabuff entry) (alloc count)
  { tp' with
    rxDescArray := Function.update tp'.rxDescArray entry
      (rtl8169MarkToAsic (tp'.rxDescArray entry))
    curRx := tp'.curRx + 1 }

theorem range_filterMap_succ {A : Type*} (f : ℕ → Option A) (n : ℕ) :
    (List.range (n + 1)).filterMap f = (f 0).toList ++ (List.range n).filterMap fun k => f (k + 1) := by
  rw [List.range_succ_eq_map, List.filterMap_cons]
  cases f 0 <;> simp [List.filterMap_map]

theorem rxRound_spec (cfg : RxConfig) (alloc : ℕ → Option RxBuffer) (count : ℕ) (tp : Receiver) :
    (rxRound cfg alloc count tp).curRx = tp.curRx + 1 ∧
      (rxRound cfg alloc count tp).rxDescArray = Function.update tp.rxDescArray (rxEntry tp.curRx)
        (rtl8169MarkToAsic (tp.rxDescArray (rxEntry tp.curRx))) ∧
      (rxRound cfg alloc count tp).rxDatabuff = tp.rxDatabuff ∧
      (rxRound cfg alloc count tp).nonRt =
        tp.nonRt ++ (rxOutcomeAt cfg alloc count tp 0).toNonRt.toList ∧
      (rxRound cfg alloc count tp).groReceived =
        tp.groReceived ++ (rxOutcomeAt cfg alloc count tp 0).toGro.toList := by
  have hzero : tp.curRx + BitVec.ofNat 32 0 = tp.curRx := by simp
  obtain ⟨hnonRt, hgro, hring, hbuf, hcur⟩ := rxFrame_spec cfg tp
    (tp.rxDescArray (rxEntry tp.curRx)) (tp.rxDatabuff (rxEntry tp.curRx)) (alloc count)
  simp only [rxRound, rxOutcomeAt, hzero, Nat.add_zero]
  rw [hring, hcur]
  exact ⟨rfl, rfl, hbuf, hnonRt, hgro⟩

theorem rxLoop_succ (cfg : RxConfig) (alloc : ℕ → Option RxBuffer) (rounds count : ℕ)
    (tp : Receiver) :
    rxLoop cfg alloc (rounds + 1) count tp =
      if hasBits (tp.rxDescArray (rxEntry tp.curRx)).opts1 descOwn then (count, tp)
      else rxLoop cfg alloc rounds (count + 1) (rxRound cfg alloc count tp) := rfl

theorem RxPass.cons {cfg : RxConfig} {alloc : ℕ → Option RxBuffer} {count n : ℕ}
    {tp tp' : Receiver}
    (hready : hasBits (tp.rxDescArray (rxEntry tp.curRx)).opts1 descOwn = false)
    (h : RxPass cfg alloc (count + 1) n (rxRound cfg alloc count tp) tp') :
    RxPass cfg alloc count (n + 1) tp tp' := by
  obtain ⟨hcur, hring, hbuf, hnonRt, hgro⟩ := rxRound_spec cfg alloc count tp
  have hentry : ∀ k, (rxRound cfg alloc count tp).curRx + BitVec.ofNat 32 k =
      tp.curRx + BitVec.ofNat 32 (k + 1) := by
    intro k
    rw [hcur, add_one_add_ofNat]
  have hzero : tp.curRx + BitVec.ofNat 32 0 = tp.curRx := by simp
  -- The descriptor just given back is owned, so the pass does not come to it again.
  have hne : ∀ k < n, rxEntry (tp.curRx + BitVec.ofNat 32 (k + 1)) ≠ rxEntry tp.curRx := by
    intro k hk heq
    have hown := h.ready k hk
    rw [hentry, heq, hring, Function.update_self, markToAsic_owned] at hown
    cases hown
  have hsame : ∀ k < n, (rxRound cfg alloc count tp).rxDescArray
      (rxEntry (tp.curRx + BitVec.ofNat 32 (k + 1))) =
        tp.rxDescArray (rxEntry (tp.curRx + BitVec.ofNat 32 (k + 1))) := by
    intro k hk
    rw [hring, Function.update_of_ne (hne k hk)]
  have houtcome : ∀ k < n, rxOutcomeAt cfg alloc (count + 1) (rxRound cfg alloc count tp) k =
      rxOutcomeAt cfg alloc count tp (k + 1) := by
    intro k hk
    simp only [rxOutcomeAt]
    rw [hentry, hsame k hk, hbuf, Nat.add_assoc, Nat.add_comm 1]
  have hfilter : ∀ f : RxOutcome → Option Skb,
      ((List.range n).filterMap fun k =>
        f (rxOutcomeAt cfg alloc (count + 1) (rxRound cfg alloc count tp) k)) =
      (List.range n).filterMap fun k => f (rxOutcomeAt cfg alloc count tp (k + 1)) := by
    intro f
    refine List.filterMap_congr fun k hk => ?_
    rw [houtcome k (List.mem_range.mp hk)]
  refine
    { le_ring := ?_, curRx := ?_, ready := ?_, given := ?_, others := ?_, databuff := ?_,
      nonRt := ?_, gro := ?_ }
  · by_contra hle
    have h256 := hne 255 (by omega)
    exact h256 (rxEntry_add_256 tp.curRx)
  · rw [h.curRx, hentry]
  · rintro (_ | k) hk
    · rw [hzero]
      exact hready
    · rw [← hsame k (by omega), ← hentry]
      exact h.ready k (by omega)
  · rintro (_ | k) hk
    · rw [hzero, h.others _ fun k hk => by rw [hentry]; exact hne k hk, hring,
        Function.update_self]
    · rw [← hsame k (by omega), ← hentry]
      exact h.given k (by omega)
  · intro e he
    have hfirst : e ≠ rxEntry tp.curRx := by
      have := he 0 (by omega)
      rw [hzero] at this
      exact this.symm
    rw [h.others e fun k hk => by rw [hentry]; exact he (k + 1) (by omega), hring,
      Function.update_of_ne hfirst]
  · rw [h.databuff, hbuf]
  · rw [h.nonRt, hnonRt, hfilter RxOutcome.toNonRt, List.append_assoc,
      range_filterMap_succ fun k => (rxOutcomeAt cfg alloc count tp k).toNonRt]
  · rw [h.gro, hgro, hfilter RxOutcome.toGro, List.append_assoc,
      range_filterMap_succ fun k => (rxOutcomeAt cfg alloc count tp k).toGro]

/-- **The loop of `rtl_rx`.** It consumes consecutive descriptors and stops at the budget or at a
descriptor the hardware owns. -/
theorem rxLoop_spec (cfg : RxConfig) (alloc : ℕ → Option RxBuffer) :
    ∀ (rounds count : ℕ) (tp : Receiver), ∃ n ≤ rounds,
      (rxLoop cfg alloc rounds count tp).1 = count + n ∧
      RxPass cfg alloc count n tp (rxLoop cfg alloc rounds count tp).2 ∧
      (n = rounds ∨ hasBits ((rxLoop cfg alloc rounds count tp).2.rxDescArray
        (rxEntry (rxLoop cfg alloc rounds count tp).2.curRx)).opts1 descOwn = true)
  | 0, count, tp => ⟨0, le_refl 0, rfl, RxPass.nil cfg alloc count tp, Or.inl rfl⟩
  | rounds + 1, count, tp => by
      rw [rxLoop_succ]
      by_cases hown : hasBits (tp.rxDescArray (rxEntry tp.curRx)).opts1 descOwn = true
      · rw [if_pos hown]
        exact ⟨0, Nat.zero_le _, rfl, RxPass.nil cfg alloc count tp, Or.inr hown⟩
      · rw [if_neg hown]
        obtain ⟨n, hn, hcount, hpass, hstop⟩ :=
          rxLoop_spec cfg alloc rounds (count + 1) (rxRound cfg alloc count tp)
        refine ⟨n + 1, by omega, by omega, hpass.cons (by simpa using hown), ?_⟩
        exact hstop.imp_left fun h => by omega

/-- What a call of `rtl_rx` that returns `n` has done to the ring and to the queues: a pass that
stopped at the budget or at a descriptor of the hardware, over different descriptors, each of which
belongs to the hardware again with its `RingEnd` bit kept. -/
structure RtlRxSpec (cfg : RxConfig) (alloc : ℕ → Option RxBuffer) (budget : ℤ) (n : ℕ)
    (tp tp' : Receiver) : Prop where
  pass : RxPass cfg alloc 0 n tp tp'
  le_budget : n ≤ budget.toNat
  stop : n = budget.toNat ∨
    hasBits (tp'.rxDescArray (rxEntry tp'.curRx)).opts1 descOwn = true
  distinct : ∀ i < n, ∀ j < n,
    rxEntry (tp.curRx + BitVec.ofNat 32 i) = rxEntry (tp.curRx + BitVec.ofNat 32 j) → i = j
  owned : ∀ k < n,
    hasBits (tp'.rxDescArray (rxEntry (tp.curRx + BitVec.ofNat 32 k))).opts1 descOwn = true
  ringEnd : ∀ k < n,
    (tp'.rxDescArray (rxEntry (tp.curRx + BitVec.ofNat 32 k))).opts1 &&& CrosRt.ringEnd =
      (tp.rxDescArray (rxEntry (tp.curRx + BitVec.ofNat 32 k))).opts1 &&& CrosRt.ringEnd

theorem rtlRx_spec (cfg : RxConfig) (alloc : ℕ → Option RxBuffer) (budget : ℤ) (tp : Receiver) :
    RtlRxSpec cfg alloc budget (rtlRx cfg alloc budget tp).1 tp (rtlRx cfg alloc budget tp).2 := by
  obtain ⟨n, hn, hcount, hpass, hstop⟩ := rxLoop_spec cfg alloc budget.toNat 0 tp
  have hret : (rtlRx cfg alloc budget tp).1 = n := by
    rw [Nat.zero_add] at hcount
    exact hcount
  rw [hret]
  -- The packet counter that is added at the end is none of the fields of a pass.
  have hpass' : RxPass cfg alloc 0 n tp (rtlRx cfg alloc budget tp).2 :=
    ⟨hpass.le_ring, hpass.curRx, hpass.ready, hpass.given, hpass.others, hpass.databuff,
      hpass.nonRt, hpass.gro⟩
  refine ⟨hpass', hn, hstop, fun i hi j hj h => ?_, fun k hk => ?_, fun k hk => ?_⟩
  · have hle := hpass.le_ring
    exact rxEntry_add_inj (by omega) (by omega) h
  · rw [hpass'.given k hk, markToAsic_owned]
  · rw [hpass'.given k hk, markToAsic_ringEnd]

/-! ## Conservation over runs -/

/-- The receive side with the frames diverted so far and the frames the two servers have handed to
`napi_gro_receive`. -/
structure RxHistory where
  tp : Receiver
  diverted : List Skb
  served : List Skb

inductive RxCall
  | rtlRx (cfg : RxConfig) (alloc : ℕ → Option RxBuffer) (budget : ℤ)
  | hardware (rxDescArray : Fin 256 → RxDesc) (rxDatabuff : Fin 256 → RxBuffer)
  | nonRtPoll
  | nonRtPlPoll (period util : ℤ)

namespace RxHistory

/-- One call. The diverted frames are read off the descriptors that `rtl_rx` consumes. -/
def call (h : RxHistory) : RxCall → RxHistory
  | .rtlRx cfg alloc budget =>
      let pass := rtlRx cfg alloc budget h.tp
      { h with
        tp := pass.2
        diverted := h.diverted ++
          (List.range pass.1).filterMap fun k => (rxOutcomeAt cfg alloc 0 h.tp k).toNonRt }
  | .hardware rxDescArray rxDatabuff =>
      { h with tp := { h.tp with rxDescArray := rxDescArray, rxDatabuff := rxDatabuff } }
  | .nonRtPoll =>
      let polled := CrosRt.nonRtPoll h.tp.nonRt
      { h with tp := { h.tp with nonRt := polled.nonRt }, served := h.served ++ polled.delivered }
  | .nonRtPlPoll period util =>
      let polled := CrosRt.nonRtPlPoll h.tp.nonRt period util
      { h with tp := { h.tp with nonRt := polled.nonRt }, served := h.served ++ polled.delivered }

def after (tp : Receiver) (calls : List RxCall) : RxHistory := calls.foldl call ⟨tp, [], []⟩

/-- What was diverted, behind what waited at the start, is what was served and what waits. -/
def Conserved (waiting : List Skb) (h : RxHistory) : Prop :=
  waiting ++ h.diverted = h.served ++ h.tp.nonRt

theorem conserved_call {waiting : List Skb} {h : RxHistory} (hc : h.Conserved waiting)
    (c : RxCall) : (h.call c).Conserved waiting := by
  unfold Conserved at hc ⊢
  cases c with
  | rtlRx cfg alloc budget =>
    simp only [call]
    rw [(rtlRx_spec cfg alloc budget h.tp).pass.nonRt, ← List.append_assoc, hc, List.append_assoc]
  | hardware rxDescArray rxDatabuff => exact hc
  | nonRtPoll =>
    simp only [call]
    rw [List.append_assoc, nonRtPoll_append, hc]
  | nonRtPlPoll period util =>
    simp only [call]
    rw [List.append_assoc, nonRtPlPoll_append, hc]

theorem conserved_after (tp : Receiver) (calls : List RxCall) :
    (after tp calls).Conserved tp.nonRt := by
  induction calls using List.reverseRecOn with
  | nil => simp [after, Conserved]
  | append_singleton calls c ih =>
    rw [after, List.foldl_concat]
    exact conserved_call ih c

/-- **Conservation and order of the receive path.** Every call of `rtl_rx` is a pass over
consecutive descriptors with one outcome each, and over every run the frames diverted to
`tp->non_rt`, in ring order, are those the two servers have handed on followed by those that
wait. -/
theorem receive_conservation (cfg : RxConfig) (alloc : ℕ → Option RxBuffer) (budget : ℤ)
    (tp : Receiver) (calls : List RxCall) :
    RtlRxSpec cfg alloc budget (rtlRx cfg alloc budget tp).1 tp (rtlRx cfg alloc budget tp).2 ∧
      tp.nonRt ++ (after tp calls).diverted = (after tp calls).served ++ (after tp calls).tp.nonRt :=
  ⟨rtlRx_spec cfg alloc budget tp, conserved_after tp calls⟩

end RxHistory

end CrosRt
