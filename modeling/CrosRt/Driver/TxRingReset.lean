import CrosRt.Driver.TxRingView

/-! # The counters of the transmit ring and its reset

What holds of `cur_tx`, `dirty_tx` and the program points alone. `rtl_reset_work` stops the queue, waits
for the poll with `napi_disable` and for a call of `start_xmit` with `synchronize_net`; so it has the ring
to itself when it clears it, unless `start_xmit` or `rtl_tx` starts the queue again in the meantime.
-/

namespace CrosRt
set_option autoImplicit false

open LabelledRuns RingWindow

variable {F : Type*}

/-- From the end of the grace period to the wake-up. -/
def ResetPc.alone : ResetPc → Bool
  | .hwReset | .txClear | .initIndexes | .napiEnable | .hwStart | .wake => true
  | _ => false

/-- A reset or one of its statements. -/
def TxEvent.ofReset : TxEvent F → Bool
  | .startReset | .reset => true
  | _ => false

/-- A call of `start_xmit` or one of its statements. -/
def TxEvent.ofCall : TxEvent F → Bool
  | .startXmit _ _ | .dmaMap _ | .xmit => true
  | _ => false

namespace TxRing

variable {s : TxRing F}

theorem with_xmit {pc : XmitPc F} (h : s.xmit = pc) : { s with xmit := pc } = s := by
  subst h; rfl

theorem with_rtlTx {pc : RtlTxPc} (h : s.rtlTx = pc) : { s with rtlTx := pc } = s := by
  subst h; rfl

theorem with_reset {pc : ResetPc} (h : s.reset = pc) : { s with reset := pc } = s := by
  subst h; rfl

/-- `start_xmit` or `rtl_tx` starts the queue. -/
def startsQueue (s : TxRing F) : TxEvent F → Bool
  | .xmit =>
      match s.xmit with
      | .recheck => s.slotsAvail
      | _ => false
  | .rtlTx => decide (s.rtlTx = .wake)
  | _ => false

/-- A step that starts the queue while a reset wants it stopped. -/
def undoesStop (s : TxRing F) (e : TxEvent F) : Bool :=
  decide (s.reset ≠ .idle) && s.startsQueue e

theorem startsQueue_of_undoesStop {e : TxEvent F} (h : s.undoesStop e = false)
    (hr : s.reset ≠ .idle) : s.startsQueue e = false := by
  rwa [undoesStop, decide_eq_true hr, Bool.true_and] at h

/-! ## What a step changes -/

/-- A mapping changes the ring, and goes on with the packet or drops it. -/
theorem dmaMap_cases {m : Option (BitVec 64)} {t : TxRing F} (h : s.dmaMap m = some t) :
    ∃ x ring, (s.xmit = .mapHead x ∨ ∃ entry k, s.xmit = .mapFrag x entry k) ∧
      (t = ({ s with ring := ring } : TxRing F).errDma0 x.skb ∨
        (∃ entry, t = { s with ring := ring, xmit := .last x entry }) ∨
        ∃ entry k, t = { s with ring := ring, xmit := .mapFrag x entry k }) := by
  simp only [dmaMap] at h
  split at h
  case h_1 x hpc =>
    cases m with
    | none =>
      obtain rfl := Option.some.inj h
      exact ⟨x, s.ring, Or.inl hpc, Or.inl rfl⟩
    | some m =>
      obtain rfl := Option.some.inj h
      refine ⟨x, rtl8169TxMap s.ring x.opts x.skb.headLen m x.first false, Or.inl hpc, Or.inr ?_⟩
      unfold xmitFrags
      split
      · exact Or.inl ⟨_, rfl⟩
      · split
        · exact Or.inr ⟨_, _, rfl⟩
        · exact Or.inl ⟨_, rfl⟩
  case h_2 x entry k hpc =>
    cases m with
    | none =>
      obtain rfl := Option.some.inj h
      exact ⟨x, _, Or.inr ⟨entry, k, hpc⟩, Or.inl rfl⟩
    | some m =>
      obtain rfl := Option.some.inj h
      refine ⟨x, rtl8169TxMap s.ring x.opts (x.skb.frags.getD k 0) m (entry + 1) true,
        Or.inr ⟨entry, k, hpc⟩, Or.inr ?_⟩
      unfold xmitFrags
      split
      · exact Or.inr ⟨_, _, rfl⟩
      · exact Or.inl ⟨_, rfl⟩
  case h_3 => cases h

/-- The test of the slots only moves the call on. -/
theorem testSlots_cases (s : TxRing F) (skb : TxSkb F) (setup : Option TxSetup) (first : Fin 256) :
    (s.slotsAvail = true ∧ setup = none ∧ s.testSlots skb setup first = s.errDma0 skb) ∨
      (∃ su, s.slotsAvail = true ∧ setup = some su ∧ s.testSlots skb setup first =
        { s with xmit := .mapHead ⟨skb.afterSetup su, su.opts, skb.frags.length, first⟩ }) ∨
      (s.slotsAvail = false ∧ s.testSlots skb setup first = { s with xmit := .full skb }) := by
  unfold testSlots
  cases hs : s.slotsAvail with
  | true =>
    cases setup with
    | none => exact Or.inl ⟨rfl, rfl, rfl⟩
    | some su => exact Or.inr (Or.inl ⟨su, rfl, rfl, rfl⟩)
  | false => exact Or.inr (Or.inr ⟨rfl, rfl⟩)

/-- A statement of `rtl_tx` leaves the call of `start_xmit` and the reset alone, and the queue but for its
wake-up. -/
theorem rtlTx_frame {t : TxRing F} (hst : s.rtlTxStep = some t) :
    (t.reset = s.reset ∧ t.calls = s.calls ∧
        (s.rtlTx ≠ .wake → t.queueStopped = s.queueStopped)) ∧
      t.xmit = s.xmit ∧ t.sent = s.sent ∧ t.dropped = s.dropped ∧ t.refused = s.refused := by
  simp only [rtlTxStep] at hst
  split at hst
  case h_1 => cases hst
  case h_2 d pkts bytes hpc =>
    obtain rfl := Option.some.inj hst
    unfold rtlTxLoop
    dsimp only
    split <;> exact ⟨⟨rfl, rfl, fun _ => rfl⟩, rfl, rfl, rfl, rfl⟩
  case h_7 hpc =>
    obtain rfl := Option.some.inj hst
    exact ⟨⟨rfl, rfl, fun hne => absurd hpc hne⟩, rfl, rfl, rfl, rfl⟩
  all_goals
    obtain rfl := Option.some.inj hst
    exact ⟨⟨rfl, rfl, fun _ => rfl⟩, rfl, rfl, rfl, rfl⟩

/-- Only the statements of `start_xmit` move its call on, and they alone pass socket buffers on, drop them
or refuse them. -/
theorem call_eq_of_step {t : TxRing F} {e : TxEvent F} (hst : step s e = some t)
    (he : e.ofCall = false) :
    t.xmit = s.xmit ∧ t.sent = s.sent ∧ t.dropped = s.dropped ∧ t.refused = s.refused := by
  cases e with
  | startXmit | dmaMap | xmit => cases he
  | startRtlTx =>
    simp only [step, Option.ite_none_right_eq_some, Option.some.injEq] at hst
    obtain ⟨-, rfl⟩ := hst
    exact ⟨rfl, rfl, rfl, rfl⟩
  | rtlTx => exact (rtlTx_frame hst).2
  | transmit written =>
    simp only [step, transmit, Option.ite_none_right_eq_some, Option.some.injEq] at hst
    obtain ⟨-, rfl⟩ := hst
    exact ⟨rfl, rfl, rfl, rfl⟩
  | startReset =>
    simp only [step, Option.ite_none_right_eq_some, Option.some.injEq] at hst
    obtain ⟨-, rfl⟩ := hst
    exact ⟨rfl, rfl, rfl, rfl⟩
  | reset =>
    simp only [step, resetStep] at hst
    split at hst
    case h_1 => cases hst
    case h_2 | h_4 =>
      rw [Option.ite_none_right_eq_some] at hst
      obtain rfl := Option.some.inj hst.2
      exact ⟨rfl, rfl, rfl, rfl⟩
    case h_6 =>
      obtain rfl := Option.some.inj hst
      obtain ⟨ring, freed, hclear⟩ := s.rtl8169TxClear_eq
      rw [hclear]
      exact ⟨rfl, rfl, rfl, rfl⟩
    all_goals
      obtain rfl := Option.some.inj hst
      exact ⟨rfl, rfl, rfl, rfl⟩

/-- Only its own statements move the reset on. -/
theorem reset_eq_of_step {t : TxRing F} {e : TxEvent F} (hst : step s e = some t)
    (he : e.ofReset = false) : t.reset = s.reset := by
  cases e with
  | startXmit skb setup =>
    simp only [step] at hst
    split at hst
    case h_2 => cases hst
    case h_1 hpc =>
      rw [Option.ite_none_left_eq_some] at hst
      obtain rfl := Option.some.inj hst.2
      rfl
  | dmaMap m =>
    obtain ⟨x, ring, -, ht⟩ := dmaMap_cases hst
    rcases ht with rfl | ⟨_, rfl⟩ | ⟨_, _, rfl⟩ <;> rfl
  | xmit =>
    simp only [step, xmitStep] at hst
    split at hst
    case h_1 skb setup first hpc =>
      obtain rfl := Option.some.inj hst
      rcases testSlots_cases s skb setup first with ⟨-, -, ht⟩ | ⟨su, -, -, ht⟩ | ⟨-, ht⟩ <;>
        rw [ht] <;> rfl
    case h_10 => cases hst
    all_goals
      obtain rfl := Option.some.inj hst
      rfl
  | startRtlTx =>
    simp only [step, Option.ite_none_right_eq_some, Option.some.injEq] at hst
    obtain ⟨-, rfl⟩ := hst
    rfl
  | rtlTx => exact (rtlTx_frame hst).1.1
  | transmit written =>
    simp only [step, transmit, Option.ite_none_right_eq_some, Option.some.injEq] at hst
    obtain ⟨-, rfl⟩ := hst
    rfl
  | startReset | reset => cases he

theorem ne_initIndexes_of_step {t : TxRing F} {e : TxEvent F} (hst : step s e = some t)
    (he : e.ofReset = false) (hpc : s.reset ≠ .initIndexes) : t.reset ≠ .initIndexes := by
  rw [reset_eq_of_step hst he]
  exact hpc

/-! ## The reset has the ring to itself -/

structure ResetInv (s : TxRing F) : Prop where
  stopped : s.reset ≠ .idle → s.queueStopped = true
  napi : s.reset.napiOff = true → s.rtlTx = .idle
  grace : ∀ calls, s.reset = .grace calls → s.xmit ≠ .idle → s.calls = calls
  alone : s.reset.alone = true → s.xmit = .idle

theorem resetInv_init : (init F).ResetInv where
  stopped := fun h => absurd rfl h
  napi := nofun
  grace := nofun
  alone := nofun

/-- A statement of a call of `start_xmit`. -/
theorem ResetInv.call (h : s.ResetInv) (hx : s.xmit ≠ .idle) {t : TxRing F}
    (hr : t.reset = s.reset) (htx : t.rtlTx = s.rtlTx) (hc : t.calls = s.calls)
    (hq : s.reset ≠ .idle → s.queueStopped = true → t.queueStopped = true) : t.ResetInv where
  stopped := fun hne => by
    rw [hr] at hne
    exact hq hne (h.stopped hne)
  napi := fun hoff => by
    rw [htx]
    exact h.napi (hr ▸ hoff)
  grace := fun calls hg _ => by
    rw [hc]
    exact h.grace calls (hr.symm.trans hg) hx
  alone := fun ha => absurd (h.alone (hr ▸ ha)) hx

/-- A step that leaves the queue, the call and the reset as they are. -/
theorem ResetInv.frame (h : s.ResetInv) {t : TxRing F} (hr : t.reset = s.reset)
    (hx : t.xmit = s.xmit) (hc : t.calls = s.calls)
    (hq : s.reset ≠ .idle → s.queueStopped = true → t.queueStopped = true)
    (htx : s.reset.napiOff = true → t.rtlTx = .idle) : t.ResetInv where
  stopped := fun hne => by
    rw [hr] at hne
    exact hq hne (h.stopped hne)
  napi := fun hoff => htx (hr ▸ hoff)
  grace := fun calls hg hne => by
    rw [hc]
    exact h.grace calls (hr.symm.trans hg) (hx ▸ hne)
  alone := fun ha => hx.trans (h.alone (hr ▸ ha))

theorem resetInv_xmit (h : s.ResetInv) (hundo : s.undoesStop .xmit = false) {t : TxRing F}
    (hst : s.xmitStep = some t) : t.ResetInv := by
  simp only [xmitStep] at hst
  split at hst
  case h_1 skb setup first hpc =>
    obtain rfl := Option.some.inj hst
    have hx : s.xmit ≠ .idle := by rw [hpc]; nofun
    rcases testSlots_cases s skb setup first with ⟨-, -, ht⟩ | ⟨su, -, -, ht⟩ | ⟨-, ht⟩ <;> rw [ht] <;>
      exact h.call hx rfl rfl rfl fun _ hq => hq
  case h_9 hpc =>
    obtain rfl := Option.some.inj hst
    refine h.call (by rw [hpc]; nofun) rfl rfl rfl fun hne hq => ?_
    have hs : s.slotsAvail = false := by
      have hstart := startsQueue_of_undoesStop hundo hne
      rwa [startsQueue, hpc] at hstart
    dsimp only
    rw [hs]
    exact hq
  case h_10 => cases hst
  all_goals
    obtain rfl := Option.some.inj hst
    rename_i hpc
    refine h.call (by rw [hpc]; nofun) rfl rfl rfl fun _ hq => ?_
    first | exact hq | rfl

theorem resetInv_rtlTx (h : s.ResetInv) (hundo : s.undoesStop .rtlTx = false) {t : TxRing F}
    (hst : s.rtlTxStep = some t) : t.ResetInv := by
  have hoff : s.reset.napiOff = true → t.rtlTx = .idle := by
    intro hoff
    rw [rtlTxStep, h.napi hoff] at hst
    cases hst
  obtain ⟨⟨hr, hc, hq⟩, hx, -⟩ := rtlTx_frame hst
  refine h.frame hr hx hc (fun hne hstop => ?_) hoff
  have hwake : s.rtlTx ≠ .wake := of_decide_eq_false (startsQueue_of_undoesStop hundo hne)
  exact (hq hwake).trans hstop

theorem resetInv_reset (h : s.ResetInv) {t : TxRing F} (hst : s.resetStep = some t) :
    t.ResetInv := by
  have hq := h.stopped
  have hn := h.napi
  have ha := h.alone
  have hg := h.grace
  simp only [resetStep] at hst
  split at hst
  case h_1 => cases hst
  case h_2 hpc =>
    rw [Option.ite_none_right_eq_some] at hst
    obtain ⟨hr, hst⟩ := hst
    obtain rfl := Option.some.inj hst
    exact ⟨fun _ => hq (by rw [hpc]; nofun), fun _ => hr, nofun, nofun⟩
  case h_3 hpc =>
    obtain rfl := Option.some.inj hst
    refine ⟨fun _ => hq (by rw [hpc]; nofun), fun _ => hn (by rw [hpc]; rfl), ?_, nofun⟩
    intro calls hcalls _
    exact ResetPc.grace.inj hcalls
  case h_4 calls hpc =>
    rw [Option.ite_none_right_eq_some] at hst
    obtain ⟨hend, hst⟩ := hst
    obtain rfl := Option.some.inj hst
    refine ⟨fun _ => hq (by rw [hpc]; nofun), fun _ => hn (by rw [hpc]; rfl), nofun, fun _ => ?_⟩
    -- The call that the grace period waits for is the only one there can be.
    by_contra hx
    rcases hend with hidle | hcalls
    · cases hs : s.xmit <;> rw [hs] at hidle hx <;> first | exact hx rfl | cases hidle
    · exact hcalls (hg calls hpc hx)
  case h_6 hpc =>
    obtain rfl := Option.some.inj hst
    obtain ⟨ring, freed, hclear⟩ := s.rtl8169TxClear_eq
    rw [hclear]
    exact ⟨fun _ => hq (by rw [hpc]; nofun), fun _ => hn (by rw [hpc]; rfl), nofun,
      fun _ => ha (by rw [hpc]; rfl)⟩
  case h_5 hpc | h_7 hpc =>
    obtain rfl := Option.some.inj hst
    exact ⟨fun _ => hq (by rw [hpc]; nofun), fun _ => hn (by rw [hpc]; rfl), nofun,
      fun _ => ha (by rw [hpc]; rfl)⟩
  case h_8 hpc | h_9 hpc =>
    obtain rfl := Option.some.inj hst
    exact ⟨fun _ => hq (by rw [hpc]; nofun), nofun, nofun, fun _ => ha (by rw [hpc]; rfl)⟩
  case h_10 hpc =>
    obtain rfl := Option.some.inj hst
    exact ⟨fun h => absurd rfl h, nofun, nofun, nofun⟩

theorem resetInv_step {t : TxRing F} {e : TxEvent F} (h : s.ResetInv)
    (hundo : s.undoesStop e = false) (hst : step s e = some t) : t.ResetInv := by
  cases e with
  | startXmit skb setup =>
    simp only [step] at hst
    split at hst
    case h_2 => cases hst
    case h_1 hpc =>
      rw [Option.ite_none_left_eq_some] at hst
      obtain ⟨hq, hst⟩ := hst
      obtain rfl := Option.some.inj hst
      have hidle : s.reset = .idle := by
        by_contra hne
        exact hq (h.stopped hne)
      have hoff : (s.startXmit skb setup).reset = .idle := hidle
      refine ⟨fun hne => absurd hoff hne, ?_, ?_, ?_⟩
      · rw [hoff]; nofun
      · rw [hoff]; nofun
      · rw [hoff]; nofun
  | dmaMap m =>
    obtain ⟨x, ring, hpc, ht⟩ := dmaMap_cases hst
    have hx : s.xmit ≠ .idle := by
      rcases hpc with hpc | ⟨_, _, hpc⟩ <;> rw [hpc] <;> nofun
    rcases ht with rfl | ⟨_, rfl⟩ | ⟨_, _, rfl⟩ <;> exact h.call hx rfl rfl rfl fun _ hq => hq
  | xmit => exact resetInv_xmit h hundo hst
  | startRtlTx =>
    simp only [step, Option.ite_none_right_eq_some, Option.some.injEq] at hst
    obtain ⟨⟨-, hoff⟩, rfl⟩ := hst
    exact h.frame rfl rfl rfl (fun _ hq => hq) fun hon => absurd hon hoff
  | rtlTx => exact resetInv_rtlTx h hundo hst
  | transmit written =>
    simp only [step, transmit, Option.ite_none_right_eq_some, Option.some.injEq] at hst
    obtain ⟨-, rfl⟩ := hst
    exact h.frame rfl rfl rfl (fun _ hq => hq) h.napi
  | startReset =>
    simp only [step, Option.ite_none_right_eq_some, Option.some.injEq] at hst
    obtain ⟨-, rfl⟩ := hst
    exact ⟨fun _ => rfl, nofun, nofun, nofun⟩
  | reset => exact resetInv_reset h hst

/-! ## The counters -/

/-- `rtl_tx` has cleared `ahead` entries since it last stored `dirty_tx`, and `cur_tx` is `used` entries
ahead of that. -/
structure Counters (s : TxRing F) (ahead used : ℕ) : Prop where
  dirty_eq : s.dirty = s.dirtyTx + BitVec.ofNat 32 ahead
  cur_eq : s.curTx = s.dirtyTx + BitVec.ofNat 32 used
  ahead_le : ahead ≤ used
  room : used + s.reserved + s.unpublished ≤ 256

theorem counters_init : (init F).Counters 0 0 where
  dirty_eq := rfl
  cur_eq := rfl
  ahead_le := le_rfl
  room := Nat.zero_le _

section Counters
variable {ahead used : ℕ}

/-- The entries between the stored `dirty_tx` and `cur_tx`. -/
theorem Counters.curTx_sub_dirtyTx (h : s.Counters ahead used) :
    (s.curTx - s.dirtyTx).toNat = used := by
  rw [h.cur_eq, BitVec.add_comm, BitVec.add_sub_cancel, BitVec.toNat_ofNat]
  have hroom := h.room
  omega

/-- The slots `rtl_tx_slots_avail` counts. -/
theorem Counters.slotsAvail_iff (h : s.Counters ahead used) :
    s.slotsAvail = true ↔ maxSkbFrags < 256 - used := by
  have hroom := h.room
  unfold slotsAvail rtlTxSlotsAvail
  rw [decide_eq_true_eq, h.cur_eq, BitVec.lt_def, BitVec.toNat_sub, BitVec.toNat_add,
    BitVec.toNat_add, BitVec.toNat_ofNat, BitVec.toNat_ofNat]
  have hring : BitVec.toNat (256 : BitVec 32) = 256 := rfl
  have hlt := s.dirtyTx.isLt
  rw [hring]
  unfold maxSkbFrags
  omega

/-- Where `cur_tx` is not at the entry of the loop, the entry is in use. -/
theorem Counters.ahead_lt {d : BitVec 32} {pkts bytes : ℕ} (h : s.Counters ahead used)
    (hpc : s.rtlTx = .loop d pkts bytes) (hcur : s.curTx ≠ d) : ahead < used := by
  refine lt_of_le_of_ne h.ahead_le fun heq => hcur ?_
  have hd : s.dirty = d := by rw [dirty, hpc]
  rw [h.cur_eq, ← heq, ← h.dirty_eq, hd]

theorem counters_dmaMap (h : s.Counters ahead used) {m : Option (BitVec 64)} {t : TxRing F}
    (hst : s.dmaMap m = some t) : t.Counters ahead used := by
  obtain ⟨x, ring, hpc, ht⟩ := dmaMap_cases hst
  have hres : s.reserved = x.frags + 1 ∧ s.unpublished = 0 := by
    rcases hpc with hpc | ⟨_, _, hpc⟩ <;> exact ⟨by rw [reserved, hpc], by rw [unpublished, hpc]⟩
  have hroom := h.room
  have hdropped : used + 0 + 0 ≤ 256 := by omega
  rw [hres.1, hres.2] at hroom
  rcases ht with rfl | ⟨_, rfl⟩ | ⟨_, _, rfl⟩
  · exact { h with room := hdropped }
  · exact { h with room := hroom }
  · exact { h with room := hroom }

theorem counters_xmit (h : s.Counters ahead used) {t : TxRing F} (hst : s.xmitStep = some t) :
    ∃ used', t.Counters ahead used' := by
  have hroom := h.room
  have hnone : used + 0 + 0 ≤ 256 := by omega
  simp only [xmitStep] at hst
  split at hst
  case h_1 skb setup first hpc =>
    obtain rfl := Option.some.inj hst
    have hfrags := skb.frags_le
    unfold maxSkbFrags at hfrags
    rcases testSlots_cases s skb setup first with ⟨-, -, ht⟩ | ⟨su, hs, -, ht⟩ | ⟨-, ht⟩ <;> rw [ht]
    · exact ⟨used, { h with room := hnone }⟩
    · have hfree := h.slotsAvail_iff.mp hs
      unfold maxSkbFrags at hfree
      have htaken : used + (skb.frags.length + 1) + 0 ≤ 256 := by omega
      exact ⟨used, { h with room := htaken }⟩
    · exact ⟨used, { h with room := hnone }⟩
  case h_6 x hpc =>
    -- The entries of the packet are now counted in `cur_tx`.
    obtain rfl := Option.some.inj hst
    have hun : s.reserved = 0 ∧ s.unpublished = x.frags + 1 :=
      ⟨by rw [reserved, hpc], by rw [unpublished, hpc]⟩
    rw [hun.1, hun.2] at hroom
    refine ⟨used + (x.frags + 1), { h with
      cur_eq := ?_
      ahead_le := h.ahead_le.trans (Nat.le_add_right _ _)
      room := hroom }⟩
    show s.curTx + BitVec.ofNat 32 x.frags + 1 = s.dirtyTx + BitVec.ofNat 32 (used + (x.frags + 1))
    rw [h.cur_eq, BitVec.ofNat_add, BitVec.ofNat_add, BitVec.add_assoc, BitVec.add_assoc]
    rfl
  case h_7 hpc =>
    obtain rfl := Option.some.inj hst
    cases s.slotsAvail <;> exact ⟨used, { h with room := hnone }⟩
  case h_10 => cases hst
  all_goals
    obtain rfl := Option.some.inj hst
    rename_i hpc
    rw [← with_xmit hpc] at h
    exact ⟨used, { h with }⟩

/-- Storing `dirty_tx` gives the cleared entries back. -/
theorem counters_store {d : BitVec 32} (h : s.Counters ahead used) (hpc : s.rtlTx = .store d) :
    ({ s with dirtyTx := d, rtlTx := .stopped } : TxRing F).Counters 0 (used - ahead) := by
  have hd : d = s.dirtyTx + BitVec.ofNat 32 ahead := by
    rw [← h.dirty_eq, dirty, hpc]
  have hle := h.ahead_le
  have hroom := h.room
  refine ⟨(add_ofNat_zero d).symm, ?_, Nat.zero_le _, ?_⟩
  · show s.curTx = d + BitVec.ofNat 32 (used - ahead)
    rw [h.cur_eq, hd, BitVec.add_assoc, ← BitVec.ofNat_add, Nat.add_sub_cancel' hle]
  · show used - ahead + s.reserved + s.unpublished ≤ 256
    omega

theorem counters_rtlTx (h : s.Counters ahead used) {t : TxRing F} (hst : s.rtlTxStep = some t) :
    ∃ ahead' used', t.Counters ahead' used' := by
  simp only [rtlTxStep] at hst
  split at hst
  case h_1 => cases hst
  case h_2 d pkts bytes hpc =>
    obtain rfl := Option.some.inj hst
    have hd : d = s.dirtyTx + BitVec.ofNat 32 ahead := by
      rw [← h.dirty_eq, dirty, hpc]
    unfold rtlTxLoop
    dsimp only
    split
    case isTrue hloop =>
      refine ⟨ahead + 1, used, { h with dirty_eq := ?_, ahead_le := h.ahead_lt hpc hloop.1 }⟩
      show d + 1 = s.dirtyTx + BitVec.ofNat 32 (ahead + 1)
      rw [hd, BitVec.ofNat_add, BitVec.add_assoc]
      rfl
    case isFalse =>
      by_cases hne : s.dirtyTx ≠ d
      · rw [if_pos hne]
        exact ⟨ahead, used, { h with dirty_eq := hd }⟩
      · rw [if_neg hne]
        exact ⟨ahead, used, { h with dirty_eq := (not_not.mp hne).trans hd }⟩
  case h_4 d hpc =>
    obtain rfl := Option.some.inj hst
    exact ⟨0, used - ahead, counters_store h hpc⟩
  all_goals
    obtain rfl := Option.some.inj hst
    rename_i hpc
    have hd := h.dirty_eq
    rw [dirty, hpc] at hd
    first
      | exact ⟨ahead, used, { h with dirty_eq := hd }⟩
      | (split <;> exact ⟨ahead, used, { h with dirty_eq := hd }⟩)

end Counters

theorem counters_reset {ahead used : ℕ} (h : s.Counters ahead used) (hr : s.ResetInv) {t : TxRing F}
    (hst : s.resetStep = some t) : ∃ ahead' used', t.Counters ahead' used' := by
  simp only [resetStep] at hst
  split at hst
  case h_1 => cases hst
  case h_7 hpc =>
    obtain rfl := Option.some.inj hst
    have hx : s.xmit = .idle := hr.alone (by rw [hpc]; rfl)
    have hrtl : s.rtlTx = .idle := hr.napi (by rw [hpc]; rfl)
    refine ⟨0, 0, ⟨?_, rfl, le_rfl, ?_⟩⟩
    · rw [dirty, hrtl]
      rfl
    · rw [reserved, unpublished, hx]
      exact Nat.zero_le _
  case h_2 | h_4 =>
    rw [Option.ite_none_right_eq_some] at hst
    obtain rfl := Option.some.inj hst.2
    exact ⟨ahead, used, { h with }⟩
  case h_6 =>
    obtain rfl := Option.some.inj hst
    obtain ⟨ring, freed, hclear⟩ := s.rtl8169TxClear_eq
    rw [hclear]
    exact ⟨ahead, used, { h with }⟩
  all_goals
    obtain rfl := Option.some.inj hst
    exact ⟨ahead, used, { h with }⟩

theorem counters_step {t : TxRing F} {e : TxEvent F} (h : ∃ ahead used, s.Counters ahead used)
    (hr : s.ResetInv) (hst : step s e = some t) : ∃ ahead used, t.Counters ahead used := by
  obtain ⟨ahead, used, h⟩ := h
  cases e with
  | startXmit skb setup =>
    simp only [step] at hst
    split at hst
    case h_2 => cases hst
    case h_1 hpc =>
      rw [Option.ite_none_left_eq_some] at hst
      obtain rfl := Option.some.inj hst.2
      rw [← with_xmit hpc] at h
      exact ⟨ahead, used, { h with }⟩
  | dmaMap m => exact ⟨ahead, used, counters_dmaMap h hst⟩
  | xmit => exact ⟨ahead, counters_xmit h hst⟩
  | startRtlTx =>
    simp only [step, Option.ite_none_right_eq_some, Option.some.injEq] at hst
    obtain ⟨⟨hpc, -⟩, rfl⟩ := hst
    rw [← with_rtlTx hpc] at h
    exact ⟨ahead, used, { h with }⟩
  | rtlTx => exact counters_rtlTx h hst
  | transmit written =>
    simp only [step, transmit, Option.ite_none_right_eq_some, Option.some.injEq] at hst
    obtain ⟨-, rfl⟩ := hst
    exact ⟨ahead, used, { h with }⟩
  | startReset =>
    simp only [step, Option.ite_none_right_eq_some, Option.some.injEq] at hst
    obtain ⟨-, rfl⟩ := hst
    exact ⟨ahead, used, { h with }⟩
  | reset => exact counters_reset h hr hst

end TxRing

end CrosRt
