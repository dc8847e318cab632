import CrosRt.Driver.TxRingReset

/-! # Stopping and waking the transmit queue

`start_xmit` stops the queue when a packet of the largest size no longer fits, and looks again after
stopping; `rtl_tx` wakes it when it has stored a new `dirty_tx`, finds the queue stopped and slots
free. Neither side may miss the other: a stopped queue has few slots free or a wake-up under way.

`rtl_tx` tests the slots and wakes the queue in two statements. A packet published in between can use
up the slots that were tested, so the results are about runs where none is. Nor does anybody start the
queue during a reset, whose wake-up would then find a ring in use. What the checksum set-up does to a
socket buffer makes no difference: `cur_tx` advances by the number of fragments read at the call.
-/

namespace CrosRt
set_option autoImplicit false

open LabelledRuns

variable {F : Type*}

namespace TxRing

variable {s : TxRing F} {ahead used : ℕ}

/-- A packet is published between the last test of the slots in `rtl_tx` and the wake-up. -/
def overtakes (s : TxRing F) : TxEvent F → Bool
  | .xmit =>
      match s.xmit, s.rtlTx with
      | .publish _, .wake => true
      | _, _ => false
  | _ => false

/-- `rtl_tx` has stored `dirty_tx` and not yet decided about the wake-up. -/
def deciding (s : TxRing F) : Bool :=
  match s.rtlTx with
  | .stopped | .avail | .wake => true
  | _ => false

/-- `start_xmit` has been called and has not yet published its packet. -/
def mapping (s : TxRing F) : Bool :=
  match s.xmit with
  | .called _ _ _ | .mapHead _ | .mapFrag _ _ _ | .last _ _ | .sentQueue _ | .release _
  | .publish _ => true
  | _ => false

/-- The counters are back at 0 and the wake-up of the reset is to come. -/
def restarted (s : TxRing F) : Bool :=
  match s.reset with
  | .napiEnable | .hwStart | .wake => true
  | _ => false

structure QueueInv (s : TxRing F) : Prop where
  not_full : ∀ skb, s.xmit ≠ .full skb
  awake : s.queueStopped = false → s.xmit = .idle ∨ s.xmit = .recheck → s.slotsAvail = true
  mapped : s.mapping = true → s.slotsAvail = true
  woken : s.rtlTx = .wake → s.slotsAvail = true
  restarted : s.restarted = true → s.slotsAvail = true
  not_lost : s.queueStopped = true → s.reset = .idle → s.slotsAvail = true →
    s.xmit = .recheck ∨ s.deciding = true

theorem queueInv_init : (init F).QueueInv where
  not_full := fun _ => nofun
  awake := fun _ _ => show rtlTxSlotsAvail 0 0 = true by decide
  mapped := nofun
  woken := nofun
  restarted := nofun
  not_lost := nofun

/-- The reset restarts with no call of `start_xmit` under way. -/
theorem ResetInv.idle_of_restarted (h : s.ResetInv) (hs : s.restarted = true) : s.xmit = .idle := by
  refine h.alone ?_
  unfold TxRing.restarted at hs
  split at hs
  case h_1 hpc => rw [hpc]; rfl
  case h_2 hpc => rw [hpc]; rfl
  case h_3 hpc => rw [hpc]; rfl
  case h_4 => cases hs

/-- Storing `dirty_tx` only frees slots. -/
theorem slotsAvail_store {d : BitVec 32} (h : s.Counters ahead used) (hpc : s.rtlTx = .store d)
    (hs : s.slotsAvail = true) :
    ({ s with dirtyTx := d, rtlTx := .stopped } : TxRing F).slotsAvail = true := by
  have hbefore := h.slotsAvail_iff.mp hs
  rw [(counters_store h hpc).slotsAvail_iff]
  omega

theorem queueInv_startXmit (h : ({ s with xmit := .idle } : TxRing F).QueueInv)
    (hq : s.queueStopped = false) (skb : TxSkb F) (setup : Option TxSetup) :
    (s.startXmit skb setup).QueueInv := by
  have hs : s.slotsAvail = true := h.awake hq (Or.inl rfl)
  exact {
    not_full := fun _ => nofun
    awake := fun _ _ => hs
    mapped := fun _ => hs
    woken := fun _ => hs
    restarted := fun _ => hs
    not_lost := fun hst => absurd (hq.symm.trans hst) Bool.false_ne_true }

/-- A step of `start_xmit` within a packet: the queue and the counters stay as they are. -/
theorem queueInv_within (h : s.QueueInv) (hmap : s.mapping = true) {t : TxRing F}
    (hq : t.queueStopped = s.queueStopped) (hslots : t.slotsAvail = s.slotsAvail)
    (hr : t.rtlTx = s.rtlTx) (hreset : t.reset = s.reset) (hfull : ∀ skb, t.xmit ≠ .full skb) :
    t.QueueInv := by
  have hs : t.slotsAvail = true := hslots.trans (h.mapped hmap)
  refine ⟨hfull, fun _ _ => hs, fun _ => hs, fun _ => hs, fun _ => hs, fun hst hidle _ => ?_⟩
  have hd : t.deciding = s.deciding := by rw [deciding, deciding, hr]
  rcases h.not_lost (hq ▸ hst) (hreset ▸ hidle) (h.mapped hmap) with hx | hx
  · rw [mapping, hx] at hmap
    cases hmap
  · exact Or.inr (hd.trans hx)

theorem queueInv_dmaMap (h : s.QueueInv) {m : Option (BitVec 64)} {t : TxRing F}
    (hst : s.dmaMap m = some t) : t.QueueInv := by
  obtain ⟨x, ring, hpc, ht⟩ := dmaMap_cases hst
  have hmap : s.mapping = true := by
    rcases hpc with hpc | ⟨_, _, hpc⟩ <;> rw [mapping, hpc]
  rcases ht with rfl | ⟨_, rfl⟩ | ⟨_, _, rfl⟩ <;>
    exact queueInv_within h hmap rfl rfl rfl rfl fun _ h => by cases h

theorem queueInv_xmit (h : s.QueueInv) (hr : s.ResetInv) (hover : s.overtakes .xmit = false)
    {t : TxRing F} (hst : s.xmitStep = some t) : t.QueueInv := by
  simp only [xmitStep] at hst
  split at hst
  case h_1 skb setup first hpc =>
    obtain rfl := Option.some.inj hst
    have hmap : s.mapping = true := by rw [mapping, hpc]
    have hs := h.mapped hmap
    rcases testSlots_cases s skb setup first with ⟨-, -, ht⟩ | ⟨su, -, -, ht⟩ | ⟨hfull, -⟩
    · rw [ht]
      exact queueInv_within h hmap rfl rfl rfl rfl fun _ h => by cases h
    · rw [ht]
      exact queueInv_within h hmap rfl rfl rfl rfl fun _ h => by cases h
    · exact absurd (hfull.symm.trans hs) Bool.false_ne_true
  case h_2 skb hpc => exact absurd hpc (h.not_full skb)
  case h_3 x entry hpc =>
    obtain rfl := Option.some.inj hst
    exact queueInv_within h (by rw [mapping, hpc]) rfl rfl rfl rfl fun _ h => by cases h
  case h_4 x hpc =>
    obtain rfl := Option.some.inj hst
    exact queueInv_within h (by rw [mapping, hpc]) rfl rfl rfl rfl fun _ h => by cases h
  case h_5 x hpc =>
    obtain rfl := Option.some.inj hst
    exact queueInv_within h (by rw [mapping, hpc]) rfl rfl rfl rfl fun _ h => by cases h
  case h_6 x hpc =>
    -- The one step that takes slots away: no wake-up is under way.
    obtain rfl := Option.some.inj hst
    have hs : s.slotsAvail = true := h.mapped (by rw [mapping, hpc])
    have hwake : s.rtlTx ≠ .wake := by
      intro hw
      rw [overtakes, hpc, hw] at hover
      cases hover
    have hrestart : s.restarted ≠ true := by
      intro hon
      rw [hr.idle_of_restarted hon] at hpc
      cases hpc
    refine ⟨(fun _ h => by cases h), fun _ hx => ?_, (fun h => by cases h),
      fun hw => absurd hw hwake, fun hon => absurd hon hrestart, fun hstop hidle _ => ?_⟩
    · rcases hx with hx | hx <;> cases hx
    · rcases h.not_lost hstop hidle hs with hx | hd
      · rw [hpc] at hx
        cases hx
      · exact Or.inr hd
  case h_7 hpc =>
    obtain rfl := Option.some.inj hst
    cases hs : s.slotsAvail with
    | true =>
      refine ⟨(fun _ h => by cases h), fun _ _ => hs, fun _ => hs, fun _ => hs, fun _ => hs,
        fun hstop hidle _ => ?_⟩
      rcases h.not_lost hstop hidle hs with hx | hd
      · rw [hpc] at hx
        cases hx
      · exact Or.inr hd
    | false =>
      refine ⟨(fun _ h => by cases h), fun _ hx => ?_, (fun h => by cases h), h.woken, h.restarted,
        fun _ _ hs' => absurd (hs.symm.trans hs') Bool.false_ne_true⟩
      rcases hx with hx | hx <;> cases hx
  case h_8 hpc =>
    obtain rfl := Option.some.inj hst
    exact ⟨(fun _ h => by cases h), (fun h => by cases h), (fun h => by cases h), h.woken,
      h.restarted, fun _ _ _ => Or.inl rfl⟩
  case h_9 hpc =>
    obtain rfl := Option.some.inj hst
    cases hs : s.slotsAvail with
    | true =>
      exact ⟨(fun _ h => by cases h), fun _ _ => hs, fun _ => hs, fun _ => hs, fun _ => hs,
        fun h => by cases h⟩
    | false =>
      refine ⟨(fun _ h => by cases h), fun hq _ => ?_, (fun h => by cases h), h.woken, h.restarted,
        fun _ _ hs' => absurd (hs.symm.trans hs') Bool.false_ne_true⟩
      exact absurd (hs.symm.trans (h.awake hq (Or.inr hpc))) Bool.false_ne_true
  case h_10 => cases hst

/-- A step of `rtl_tx` that leaves the queue and the counters as they are, outside its decision. -/
theorem queueInv_rtlTx_outside (h : s.QueueInv) (hdec : s.deciding = false) {t : TxRing F}
    (hq : t.queueStopped = s.queueStopped) (hslots : t.slotsAvail = s.slotsAvail)
    (hx : t.xmit = s.xmit) (hreset : t.reset = s.reset) (hr : t.rtlTx ≠ .wake) : t.QueueInv := by
  have hm : t.mapping = s.mapping := by rw [mapping, mapping, hx]
  have hon : t.restarted = s.restarted := by rw [TxRing.restarted, TxRing.restarted, hreset]
  refine ⟨fun skb => hx ▸ h.not_full skb, ?_, ?_, fun hw => absurd hw hr, ?_, ?_⟩
  · rw [hq, hslots, hx]
    exact h.awake
  · rw [hm, hslots]
    exact h.mapped
  · rw [hon, hslots]
    exact h.restarted
  · rw [hq, hslots, hx, hreset]
    intro hstop hidle hs
    rcases h.not_lost hstop hidle hs with hx | hd
    · exact Or.inl hx
    · exact absurd (hdec.symm.trans hd) Bool.false_ne_true

theorem queueInv_rtlTx (h : s.QueueInv) (hc : s.Counters ahead used) {t : TxRing F}
    (hst : s.rtlTxStep = some t) : t.QueueInv := by
  simp only [rtlTxStep] at hst
  split at hst
  case h_1 => cases hst
  case h_2 d pkts bytes hpc =>
    obtain rfl := Option.some.inj hst
    have hdec : s.deciding = false := by rw [deciding, hpc]
    unfold rtlTxLoop
    dsimp only
    split
    · exact queueInv_rtlTx_outside h hdec rfl rfl rfl rfl fun h => by cases h
    · refine queueInv_rtlTx_outside h hdec rfl rfl rfl rfl ?_
      dsimp only
      split <;> exact fun h => by cases h
  case h_3 d pkts bytes hpc =>
    obtain rfl := Option.some.inj hst
    exact queueInv_rtlTx_outside h (by rw [deciding, hpc]) rfl rfl rfl rfl fun h => by cases h
  case h_4 d hpc =>
    obtain rfl := Option.some.inj hst
    exact ⟨h.not_full, fun hq hx => slotsAvail_store hc hpc (h.awake hq hx),
      fun hm => slotsAvail_store hc hpc (h.mapped hm), (fun h => by cases h),
      fun hon => slotsAvail_store hc hpc (h.restarted hon), fun _ _ _ => Or.inr rfl⟩
  case h_5 hpc =>
    obtain rfl := Option.some.inj hst
    cases hq : s.queueStopped with
    | true =>
      exact ⟨h.not_full, (fun h => by cases h), h.mapped, (fun h => by cases h), h.restarted,
        fun _ _ _ => Or.inr rfl⟩
    | false =>
      exact ⟨h.not_full, fun _ => h.awake hq, h.mapped, (fun h => by cases h), h.restarted,
        fun h => by cases h⟩
  case h_6 hpc =>
    obtain rfl := Option.some.inj hst
    cases hs : s.slotsAvail with
    | true =>
      exact ⟨h.not_full, h.awake, h.mapped, fun _ => hs, fun _ => hs, fun _ _ _ => Or.inr rfl⟩
    | false =>
      exact ⟨h.not_full, h.awake, h.mapped, (fun h => by cases h), h.restarted,
        fun _ _ hs' => absurd (hs.symm.trans hs') Bool.false_ne_true⟩
  case h_7 hpc =>
    obtain rfl := Option.some.inj hst
    have hs : s.slotsAvail = true := h.woken hpc
    exact ⟨h.not_full, fun _ _ => hs, fun _ => hs, fun _ => hs, fun _ => hs, fun h => by cases h⟩

/-- A statement of the reset before `rtl8169_init_ring_indexes`, or of the restart. -/
theorem queueInv_reset_within (h : s.QueueInv) {t : TxRing F}
    (hq : t.queueStopped = s.queueStopped) (hslots : t.slotsAvail = s.slotsAvail)
    (hx : t.xmit = s.xmit) (hr : t.rtlTx = s.rtlTx) (hreset : t.reset ≠ .idle)
    (hon : t.restarted = true → s.restarted = true) : t.QueueInv := by
  have hm : t.mapping = s.mapping := by rw [mapping, mapping, hx]
  refine ⟨fun skb => hx ▸ h.not_full skb, ?_, ?_, ?_, ?_, fun _ hidle => absurd hidle hreset⟩
  · rw [hq, hslots, hx]
    exact h.awake
  · rw [hm, hslots]
    exact h.mapped
  · rw [hr, hslots]
    exact h.woken
  · rw [hslots]
    exact fun ht => h.restarted (hon ht)

theorem queueInv_reset (h : s.QueueInv) {t : TxRing F} (hst : s.resetStep = some t) :
    t.QueueInv := by
  simp only [resetStep] at hst
  split at hst
  case h_1 => cases hst
  case h_2 | h_4 =>
    rw [Option.ite_none_right_eq_some] at hst
    obtain rfl := Option.some.inj hst.2
    exact queueInv_reset_within h rfl rfl rfl rfl (fun h => by cases h) fun h => by cases h
  case h_6 =>
    obtain rfl := Option.some.inj hst
    obtain ⟨ring, freed, hclear⟩ := s.rtl8169TxClear_eq
    rw [hclear]
    exact queueInv_reset_within h rfl rfl rfl rfl (fun h => by cases h) fun h => by cases h
  case h_7 =>
    obtain rfl := Option.some.inj hst
    have hs : rtlTxSlotsAvail 0 0 = true := by decide
    exact ⟨h.not_full, fun _ _ => hs, fun _ => hs, fun _ => hs, fun _ => hs,
      fun _ h => by cases h⟩
  case h_8 hpc | h_9 hpc =>
    obtain rfl := Option.some.inj hst
    have hon : s.restarted = true := by rw [TxRing.restarted, hpc]
    exact queueInv_reset_within h rfl rfl rfl rfl (fun h => by cases h) fun _ => hon
  case h_10 hpc =>
    obtain rfl := Option.some.inj hst
    have hs : s.slotsAvail = true := h.restarted (by rw [TxRing.restarted, hpc])
    exact ⟨h.not_full, fun _ _ => hs, fun _ => hs, fun _ => hs, fun _ => hs, fun h => by cases h⟩
  all_goals
    obtain rfl := Option.some.inj hst
    exact queueInv_reset_within h rfl rfl rfl rfl (fun h => by cases h) fun h => by cases h

theorem queueInv_step {t : TxRing F} {e : TxEvent F} (h : s.QueueInv) (hc : s.Counters ahead used)
    (hr : s.ResetInv) (hover : s.overtakes e = false) (hst : step s e = some t) : t.QueueInv := by
  cases e with
  | startXmit skb setup =>
    simp only [step] at hst
    split at hst
    case h_2 => cases hst
    case h_1 hpc =>
      rw [Option.ite_none_left_eq_some] at hst
      obtain rfl := Option.some.inj hst.2
      rw [← with_xmit hpc] at h
      exact queueInv_startXmit h (Bool.eq_false_iff.mpr hst.1) skb setup
  | dmaMap m => exact queueInv_dmaMap h hst
  | xmit => exact queueInv_xmit h hr hover hst
  | startRtlTx =>
    simp only [step, Option.ite_none_right_eq_some, Option.some.injEq] at hst
    obtain ⟨⟨hpc, -⟩, rfl⟩ := hst
    exact queueInv_rtlTx_outside h (by rw [deciding, hpc]) rfl rfl rfl rfl fun h => by cases h
  | rtlTx => exact queueInv_rtlTx h hc hst
  | transmit written =>
    simp only [step, transmit, Option.ite_none_right_eq_some, Option.some.injEq] at hst
    obtain ⟨-, rfl⟩ := hst
    exact ⟨h.not_full, h.awake, h.mapped, h.woken, h.restarted, h.not_lost⟩
  | startReset =>
    simp only [step, Option.ite_none_right_eq_some, Option.some.injEq] at hst
    obtain ⟨-, rfl⟩ := hst
    exact ⟨h.not_full, (fun h => by cases h), h.mapped, h.woken, (fun h => by cases h),
      fun _ h => by cases h⟩
  | reset => exact queueInv_reset h hst

/-- While no call finds the ring full, none is refused. -/
theorem refused_step {t : TxRing F} {e : TxEvent F} (h : s.QueueInv) (hst : step s e = some t) :
    t.refused = s.refused := by
  cases e with
  | startXmit skb setup =>
    simp only [step] at hst
    split at hst
    case h_2 => cases hst
    case h_1 hpc =>
      rw [Option.ite_none_left_eq_some] at hst
      obtain rfl := Option.some.inj hst.2
      rfl
  | dmaMap m =>
    obtain ⟨x, ring, -, ht⟩ := dmaMap_cases hst
    rcases ht with rfl | ⟨_, rfl⟩ | ⟨_, _, rfl⟩ <;> rfl
  | xmit =>
    simp only [step, xmitStep] at hst
    split at hst
    case h_1 skb setup first hpc =>
      obtain rfl := Option.some.inj hst
      rcases testSlots_cases s skb setup first with ⟨-, -, ht⟩ | ⟨su, -, -, ht⟩ | ⟨-, ht⟩ <;>
        rw [ht] <;> rfl
    case h_2 skb hpc => exact absurd hpc (h.not_full skb)
    case h_10 => cases hst
    all_goals
      obtain rfl := Option.some.inj hst
      rfl
  | startRtlTx | rtlTx | transmit | startReset | reset => exact (call_eq_of_step hst rfl).2.2.2

/-- **The queue protocol.** Where no packet overtakes a wake-up of `rtl_tx` and nobody starts the queue
during a reset, the ring is never found full: an awake queue has room for a packet of any size between
two packets, and a stopped one that nobody is about to wake has so many entries in use that a completion
is still to come. A reset racing with `start_xmit` or `rtl_tx` can wake a full ring. -/
theorem queue_protocol {es : List (TxEvent F)} (h : run step (init F) es = some s)
    (hes : StepsMeet step (fun s e => s.overtakes e = false ∧ s.undoesStop e = false) (init F) es) :
    s.refused = [] ∧
      (s.queueStopped = false → s.xmit = .idle → s.slotsAvail = true) ∧
      (s.queueStopped = true → s.xmit ≠ .recheck → s.deciding = false → s.reset = .idle →
        256 - maxSkbFrags ≤ (s.curTx - s.dirtyTx).toNat) := by
  have hinv : (∃ ahead used, s.Counters ahead used) ∧ s.ResetInv ∧ s.QueueInv ∧ s.refused = [] := by
    refine run_invariant_of_stepsMeet
      (I := fun s : TxRing F =>
        (∃ ahead used, s.Counters ahead used) ∧ s.ResetInv ∧ s.QueueInv ∧ s.refused = []) ?_
      ⟨⟨0, 0, counters_init⟩, resetInv_init, queueInv_init, rfl⟩ hes h
    rintro s e t ⟨⟨ahead, used, hc⟩, hr, hq, href⟩ ⟨hover, hundo⟩ hst
    exact ⟨counters_step ⟨ahead, used, hc⟩ hr hst, resetInv_step hr hundo hst,
      queueInv_step hq hc hr hover hst, (refused_step hq hst).trans href⟩
  obtain ⟨⟨ahead, used, hc⟩, -, hq, href⟩ := hinv
  refine ⟨href, fun hs hx => hq.awake hs (Or.inl hx), fun hs hx hd hidle => ?_⟩
  have hslots : s.slotsAvail ≠ true := by
    intro havail
    rcases hq.not_lost hs hidle havail with h1 | h1
    · exact hx h1
    · exact absurd (hd.symm.trans h1) Bool.false_ne_true
  rw [Ne, hc.slotsAvail_iff] at hslots
  rw [hc.curTx_sub_dirtyTx]
  omega

/-- One packet, sent and cleaned up while the queue stays awake, and a reset. -/
theorem queue_protocol_one_packet :
    ∃ s, run step (init ℕ) (onePacket ++ .startReset :: List.replicate 9 .reset) = some s ∧
      s.refused = [] ∧ s.slotsAvail = true := by
  have hes : StepsMeet step (fun s e => s.overtakes e = false ∧ s.undoesStop e = false) (init ℕ)
      (onePacket ++ .startReset :: List.replicate 9 .reset) := by decide
  obtain ⟨s, hs, hq, hx⟩ : ∃ s,
      run step (init ℕ) (onePacket ++ .startReset :: List.replicate 9 .reset) = some s ∧
        s.queueStopped = false ∧ s.xmit = .idle := ⟨_, rfl, rfl, rfl⟩
  obtain ⟨href, hawake, -⟩ := queue_protocol hs hes
  exact ⟨s, hs, href, hawake hq hx⟩

end TxRing

end CrosRt
