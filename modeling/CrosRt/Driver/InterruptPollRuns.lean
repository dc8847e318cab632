import CrosRt.Driver.InterruptPoll

/-! # No frame is stranded

The invariant of the interrupt handler and the poll. The poll lives as long as `SCHED` is set; masked
interrupts have somebody who unmasks them; and a descriptor given back has a signal still to come, a
status bit, or somebody who will look at the ring after now.
-/

namespace CrosRt
set_option autoImplicit false

open LabelledRuns

/-! ## Status bits -/

/-- Both bits are in the interrupt mask of every chip. -/
theorem rtlSetIrqMask_bits (macVersion : ℕ) :
    (rtlSetIrqMask macVersion).getLsbD 0 = true ∧ (rtlSetIrqMask macVersion).getLsbD 2 = true := by
  unfold rtlSetIrqMask
  dsimp only
  split
  · decide
  · split <;> decide

theorem hasBits_of_bit {x m : BitVec 32} {i : ℕ} (hx : x.getLsbD i = true)
    (hm : m.getLsbD i = true) : hasBits x m = true := by
  have hne : x &&& m ≠ 0 := by
    intro h
    have hbit : (x &&& m).getLsbD i = true := by rw [BitVec.getLsbD_and, hx, hm]; rfl
    rw [h] at hbit
    simp at hbit
  simpa [hasBits] using hne

/-- The handler has won the instance and not yet linked it. -/
def HandlerPc.schedules : HandlerPc → Bool
  | .irqDisable _ | .schedule _ => true
  | _ => false

/-- The poll has the instance. -/
def PollPc.polls : PollPc → Bool
  | .tx | .rx _ | .completeDone | .schedule => true
  | _ => false

/-- The poll has given the instance up and may still unmask the interrupts. -/
def PollPc.ends : PollPc → Bool
  | .timer _ _ | .irqEnable => true
  | _ => false

/-- The poll, or the one it will ask for, reads the next receive descriptor. -/
def PollPc.receives (missed : Bool) : PollPc → Bool
  | .tx | .rx _ | .schedule => true
  | .completeDone => missed
  | _ => false

/-- The poll, or the one it will ask for, runs `rtl_tx` from its beginning. -/
def PollPc.reaps (missed : Bool) : PollPc → Bool
  | .tx | .schedule => true
  | .rx _ | .completeDone => missed
  | _ => false

namespace IrqPoll
variable {s t : IrqPoll} {macVersion weight : ℕ}

/-! ## The invariant -/

/-- Somebody will read the next receive descriptor. -/
def willReceive (s : IrqPoll) : Bool :=
  s.listed || s.handler.schedules || s.poll.receives s.missed

/-- Somebody will run `rtl_tx` from its beginning. -/
def willReap (s : IrqPoll) : Bool :=
  s.listed || s.handler.schedules || s.poll.reaps s.missed

structure Inv (s : IrqPoll) : Prop where
  present : (s.intrStatus ||| (rxOK ||| txOK)) &&& 0xffff ≠ 0xffff
  sched : s.sched = (s.listed || s.handler.schedules || s.poll.polls)
  single : (s.listed && s.handler.schedules || s.listed && s.poll.polls ||
    s.handler.schedules && s.poll.polls) = false
  -- A poll that returns false has armed the timer.
  ends : ∀ timeout ret, s.poll = .timer timeout ret → (ret || timeout) = true
  unmasks : (s.irqOn || s.sched || s.timer || s.poll.ends) = true
  acks : ∀ status, s.handler = .ackEvents status →
    (s.willReceive && s.willReap || s.resetPending) = true
  receives : 0 < s.rxDone →
    (s.rxSignal || s.intrStatus.getLsbD 0 || s.willReceive || s.resetPending) = true
  reaps : 0 < s.txDone →
    (s.txSignal || s.intrStatus.getLsbD 2 || s.willReap || s.resetPending) = true

theorem inv_init : init.Inv where
  present := by decide
  sched := rfl
  single := rfl
  ends := nofun
  unmasks := rfl
  acks := nofun
  receives := nofun
  reaps := nofun

/-! ## The hardware -/

theorem Inv.receive (h : s.Inv) :
    ({ s with rxDone := s.rxDone + 1, rxSignal := true } : IrqPoll).Inv :=
  { h with receives := fun _ => rfl }

theorem Inv.transmitted (h : s.Inv) :
    ({ s with txDone := s.txDone + 1, txSignal := true } : IrqPoll).Inv :=
  { h with reaps := fun _ => rfl }

/-- More status bits. -/
theorem Inv.raised (h : s.Inv) {bits : BitVec 32}
    (hpresent : (s.intrStatus ||| bits ||| (rxOK ||| txOK)) &&& 0xffff ≠ 0xffff) :
    ({ s with intrStatus := s.intrStatus ||| bits } : IrqPoll).Inv := by
  refine { h with present := hpresent, receives := fun hd => ?_, reaps := fun hd => ?_ }
  · have hr := h.receives hd
    simp only [Bool.or_eq_true, willReceive, BitVec.getLsbD_or] at hr ⊢
    tauto
  · have hr := h.reaps hd
    simp only [Bool.or_eq_true, willReap, BitVec.getLsbD_or] at hr ⊢
    tauto

theorem Inv.signalRx (h : s.Inv) :
    ({ s with intrStatus := s.intrStatus ||| rxOK, rxSignal := false } : IrqPoll).Inv := by
  have hpresent : (s.intrStatus ||| rxOK ||| (rxOK ||| txOK)) &&& 0xffff ≠ 0xffff := by
    rw [BitVec.or_assoc, ← BitVec.or_assoc rxOK, BitVec.or_self]
    exact h.present
  refine { h.raised hpresent with receives := fun _ => ?_ }
  have hbit : (s.intrStatus ||| rxOK).getLsbD 0 = true := by
    rw [BitVec.getLsbD_or, Bool.or_eq_true]
    exact Or.inr (by decide)
  dsimp only
  rw [hbit]
  rfl

theorem Inv.signalTx (h : s.Inv) :
    ({ s with intrStatus := s.intrStatus ||| txOK, txSignal := false } : IrqPoll).Inv := by
  have hpresent : (s.intrStatus ||| txOK ||| (rxOK ||| txOK)) &&& 0xffff ≠ 0xffff := by
    rw [BitVec.or_assoc, BitVec.or_comm txOK, BitVec.or_assoc, BitVec.or_self]
    exact h.present
  refine { h.raised hpresent with reaps := fun _ => ?_ }
  have hbit : (s.intrStatus ||| txOK).getLsbD 2 = true := by
    rw [BitVec.getLsbD_or, Bool.or_eq_true]
    exact Or.inr (by decide)
  dsimp only
  rw [hbit]
  rfl

/-! ## The handler -/

theorem Inv.interrupt (h : s.Inv) (hpc : s.handler = .idle) (status : BitVec 32) :
    ({ s with handler := .events status } : IrqPoll).Inv := by
  refine { h with sched := ?_, single := ?_, acks := nofun, receives := ?_, reaps := ?_ }
  · have := h.sched
    rwa [hpc] at this
  · have := h.single
    rwa [hpc] at this
  · have := h.receives
    rwa [willReceive, hpc] at this
  · have := h.reaps
    rwa [willReap, hpc] at this

theorem Inv.events (h : s.Inv) {status : BitVec 32} (hpc : s.handler = .events status) :
    ∀ t, s.handlerStep macVersion = some t → t.Inv := by
  intro t hst
  unfold handlerStep at hst
  rw [hpc] at hst
  dsimp only at hst
  have hsched := h.sched
  have hsingle := h.single
  have hr := h.receives
  have hx := h.reaps
  rw [hpc] at hsched hsingle
  rw [willReceive, hpc] at hr
  rw [willReap, hpc] at hx
  split at hst
  · -- A bus error: the handler asks for the reset and leaves.
    obtain rfl := Option.some.inj hst
    exact { h with
      sched := hsched
      single := hsingle
      acks := fun _ _ => Bool.or_true _
      receives := fun _ => Bool.or_true _
      reaps := fun _ => Bool.or_true _ }
  · obtain rfl := Option.some.inj hst
    refine { h with
      sched := hsched
      single := hsingle
      acks := nofun
      receives := fun hd => ?_
      reaps := fun hd => ?_ }
    · have hr := hr hd
      simp only [Bool.or_eq_true, willReceive] at hr ⊢
      tauto
    · have hx := hx hd
      simp only [Bool.or_eq_true, willReap] at hx ⊢
      tauto

/-- Whoever holds the instance sees that a call was missed. -/
theorem Inv.missed_of_sched (h : s.Inv) (hs : s.sched = true) (hpc : s.handler.schedules = false) :
    (s.listed || s.poll.receives true) = true ∧ (s.listed || s.poll.reaps true) = true := by
  have hsched := h.sched
  rw [hs, hpc, Bool.or_false] at hsched
  cases hl : s.listed with
  | true => exact ⟨rfl, rfl⟩
  | false =>
    rw [hl, Bool.false_or] at hsched
    cases hp : s.poll with
    | tx | rx _ | completeDone | schedule => exact ⟨rfl, rfl⟩
    | idle | timer _ _ | irqEnable =>
      rw [hp] at hsched
      cases hsched

theorem Inv.schedulePrep (h : s.Inv) {status : BitVec 32}
    (hpc : s.handler = .schedulePrep status) :
    ∀ t, s.handlerStep macVersion = some t → t.Inv := by
  intro t hst
  unfold handlerStep at hst
  rw [hpc] at hst
  dsimp only at hst
  have hsched := h.sched
  have hsingle := h.single
  rw [hpc] at hsched hsingle
  split at hst
  · rename_i hs
    obtain rfl := Option.some.inj hst
    obtain ⟨hr, hx⟩ := h.missed_of_sched hs (by rw [hpc]; rfl)
    have hwill : ({ s with missed := true, handler := .ackEvents status } : IrqPoll).willReceive =
        true ∧ ({ s with missed := true, handler := .ackEvents status } : IrqPoll).willReap =
        true := by
      simp only [willReceive, willReap, HandlerPc.schedules, Bool.or_false]
      exact ⟨hr, hx⟩
    refine { h with
      sched := hsched
      single := hsingle
      acks := fun _ _ => ?_
      receives := fun _ => ?_
      reaps := fun _ => ?_ }
    · rw [hwill.1, hwill.2]
      rfl
    · rw [hwill.1, Bool.or_true, Bool.true_or]
    · rw [hwill.2, Bool.or_true, Bool.true_or]
  · rename_i hfree
    obtain rfl := Option.some.inj hst
    have hs : (s.listed || true || s.poll.polls) = true := by
      rw [Bool.or_true, Bool.true_or]
    simp only [hsched, HandlerPc.schedules, Bool.or_false, Bool.not_eq_true,
      Bool.or_eq_false_iff] at hfree
    refine { h with
      sched := hs.symm
      single := ?_
      unmasks := ?_
      acks := nofun
      receives := fun _ => ?_
      reaps := fun _ => ?_ }
    · dsimp only
      rw [hfree.1, hfree.2]
      rfl
    · dsimp only
      rw [Bool.or_true, Bool.true_or, Bool.true_or]
    · simp [willReceive, HandlerPc.schedules]
    · simp [willReap, HandlerPc.schedules]

theorem Inv.irqDisable (h : s.Inv) {status : BitVec 32} (hpc : s.handler = .irqDisable status) :
    ({ s with irqOn := false, handler := .schedule status } : IrqPoll).Inv := by
  have hsched := h.sched
  have hsingle := h.single
  have hr := h.receives
  have hx := h.reaps
  rw [hpc] at hsched hsingle
  rw [willReceive, hpc] at hr
  rw [willReap, hpc] at hx
  refine { h with
    sched := hsched
    single := hsingle
    unmasks := ?_
    acks := nofun
    receives := hr
    reaps := hx }
  have hs : s.sched = true := by
    rw [hsched]
    simp [HandlerPc.schedules]
  dsimp only
  rw [hs]
  rfl

theorem Inv.schedule (h : s.Inv) {status : BitVec 32} (hpc : s.handler = .schedule status) :
    ({ s with listed := true, handler := .ackEvents status } : IrqPoll).Inv := by
  have hs : s.sched = true := by
    rw [h.sched, hpc]
    simp [HandlerPc.schedules]
  have hsingle := h.single
  rw [hpc] at hsingle
  simp only [HandlerPc.schedules, Bool.or_eq_false_iff, Bool.true_and] at hsingle
  refine { h with
    sched := hs
    single := ?_
    acks := fun _ _ => rfl
    receives := fun _ => ?_
    reaps := fun _ => ?_ }
  · dsimp only
    rw [hsingle.2]
    rfl
  · simp [willReceive]
  · simp [willReap]

/-- The bits acknowledged belong to events that somebody will look for. -/
theorem Inv.ackEvents (h : s.Inv) {status : BitVec 32} (hpc : s.handler = .ackEvents status) :
    ({ s with intrStatus := s.intrStatus &&& ~~~status, handler := .idle } : IrqPoll).Inv := by
  have hsched := h.sched
  have hsingle := h.single
  have hack := h.acks status hpc
  rw [hpc] at hsched hsingle
  simp only [willReceive, willReap, hpc, HandlerPc.schedules, Bool.or_eq_true, Bool.and_eq_true,
    Bool.or_false] at hack
  refine { h with
    present := fun h0 => h.present ?_
    sched := hsched
    single := hsingle
    acks := nofun
    receives := fun _ => ?_
    reaps := fun _ => ?_ }
  · apply BitVec.eq_of_getLsbD_eq
    intro i hi
    have hbit := congrArg (fun x : BitVec 32 => x.getLsbD i) h0
    simp only [BitVec.getLsbD_and, BitVec.getLsbD_or] at hbit ⊢
    cases hm : (0xffff : BitVec 32).getLsbD i with
    | false => rw [Bool.and_false]
    | true =>
      rw [hm, Bool.and_true] at hbit
      rw [Bool.and_true]
      cases hst : s.intrStatus.getLsbD i with
      | true => rfl
      | false => rwa [hst, Bool.false_and] at hbit
  · simp only [willReceive, HandlerPc.schedules, Bool.or_eq_true, Bool.or_false]
    tauto
  · simp only [willReap, HandlerPc.schedules, Bool.or_eq_true, Bool.or_false]
    tauto

theorem Inv.handler (h : s.Inv) (hst : s.handlerStep macVersion = some t) : t.Inv := by
  cases hpc : s.handler with
  | idle =>
    rw [handlerStep, hpc] at hst
    cases hst
  | events status => exact h.events hpc t hst
  | schedulePrep status => exact h.schedulePrep hpc t hst
  | irqDisable status =>
    rw [handlerStep, hpc] at hst
    obtain rfl := Option.some.inj hst
    exact h.irqDisable hpc
  | schedule status =>
    rw [handlerStep, hpc] at hst
    obtain rfl := Option.some.inj hst
    exact h.schedule hpc
  | ackEvents status =>
    rw [handlerStep, hpc] at hst
    obtain rfl := Option.some.inj hst
    exact h.ackEvents hpc

/-! ## The poll -/

theorem Inv.watchdog (h : s.Inv) (hpc : s.handler = .idle) :
    ((if s.sched then { s with timer := false }
      else { s with timer := false, sched := true, listed := true }) : IrqPoll).Inv := by
  split
  · rename_i hs
    refine { h with unmasks := ?_ }
    dsimp only
    rw [hs, Bool.or_true]
    rfl
  · rename_i hfree
    have hp : s.poll.polls = false := by
      rw [h.sched, Bool.not_eq_true, Bool.or_eq_false_iff] at hfree
      exact hfree.2
    refine { h with
      sched := rfl
      single := ?_
      unmasks := ?_
      acks := ?_
      receives := fun _ => ?_
      reaps := fun _ => ?_ }
    · dsimp only
      rw [hpc, hp]
      rfl
    · dsimp only
      rw [Bool.or_true, Bool.true_or, Bool.true_or]
    · exact fun _ hack => by cases hpc.symm.trans hack
    · simp [willReceive]
    · simp [willReap]

theorem Inv.pollBegin (h : s.Inv) (hpc : s.handler = .idle)
    (hlisted : s.listed = true) :
    ({ s with listed := false, poll := if s.sched then .tx else .idle } : IrqPoll).Inv := by
  have hs : s.sched = true := by
    rw [h.sched, hlisted]
    rfl
  rw [if_pos hs]
  refine { h with
    sched := ?_
    single := ?_
    ends := nofun
    unmasks := ?_
    acks := ?_
    receives := fun _ => ?_
    reaps := fun _ => ?_ }
  · dsimp only
    rw [hs, hpc]
    rfl
  · dsimp only
    rw [hpc]
    rfl
  · dsimp only
    rw [hs, Bool.or_true]
    rfl
  · exact fun _ hack => by cases hpc.symm.trans hack
  · simp [willReceive, PollPc.receives]
  · simp [willReap, PollPc.reaps]

/-- The poll goes from one statement that holds the instance to another. -/
theorem Inv.polling (h : s.Inv) (hpc : s.handler = .idle) (hpoll : s.poll.polls = true)
    {p : PollPc} (hp : p.polls = true) {rxDone txDone : ℕ}
    (hr : 0 < rxDone → (s.rxSignal || s.intrStatus.getLsbD 0 ||
      (s.listed || p.receives s.missed) || s.resetPending) = true)
    (hx : 0 < txDone → (s.txSignal || s.intrStatus.getLsbD 2 ||
      (s.listed || p.reaps s.missed) || s.resetPending) = true) :
    ({ s with rxDone := rxDone, txDone := txDone, poll := p } : IrqPoll).Inv := by
  have hs : s.sched = true := by
    rw [h.sched, hpoll, Bool.or_true]
  have hsingle := h.single
  rw [hpc, hpoll] at hsingle
  refine { h with
    sched := ?_
    single := ?_
    ends := ?_
    unmasks := ?_
    acks := ?_
    receives := ?_
    reaps := ?_ }
  · dsimp only
    rw [hs, hp, Bool.or_true]
  · dsimp only
    rwa [hpc, hp]
  · rintro timeout ret rfl
    cases hp
  · dsimp only
    rw [hs, Bool.or_true]
    rfl
  · exact fun _ hack => by cases hpc.symm.trans hack
  · simpa only [willReceive, hpc, HandlerPc.schedules, Bool.or_false] using hr
  · simpa only [willReap, hpc, HandlerPc.schedules, Bool.or_false] using hx

/-- `__napi_schedule` of the poll itself, and the list it goes back to. -/
theorem Inv.relist (h : s.Inv) (hpc : s.handler = .idle) (hpoll : s.poll.polls = true) :
    ({ s with listed := true, poll := .idle } : IrqPoll).Inv := by
  have hs : s.sched = true := by
    rw [h.sched, hpoll, Bool.or_true]
  refine { h with
    sched := hs
    single := ?_
    ends := nofun
    unmasks := ?_
    acks := ?_
    receives := fun _ => ?_
    reaps := fun _ => ?_ }
  · dsimp only
    rw [hpc]
    rfl
  · dsimp only
    rw [hs, Bool.or_true]
    rfl
  · exact fun _ hack => by cases hpc.symm.trans hack
  · simp [willReceive]
  · simp [willReap]

theorem receives_of_not_polls {p : PollPc} (hp : p.polls = false) (missed : Bool) :
    p.receives missed = false ∧ p.reaps missed = false := by
  cases p with
  | idle | timer _ _ | irqEnable => exact ⟨rfl, rfl⟩
  | tx | rx _ | completeDone | schedule => cases hp

/-- The end of the poll, without the instance. -/
theorem Inv.leaving (h : s.Inv) (hpc : s.handler = .idle) (hpoll : s.poll.polls = false)
    {p : PollPc} (hp : p.polls = false) (hends : ∀ timeout ret, p ≠ .timer timeout ret)
    {irqOn timer : Bool} (hunmasks : (irqOn || s.sched || timer || p.ends) = true) :
    ({ s with irqOn := irqOn, timer := timer, poll := p } : IrqPoll).Inv := by
  have hsched := h.sched
  have hsingle := h.single
  have hr := h.receives
  have hx := h.reaps
  rw [hpoll] at hsched hsingle
  simp only [willReceive, (receives_of_not_polls hpoll s.missed).1] at hr
  simp only [willReap, (receives_of_not_polls hpoll s.missed).2] at hx
  refine { h with
    sched := ?_
    single := ?_
    ends := fun timeout ret he => absurd he (hends timeout ret)
    unmasks := hunmasks
    acks := ?_
    receives := ?_
    reaps := ?_ }
  · dsimp only
    rw [hp]
    exact hsched
  · dsimp only
    rw [hp]
    exact hsingle
  · exact fun _ hack => by cases hpc.symm.trans hack
  · simp only [willReceive, (receives_of_not_polls hp s.missed).1]
    exact hr
  · simp only [willReap, (receives_of_not_polls hp s.missed).2]
    exact hx

theorem Inv.poll (h : s.Inv) (hpc : s.handler = .idle) (hst : s.pollStep weight = some t) :
    t.Inv := by
  unfold pollStep at hst
  split at hst
  case h_1 hp =>
    obtain rfl := Option.some.inj hst
    have hr : ∀ _ : 0 < s.rxDone, (s.rxSignal || s.intrStatus.getLsbD 0 ||
        (s.listed || (PollPc.rx 0).receives s.missed) || s.resetPending) = true := by
      intro _
      simp [PollPc.receives]
    exact h.polling hpc (by rw [hp]; rfl) rfl hr nofun
  case h_2 count hp =>
    have hpolls : s.poll.polls = true := by rw [hp]; rfl
    have hx := h.reaps
    rw [willReap, hpc, hp] at hx
    simp only [HandlerPc.schedules, Bool.or_false] at hx
    split at hst
    · obtain rfl := Option.some.inj hst
      exact h.relist hpc hpolls
    · split at hst
      · rename_i hzero
        obtain rfl := Option.some.inj hst
        exact h.polling hpc hpolls rfl (fun hd => absurd hzero hd.ne') hx
      · obtain rfl := Option.some.inj hst
        exact h.polling hpc hpolls rfl (fun _ => by simp [PollPc.receives]) hx
  case h_3 hp =>
    obtain rfl := Option.some.inj hst
    exact h.relist hpc (by rw [hp]; rfl)
  case h_4 timeout ret hp =>
    obtain rfl := Option.some.inj hst
    have hends := h.ends timeout ret hp
    have hpoll : s.poll.polls = false := by rw [hp]; rfl
    cases ret with
    | true =>
      refine h.leaving (p := .irqEnable) hpc hpoll rfl nofun ?_
      rw [Bool.or_eq_true]
      exact Or.inr rfl
    | false =>
      obtain rfl : timeout = true := hends
      refine h.leaving (p := .idle) hpc hpoll rfl nofun ?_
      simp
  case h_5 hp =>
    obtain rfl := Option.some.inj hst
    exact h.leaving (p := .idle) hpc (by rw [hp]; rfl) rfl nofun rfl
  case h_6 => cases hst

theorem Inv.complete (h : s.Inv) (hpc : s.handler = .idle) (hp : s.poll = .completeDone)
    {timeout ret : Bool} (hends : (ret || timeout) = true) : (s.complete timeout ret).Inv := by
  have hpolls : s.poll.polls = true := by rw [hp]; rfl
  have hs : s.sched = true := by
    rw [h.sched, hpolls, Bool.or_true]
  have hsingle := h.single
  have hr := h.receives
  have hx := h.reaps
  rw [hpc, hpolls] at hsingle
  simp only [HandlerPc.schedules, Bool.and_false, Bool.false_or, Bool.and_true, Bool.or_false]
    at hsingle
  rw [willReceive, hpc, hp] at hr
  rw [willReap, hpc, hp] at hx
  unfold IrqPoll.complete
  split
  · refine { h with
      sched := ?_
      single := ?_
      ends := nofun
      unmasks := ?_
      acks := ?_
      receives := fun _ => ?_
      reaps := fun _ => ?_ }
    · dsimp only
      rw [hs]
      simp [PollPc.polls]
    · dsimp only
      rw [hsingle, hpc]
      rfl
    · dsimp only
      rw [hs, Bool.or_true]
      rfl
    · exact fun _ hack => by cases hpc.symm.trans hack
    · simp [willReceive, PollPc.receives]
    · simp [willReap, PollPc.reaps]
  · rename_i hmissed
    have hmissed : s.missed = false := Bool.eq_false_iff.mpr hmissed
    rw [hmissed] at hr hx
    refine { h with
      sched := ?_
      single := ?_
      ends := ?_
      unmasks := ?_
      acks := ?_
      receives := ?_
      reaps := ?_ }
    · dsimp only
      rw [hsingle, hpc]
      rfl
    · dsimp only
      rw [hsingle, hpc]
      rfl
    · rintro _ _ he
      obtain ⟨rfl, rfl⟩ := PollPc.timer.inj he
      exact hends
    · simp [PollPc.ends]
    · exact fun _ hack => by cases hpc.symm.trans hack
    · simp only [willReceive, hpc, hmissed]
      exact hr
    · simp only [willReap, hpc, hmissed]
      exact hx

/-! ## The reset and the runs -/

theorem Inv.reset (h : s.Inv) (hpc : s.handler = .idle) (hpoll : s.poll = .idle) :
    s.reset.Inv where
  present := by
    show ((0 : BitVec 32) ||| (rxOK ||| txOK)) &&& 0xffff ≠ 0xffff
    decide
  sched := h.sched
  single := h.single
  ends := fun _ _ he => by cases hpoll.symm.trans he
  unmasks := rfl
  acks := fun _ hack => by cases hpc.symm.trans hack
  receives := nofun
  reaps := nofun

theorem inv_step {e : IrqPollEvent} (h : s.Inv) (hst : step macVersion weight s e = some t) :
    t.Inv := by
  cases e with
  | receive =>
    obtain rfl := Option.some.inj hst
    exact h.receive
  | transmitted =>
    obtain rfl := Option.some.inj hst
    exact h.transmitted
  | signalRx =>
    simp only [step, Option.ite_none_right_eq_some, Option.some.injEq] at hst
    obtain ⟨-, rfl⟩ := hst
    exact h.signalRx
  | signalTx =>
    simp only [step, Option.ite_none_right_eq_some, Option.some.injEq] at hst
    obtain ⟨-, rfl⟩ := hst
    exact h.signalTx
  | raise bits =>
    simp only [step, raise, Option.ite_none_left_eq_some, Option.some.injEq] at hst
    obtain ⟨hpresent, rfl⟩ := hst
    exact h.raised hpresent
  | interrupt =>
    simp only [step, Option.ite_none_right_eq_some] at hst
    obtain ⟨hpc, hst⟩ := hst
    split at hst
    · obtain rfl := Option.some.inj hst
      exact h
    · obtain rfl := Option.some.inj hst
      exact h.interrupt hpc s.intrStatus
  | handler => exact h.handler hst
  | watchdog =>
    simp only [step, Option.ite_none_right_eq_some] at hst
    obtain ⟨⟨hpc, -⟩, hst⟩ := hst
    rw [← apply_ite some, Option.some.injEq] at hst
    exact hst ▸ h.watchdog hpc
  | pollBegin =>
    simp only [step, Option.ite_none_right_eq_some, Option.some.injEq] at hst
    obtain ⟨⟨hpc, -, hlisted⟩, rfl⟩ := hst
    exact h.pollBegin hpc hlisted
  | poll =>
    simp only [step, Option.ite_none_right_eq_some] at hst
    exact h.poll hst.1 hst.2
  | complete timeout ret =>
    simp only [step, Option.ite_none_right_eq_some, Option.some.injEq] at hst
    obtain ⟨⟨hpc, hp, hends⟩, rfl⟩ := hst
    exact h.complete hpc hp hends
  | reset =>
    simp only [step, Option.ite_none_right_eq_some, Option.some.injEq] at hst
    obtain ⟨⟨hpc, hpoll, -⟩, rfl⟩ := hst
    exact h.reset hpc hpoll

theorem inv_run {es : List IrqPollEvent} (h : run (step macVersion weight) init es = some s) :
    s.Inv :=
  run_invariant (fun _ _ _ hs hst => inv_step hs hst) inv_init h

/-! ## At rest -/

/-- Nothing of the driver is under way or arranged for. -/
def Quiet (s : IrqPoll) : Prop :=
  s.handler = .idle ∧ s.poll = .idle ∧ s.listed = false ∧ s.timer = false ∧
    s.resetPending = false

instance : Decidable s.Quiet := inferInstanceAs (Decidable (_ ∧ _))

theorem Inv.not_ignored (h : s.Inv) {i : ℕ} (hbit : s.intrStatus.getLsbD i = true)
    (hmask : (rtlSetIrqMask macVersion).getLsbD i = true) :
    ignored macVersion s.intrStatus = false := by
  unfold ignored
  rw [hasBits_of_bit hbit hmask, Bool.not_true, Bool.or_false, beq_eq_false_iff_ne]
  intro hall
  apply h.present
  rw [BitVec.and_or_distrib_right, hall]
  decide

theorem Inv.interrupt_of_quiet (h : s.Inv) (hq : s.Quiet) {i : ℕ}
    (hbit : s.intrStatus.getLsbD i = true)
    (hmask : (rtlSetIrqMask macVersion).getLsbD i = true) :
    step macVersion weight s .interrupt = some { s with handler := .events s.intrStatus } := by
  simp only [step, if_pos hq.1, h.not_ignored hbit hmask, Bool.false_eq_true, if_false]

/-- **Nothing is stranded.** In every run of the handler and the poll on one CPU, when neither is at
work, the instance is not linked, no timer is armed and no reset pending: the interrupts of the card are
unmasked, and a frame received or a transmission completed has its status bit still to be raised, or the
handler called now takes the events and goes on. -/
theorem no_descriptor_stranded {es : List IrqPollEvent}
    (h : run (step macVersion weight) init es = some s) (hq : s.Quiet) :
    s.irqOn = true ∧
      (0 < s.rxDone → s.rxSignal = true ∨ step macVersion weight s .interrupt =
        some { s with handler := .events s.intrStatus }) ∧
      (0 < s.txDone → s.txSignal = true ∨ step macVersion weight s .interrupt =
        some { s with handler := .events s.intrStatus }) := by
  have hinv := inv_run h
  obtain ⟨hpc, hpoll, hlisted, htimer, hreset⟩ := id hq
  have hs : s.sched = false := by
    rw [hinv.sched, hpc, hpoll, hlisted]
    rfl
  refine ⟨?_, fun hd => ?_, fun hd => ?_⟩
  · have := hinv.unmasks
    rw [hs, htimer, hpoll] at this
    simpa only [PollPc.ends, Bool.or_false] using this
  · have := hinv.receives hd
    simp only [willReceive, hpc, hpoll, hlisted, hreset, HandlerPc.schedules, PollPc.receives,
      Bool.or_false, Bool.or_eq_true] at this
    exact this.imp id fun hbit =>
      hinv.interrupt_of_quiet hq hbit (rtlSetIrqMask_bits macVersion).1
  · have := hinv.reaps hd
    simp only [willReap, hpc, hpoll, hlisted, hreset, HandlerPc.schedules, PollPc.reaps,
      Bool.or_false, Bool.or_eq_true] at this
    exact this.imp id fun hbit =>
      hinv.interrupt_of_quiet hq hbit (rtlSetIrqMask_bits macVersion).2

/-- A frame arrives after the poll has found the ring empty and before it unmasks. -/
def lateFrame : List IrqPollEvent :=
  [.receive, .signalRx, .interrupt, .handler, .handler, .handler, .handler, .handler, .pollBegin,
    .poll, .poll, .poll, .receive, .complete false true, .poll, .signalRx, .poll]

theorem no_descriptor_stranded_late_frame :
    ∃ s t, run (step 20 64) init lateFrame = some s ∧ s.rxDone = 1 ∧ s.irqOn = true ∧
      step 20 64 s .interrupt = some t ∧ t.handler = .events rxOK := by
  obtain ⟨s, hs, hq, hd, hsig, hst⟩ : ∃ s, run (step 20 64) init lateFrame = some s ∧
      s.Quiet ∧ s.rxDone = 1 ∧ s.rxSignal = false ∧ s.intrStatus = rxOK :=
    ⟨_, rfl, by decide, by decide, by decide, by decide⟩
  obtain ⟨hon, hrx, -⟩ := no_descriptor_stranded hs hq
  have hstep := (hrx (by rw [hd]; exact Nat.zero_lt_one)).resolve_left (by rw [hsig]; nofun)
  exact ⟨s, _, hs, hd, hon, hstep, by rw [hst]⟩

end IrqPoll

end CrosRt
