import CrosRt.Driver.RtQueues
import CrosRt.Driver.NonRtQueue
import CrosRt.NetCore.GroBatch

/-! # The handler threads and receive offload

`rt_poll`, `non_rt_poll` and `non_rt_pl_poll` give the buffers they dequeue to `napi_gro_receive`
outside a NAPI poll. No `napi_complete_done` follows, which is where a NAPI poll flushes what
offload holds back.
-/

namespace CrosRt.Gro
set_option autoImplicit false

variable {F : Type*}

inductive HandlerPoll (F : Type*) where
  | rtPoll (queues : RtQueues F)
  | nonRtPoll (nonRt : List F)
  | nonRtPlPoll (nonRt : List F) (period util : ℤ)

def HandlerPoll.dequeued : HandlerPoll F → List F
  | .rtPoll queues => (CrosRt.rtPoll queues).delivered
  | .nonRtPoll nonRt => (CrosRt.nonRtPoll nonRt).delivered
  | .nonRtPlPoll nonRt period util => (CrosRt.nonRtPlPoll nonRt period util).delivered

/-- Nothing is held and nothing is pending; the record of what went where starts here. -/
structure Napi.Idle (napi : Napi F) : Prop where
  groHash : ∀ bucket, napi.groHash bucket = ⟨[], 0⟩
  rx : napi.rx = ⟨[], 0, [], [], []⟩

/-- No frame is stranded: each of them was passed up, merged into a buffer that was, or freed, and
none is held for merging or pending. -/
structure NotStranded (frames : List F) (napi : Napi F) : Prop where
  settled : framesOf napi.rx.passedUp + framesOf napi.rx.freed +
    consumedFrames (napi.rx.consumed.filter fun taken => taken.2 ≠ .kept) = frames
  groHash : ∀ bucket, (napi.groHash bucket).list = []
  rxList : napi.rx.rxList = []

/-- The answers of the callbacks under which a batch settles. In each bucket as many buffers are
completed as frames become held, the last count handed to `gro_normal_one` is not 0, and no callback
keeps a frame. -/
structure Settling (es : List (GroFrame F)) : Prop where
  balanced : ∀ bucket, balanceOf bucket es = 0
  handed : (es.flatMap GroFrame.handed).getLast? ≠ some 0
  taken : ∀ taken ∈ es.flatMap GroFrame.taken, taken.2 ≠ .kept

section Settle
variable {napi napi' : Napi F} {es : List (GroFrame F)}

theorem Napi.Idle.counted (h : napi.Idle) : napi.Counted := by
  intro bucket
  constructor
  · rw [Napi.work, h.groHash bucket]
    rfl
  · rw [Napi.work, h.rx]

theorem Napi.Idle.frames (h : napi.Idle) : napi.frames = 0 := by
  have hheld : ∑ bucket, heldFrames (napi.groHash bucket).list = 0 :=
    Finset.sum_eq_zero fun bucket _ => by rw [h.groHash bucket, heldFrames_nil]
  rw [Napi.frames, hheld, h.rx]
  rfl

theorem consumedFrames_filter_add (consumed : List (F × Fate)) :
    consumedFrames (consumed.filter fun taken => taken.2 ≠ .kept) +
      consumedFrames (consumed.filter fun taken => taken.2 = .kept) = consumedFrames consumed := by
  induction consumed with
  | nil => rfl
  | cons taken rest ih =>
    have hcons : ∀ l : List (F × Fate), consumedFrames (taken :: l) =
        {taken.1} + consumedFrames l := fun _ => rfl
    by_cases h : taken.2 = .kept
    · rw [List.filter_cons_of_neg (by simpa using h), List.filter_cons_of_pos (by simpa using h),
        hcons, hcons, add_left_comm, ih]
    · rw [List.filter_cons_of_pos (by simpa using h), List.filter_cons_of_neg (by simpa using h),
        hcons, hcons, add_assoc, ih]

theorem consumedFrames_eq_zero {consumed : List (F × Fate)} :
    consumedFrames consumed = 0 ↔ consumed = [] := by
  rw [consumedFrames, Multiset.coe_eq_zero, List.map_eq_nil_iff]

theorem heldFrames_sum_eq_zero (h : ∀ bucket, (napi.groHash bucket).list = []) :
    ∑ bucket, heldFrames (napi.groHash bucket).list = 0 :=
  Finset.sum_eq_zero fun bucket _ => by rw [h bucket, heldFrames_nil]

/-- With nothing held and nothing pending, the frames are settled that no callback kept. -/
theorem settled_iff {frames : List F} (hframes : napi.frames = frames)
    (hheld : ∀ bucket, (napi.groHash bucket).list = []) (hrx : napi.rx.rxList = []) :
    framesOf napi.rx.passedUp + framesOf napi.rx.freed +
        consumedFrames (napi.rx.consumed.filter fun taken => taken.2 ≠ .kept) = frames ↔
      ∀ taken ∈ napi.rx.consumed, taken.2 ≠ .kept := by
  rw [Napi.frames, heldFrames_sum_eq_zero hheld, zero_add, NapiRx.frames, hrx, framesOf_nil,
    zero_add, ← consumedFrames_filter_add, ← add_assoc] at hframes
  rw [← hframes, left_eq_add, consumedFrames_eq_zero, List.filter_eq_nil_iff]
  simp only [decide_eq_true_eq, ne_eq]

/-- **Exact condition of a batch.** Of the frames given to an idle instance none is stranded exactly
when the callbacks' answers settle them. -/
theorem notStranded_iff (hidle : napi.Idle)
    (hrun : LabelledRuns.run receive napi es = some napi') :
    NotStranded (es.map GroFrame.skb) napi' ↔ Settling es := by
  have hbatch := batch_of_run hidle.counted hrun
  have hframes : napi'.frames = (es.map GroFrame.skb : List F) := by
    rw [hbatch.frames, hidle.frames, zero_add]
  have hlist : ∀ bucket, (napi'.groHash bucket).list = [] ↔ balanceOf bucket es = 0 := by
    intro bucket
    have hlen := hbatch.length bucket
    rw [hidle.groHash bucket, List.length_nil] at hlen
    rw [← List.length_eq_zero_iff]
    omega
  have hrx : napi'.rx.rxList = [] ↔ (es.flatMap GroFrame.handed).getLast? ≠ some 0 := by
    rw [hbatch.rx.rxList, ← clearAfter_true_iff]
    exact clearAfter_congr (iff_true_intro (congrArg NapiRx.rxList hidle.rx)) _
  have hconsumed : napi'.rx.consumed = es.flatMap GroFrame.taken := by
    rw [hbatch.rx.consumed, hidle.rx, List.nil_append]
  constructor
  · intro h
    have hsettled := (settled_iff hframes h.groHash h.rxList).mp h.settled
    rw [hconsumed] at hsettled
    exact ⟨fun bucket => (hlist bucket).mp (h.groHash bucket), hrx.mp h.rxList, hsettled⟩
  · intro h
    have hheld : ∀ bucket, (napi'.groHash bucket).list = [] :=
      fun bucket => (hlist bucket).mpr (h.balanced bucket)
    have hclear := hrx.mpr h.handed
    refine ⟨(settled_iff hframes hheld hclear).mpr ?_, hheld, hclear⟩
    rw [hconsumed]
    exact h.taken

/-- **No stranded frame.** For each of the three servers: the buffers it dequeues are settled when it
returns exactly when the callbacks' answers settle them. -/
theorem poll_notStranded_iff (poll : HandlerPoll F) (hidle : napi.Idle)
    (hskb : es.map GroFrame.skb = poll.dequeued)
    (hrun : LabelledRuns.run receive napi es = some napi') :
    NotStranded poll.dequeued napi' ↔ Settling es := by
  rw [← hskb]
  exact notStranded_iff hidle hrun

end Settle

theorem initNapi_idle (F : Type*) : (initNapi F).Idle := ⟨fun _ => rfl, rfl⟩

/-- A TCP segment of a flow of which nothing is held: it starts a buffer. -/
def firstSegment : GroFrame ℕ :=
  { skb := 7, hash := 13, jiffies := 0
    groReceive := some
      { counts := [], pp := .null, sameFlow := none, free := false, flush := false
        ppComplete := none, oldestComplete := none } }

/-- The next segment with PSH: it is merged into that buffer, which the answer completes. -/
def pushSegment : GroFrame ℕ :=
  { skb := 8, hash := 13, jiffies := 0
    groReceive := some
      { counts := [2], pp := .held 0, sameFlow := some 0, free := true, flush := false
        ppComplete := some 2, oldestComplete := none } }

theorem settling_push : Settling [firstSegment, pushSegment] :=
  ⟨by decide, by decide, by decide⟩

theorem poll_notStranded_push :
    ∃ napi', LabelledRuns.run receive (initNapi ℕ) [firstSegment, pushSegment] = some napi' ∧
      NotStranded (HandlerPoll.nonRtPoll [7, 8]).dequeued napi' := by
  refine ⟨_, rfl, ?_⟩
  have hskb : [firstSegment, pushSegment].map GroFrame.skb =
      (HandlerPoll.nonRtPoll [7, 8]).dequeued := rfl
  exact (poll_notStranded_iff (.nonRtPoll [7, 8]) (initNapi_idle ℕ) hskb rfl).mpr settling_push

/-- The first segment alone stays on the list of its bucket. -/
theorem stranded_first_segment :
    ∃ napi', LabelledRuns.run receive (initNapi ℕ) [firstSegment] = some napi' ∧
      (napi'.groHash 5).list.map (fun p => p.frame) = [7] ∧ napi'.rx.passedUp.length = 0 ∧
      ¬ NotStranded (HandlerPoll.nonRtPoll [7]).dequeued napi' :=
  ⟨_, rfl, rfl, rfl, fun h => absurd (h.groHash 5) (List.cons_ne_nil _ _)⟩

end CrosRt.Gro
