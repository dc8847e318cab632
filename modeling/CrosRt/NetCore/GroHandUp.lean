import CrosRt.NetCore.GroBatch

/-! # Handing up without a batch

`napi_gro_flush` and `napi_complete_done` of `net/core/dev.c` beside `napi_gro_receive`, in any order
of calls. As `gro_normal_one` hands `rx_list` up at once, the list is empty between two calls: a
frame that offload does not keep is on its way when the call returns, behind the buffers that the
same call completed.
-/

namespace CrosRt.Gro
set_option autoImplicit false

/-- What one round of the loop of `__napi_gro_flush_chain` meets: the value of `jiffies`, and the
answer of `gro_complete` should the buffer be completed. -/
structure FlushAnswer where
  jiffies : ℕ
  groComplete : Option ℕ

/-- The loop of `__napi_gro_flush_chain`: what it leaves of the list, the oldest first, and whether
it returned at a buffer of this tick. -/
structure ChainFlush (F : Type*) where
  rest : List (HeldSkb F)
  count : ℤ
  rx : NapiRx F
  returned : Bool

/-- The state flags of a call of `napi_complete_done` (`NPSVC` or `IN_BUSY_POLL`, `MISSED`), the
settings of the device at the two places where they are read, and what its flush meets. -/
structure CompleteDone where
  busy : Bool
  missed : Bool
  workDone : ℤ
  napiDeferHardIrqs : ℤ
  groFlushTimeout : ℕ
  deferredTimeout : ℕ
  answers : Fin 8 → ℕ → FlushAnswer

structure NapiInstance (F : Type*) where
  napi : Napi F
  deferHardIrqsCount : ℤ

inductive GroCall (F : Type*) where
  | receive (e : GroFrame F)
  | flush (flushOld : Bool) (answers : Fin 8 → ℕ → FlushAnswer)
  | completeDone (c : CompleteDone)

section Model
variable {F : Type*}

def flushLoop (flushOld : Bool) :
    (ℕ → FlushAnswer) → List (HeldSkb F) → ℤ → NapiRx F → ChainFlush F
  | _, [], count, rx => ⟨[], count, rx, false⟩
  | answers, skb :: rest, count, rx =>
      if flushOld ∧ skb.age = (answers 0).jiffies then ⟨skb :: rest, count, rx, true⟩
      else
        flushLoop flushOld (fun k => answers (k + 1)) rest (count - 1)
          (napiGroComplete rx skb (answers 0).groComplete)

/-- `__napi_gro_flush_chain`: the list from its tail; the bit is cleared where the loop ends. -/
def napiGroFlushChain (napi : Napi F) (index : Fin 8) (flushOld : Bool)
    (answers : ℕ → FlushAnswer) : Napi F :=
  let groList := napi.groHash index
  let flushed := flushLoop flushOld answers groList.list.reverse groList.count napi.rx
  ⟨Function.update napi.groHash index ⟨flushed.rest.reverse, flushed.count⟩,
    if !flushed.returned && flushed.count == 0 then
      Function.update napi.groBitmask index false
    else napi.groBitmask,
    flushed.rx⟩

/-- `napi_gro_flush`: the buckets whose bits were set at the start, the lowest first. -/
def napiGroFlush (napi : Napi F) (flushOld : Bool) (answers : Fin 8 → ℕ → FlushAnswer) : Napi F :=
  ((List.finRange 8).filter napi.groBitmask).foldl
    (fun napi index => napiGroFlushChain napi index flushOld (answers index)) napi

def Napi.anyBit (napi : Napi F) : Bool := (List.finRange 8).any napi.groBitmask

/-- The timeout, the counter and the value to return after the two tests of `napi_complete_done`. -/
def CompleteDone.timeout (c : CompleteDone) (anyBit : Bool) (deferHardIrqsCount : ℤ) :
    ℕ × ℤ × Bool :=
  let timeout := if c.workDone ≠ 0 ∧ anyBit then c.groFlushTimeout else 0
  let count := if c.workDone ≠ 0 then c.napiDeferHardIrqs else deferHardIrqsCount
  if 0 < count then (c.deferredTimeout, count - 1, c.deferredTimeout == 0)
  else (timeout, count, true)

/-- `napi_complete_done` without the poll list, the state word and the timer: the instance and the
value returned. -/
def napiCompleteDone (s : NapiInstance F) (c : CompleteDone) : NapiInstance F × Bool :=
  if c.busy then (s, false)
  else
    let (timeout, count, ret) := c.timeout s.napi.anyBit s.deferHardIrqsCount
    let napi := if s.napi.anyBit then napiGroFlush s.napi (timeout ≠ 0) c.answers else s.napi
    (⟨{ napi with rx := groNormalList napi.rx }, count⟩, if c.missed then false else ret)

def step (s : NapiInstance F) : GroCall F → Option (NapiInstance F)
  | .receive e => (receive s.napi e).map fun napi => { s with napi := napi }
  | .flush flushOld answers => some { s with napi := napiGroFlush s.napi flushOld answers }
  | .completeDone c => some (napiCompleteDone s c).1

def initInstance (F : Type*) : NapiInstance F := ⟨initNapi F, 0⟩

end Model

/-! ## Callbacks that keep the count -/

/-- `gro_complete` fails or leaves a count of 1 at least. -/
def KeepsCount (groComplete : Option ℕ) : Prop := ∀ count ∈ groComplete, 1 ≤ count

def GroReceive.KeepsCounts (cb : GroReceive) : Prop :=
  KeepsCount cb.ppComplete ∧ KeepsCount cb.oldestComplete

def AnswersKeepCounts (answers : ℕ → FlushAnswer) : Prop := ∀ k, KeepsCount (answers k).groComplete

def GroFrame.KeepsCounts {F : Type*} (e : GroFrame F) : Prop :=
  ∀ cb ∈ e.groReceive, cb.KeepsCounts

def GroCall.KeepsCounts {F : Type*} : GroCall F → Prop
  | .receive e => e.KeepsCounts
  | .flush _ answers => ∀ index, AnswersKeepCounts (answers index)
  | .completeDone c => ∀ index, AnswersKeepCounts (c.answers index)

theorem clearAfter_of_forall {clear : Prop} {handed : List ℕ} (h : clear)
    (hhanded : ∀ count ∈ handed, 1 ≤ count) : clearAfter clear handed := by
  induction handed using List.reverseRecOn with
  | nil => exact h
  | append_singleton handed count _ =>
    have hcount := hhanded count (List.mem_append_right _ (List.mem_singleton_self count))
    rw [clearAfter_append]
    exact Nat.one_le_iff_ne_zero.mp hcount

theorem handedCounts_pos {groComplete : Option ℕ} (h : KeepsCount groComplete) (count : ℕ) :
    ∀ c ∈ handedCounts count groComplete, 1 ≤ c := by
  intro c hc
  rw [handedCounts] at hc
  by_cases hone : count = 1
  · rw [if_pos hone, List.mem_singleton] at hc
    omega
  · rw [if_neg hone, Option.mem_toList] at hc
    exact h c hc

theorem someHanded_pos {groComplete : Option ℕ} (h : KeepsCount groComplete)
    (count : Option ℕ) : ∀ c ∈ someHanded count groComplete, 1 ≤ c := by
  cases count with
  | none => exact fun c hc => absurd hc List.not_mem_nil
  | some count => exact handedCounts_pos h count

theorem GroReceive.holdHanded_pos {cb : GroReceive} (h : cb.KeepsCounts) (counts : List ℕ) :
    ∀ c ∈ cb.holdHanded counts, 1 ≤ c := by
  intro c hc
  rw [GroReceive.holdHanded] at hc
  by_cases hsame : cb.sameFlow.isSome
  · rw [if_pos hsame] at hc
    exact absurd hc List.not_mem_nil
  · rw [if_neg hsame] at hc
    by_cases hflush : cb.flush
    · rw [if_pos hflush, List.mem_singleton] at hc
      omega
    · rw [if_neg hflush, oldestHanded] at hc
      by_cases hfull : 8 ≤ counts.length
      · rw [if_pos hfull] at hc
        exact someHanded_pos h.2 _ c hc
      · rw [if_neg hfull] at hc
        exact absurd hc List.not_mem_nil

theorem GroFrame.handed_pos {F : Type*} {e : GroFrame F} (h : e.KeepsCounts) :
    ∀ c ∈ e.handed, 1 ≤ c := by
  rw [GroFrame.handed]
  cases hcb : e.groReceive with
  | none => exact fun c hc => by rw [List.mem_singleton] at hc; omega
  | some cb =>
    have hk : cb.KeepsCounts := h cb hcb
    simp only [GroReceive.handed]
    cases cb.pp with
    | inProgress fate => exact fun c hc => absurd hc List.not_mem_nil
    | null => exact GroReceive.holdHanded_pos hk _
    | held i =>
      intro c hc
      rcases List.mem_append.mp hc with hc | hc
      · exact someHanded_pos hk.1 _ c hc
      · exact GroReceive.holdHanded_pos hk _ c hc

section HandUp
variable {F : Type*}

/-! ## Flushing -/

theorem heldFrames_reverse (list : List (HeldSkb F)) :
    heldFrames list.reverse = heldFrames list := by
  rw [heldFrames, heldFrames, framesOf, framesOf, List.map_reverse, List.map_reverse,
    List.sum_reverse]

theorem flushLoop_moves (flushOld : Bool) (answers : ℕ → FlushAnswer)
    (hk : AnswersKeepCounts answers) (list : List (HeldSkb F)) (count : ℤ) {rx : NapiRx F}
    (hrx : rx.rxCount = 0) :
    ∃ handed, RxMoves rx (flushLoop flushOld answers list count rx).rx handed [] ∧
      (∀ c ∈ handed, 1 ≤ c) ∧
      (flushLoop flushOld answers list count rx).count =
        count - list.length + (flushLoop flushOld answers list count rx).rest.length ∧
      heldFrames (flushLoop flushOld answers list count rx).rest +
        (flushLoop flushOld answers list count rx).rx.frames = heldFrames list + rx.frames := by
  induction list generalizing answers count rx with
  | nil =>
    refine ⟨[], RxMoves.refl hrx, fun c hc => absurd hc List.not_mem_nil, ?_, rfl⟩
    simp [flushLoop]
  | cons skb rest ih =>
    rw [flushLoop]
    by_cases hyoung : flushOld ∧ skb.age = (answers 0).jiffies
    · simp only [if_pos hyoung]
      exact ⟨[], RxMoves.refl hrx, fun c hc => absurd hc List.not_mem_nil, by omega, trivial⟩
    · simp only [if_neg hyoung]
      have hm := napiGroComplete_moves hrx skb (answers 0).groComplete
      obtain ⟨handed, hrest, hpos, hcount, hframes⟩ :=
        ih (fun k => answers (k + 1)) (fun k => hk (k + 1)) (count - 1) hm.rxCount
      refine ⟨_, hm.trans hrest, ?_, ?_, ?_⟩
      · intro c hc
        rcases List.mem_append.mp hc with hc | hc
        · exact handedCounts_pos (hk 0) _ c hc
        · exact hpos c hc
      · rw [hcount, List.length_cons]
        omega
      · rw [hframes, napiGroComplete_frames, heldFrames_cons]
        abel

/-- Between two calls: the counts are right and nothing is pending. -/
structure Clear (napi : Napi F) : Prop where
  counted : napi.Counted
  rxList : napi.rx.rxList = []

theorem Clear.rxCount {napi : Napi F} (h : Clear napi) : napi.rx.rxCount = 0 := (h.counted 0).rxCount

theorem clear_of_moves {napi napi' : Napi F} (hn : Clear napi) {bucket : Fin 8} {b : ℤ}
    {handed : List ℕ} {taken : List (F × Fate)} {f : Multiset F}
    (hne : ∀ c, c ≠ bucket → napi'.groHash c = napi.groHash c)
    (m : WorkMoves (napi.work bucket) (napi'.work bucket) b handed taken f)
    (hpos : ∀ c ∈ handed, 1 ≤ c) : Clear napi' where
  counted := counted_of_moves hn.counted hne m
  rxList := m.rx.rxList.mpr (clearAfter_of_forall hn.rxList hpos)

theorem napiGroFlushChain_keeps {napi : Napi F} (hn : Clear napi) (index : Fin 8)
    (flushOld : Bool) {answers : ℕ → FlushAnswer} (hk : AnswersKeepCounts answers) :
    Clear (napiGroFlushChain napi index flushOld answers) ∧
      (napiGroFlushChain napi index flushOld answers).frames = napi.frames := by
  obtain ⟨handed, hrx, hpos, hcount, hframes⟩ :=
    flushLoop_moves flushOld _ hk (napi.groHash index).list.reverse (napi.groHash index).count
      hn.rxCount
  have hne : ∀ c, c ≠ index →
      (napiGroFlushChain napi index flushOld answers).groHash c = napi.groHash c :=
    fun c hc => Function.update_of_ne hc _ _
  have hlist : (napi.groHash index).count = (napi.groHash index).list.length :=
    (hn.counted index).count
  rw [List.length_reverse] at hcount
  have hm : WorkMoves (napi.work index)
      ((napiGroFlushChain napi index flushOld answers).work index)
      ((flushLoop flushOld answers (napi.groHash index).list.reverse
        (napi.groHash index).count napi.rx).rest.length - (napi.groHash index).list.length)
      handed [] 0 := by
    simp only [Napi.work, napiGroFlushChain, Function.update_self]
    refine ⟨?_, ?_, hrx, ?_⟩
    · simp only [List.length_reverse]
      omega
    · simp only [List.length_reverse]
      omega
    · simp only [GroWork.frames, heldFrames_reverse, hframes, add_zero]
  exact ⟨clear_of_moves hn hne hm hpos, (frames_of_moves hne hm).trans (add_zero _)⟩

theorem napiGroFlush_keeps {napi : Napi F} (hn : Clear napi) (flushOld : Bool)
    {answers : Fin 8 → ℕ → FlushAnswer} (hk : ∀ index, AnswersKeepCounts (answers index)) :
    Clear (napiGroFlush napi flushOld answers) ∧
      (napiGroFlush napi flushOld answers).frames = napi.frames := by
  rw [napiGroFlush]
  generalize (List.finRange 8).filter napi.groBitmask = buckets
  induction buckets generalizing napi with
  | nil => exact ⟨hn, rfl⟩
  | cons index buckets ih =>
    obtain ⟨hclear, hframes⟩ := napiGroFlushChain_keeps hn index flushOld (hk index)
    obtain ⟨hclear', hframes'⟩ := ih hclear
    exact ⟨hclear', hframes'.trans hframes⟩

/-! ## One call -/

def GroCall.received : GroCall F → Multiset F
  | .receive e => {e.skb}
  | .flush _ _ | .completeDone _ => 0

theorem napiCompleteDone_keeps {s : NapiInstance F} (hs : Clear s.napi) {c : CompleteDone}
    (hk : ∀ index, AnswersKeepCounts (c.answers index)) :
    Clear (napiCompleteDone s c).1.napi ∧
      (napiCompleteDone s c).1.napi.frames = s.napi.frames := by
  -- with `rx_count` 0 the last `gro_normal_list` does nothing
  have hidle : ∀ napi : Napi F, Clear napi → { napi with rx := groNormalList napi.rx } = napi := by
    intro napi hn
    rw [groNormalList, if_pos hn.rxCount]
  rw [napiCompleteDone]
  by_cases hbusy : c.busy
  · rw [if_pos hbusy]
    exact ⟨hs, rfl⟩
  · rw [if_neg hbusy]
    by_cases hany : s.napi.anyBit
    · simp only [if_pos hany]
      have hflush := fun flushOld => napiGroFlush_keeps hs flushOld hk
      rw [hidle _ (hflush _).1]
      exact hflush _
    · simp only [if_neg hany]
      rw [hidle _ hs]
      exact ⟨hs, rfl⟩

theorem step_keeps {s t : NapiInstance F} (hs : Clear s.napi) {c : GroCall F}
    (hk : c.KeepsCounts) (h : step s c = some t) :
    Clear t.napi ∧ t.napi.frames = s.napi.frames + c.received := by
  cases c with
  | receive e =>
    obtain ⟨napi, hnapi, rfl⟩ := Option.map_eq_some_iff.mp h
    obtain ⟨r, hr, rfl⟩ := Option.map_eq_some_iff.mp hnapi
    obtain ⟨hne, hm⟩ := napiGroReceive_moves hs.counted hr
    exact ⟨clear_of_moves hs hne hm (GroFrame.handed_pos hk), frames_of_moves hne hm⟩
  | flush flushOld answers =>
    obtain rfl := Option.some.inj h
    exact (napiGroFlush_keeps hs flushOld hk).imp_right fun hf => hf.trans (add_zero _).symm
  | completeDone c =>
    obtain rfl := Option.some.inj h
    exact (napiCompleteDone_keeps hs hk).imp_right fun hf => hf.trans (add_zero _).symm

/-! ## The order within a call -/

/-- A frame with the verdict `GRO_NORMAL` is handed up by its call as it came, and last: before it
come the buffers of its bucket that the call completed and did not free. -/
def HandsUpLast (napi napi' : Napi F) (e : GroFrame F) : Prop :=
  ∃ older freed, napi'.rx.passedUp = napi.rx.passedUp ++ older ++ [⟨e.skb, []⟩] ∧
    napi'.rx.freed = napi.rx.freed ++ freed ∧
    ((napi.groHash e.bucket).list.map HeldSkb.toSkb).Perm
      (older ++ freed ++ (napi'.groHash e.bucket).list.map HeldSkb.toSkb)

theorem groNormalOne_of_clear {rx : NapiRx F} (hlist : rx.rxList = []) (hcount : rx.rxCount = 0)
    (skb : Skb F) {segs : ℕ} (hsegs : 1 ≤ segs) :
    groNormalOne rx skb segs = { rx with passedUp := rx.passedUp ++ [skb] } := by
  have hne : ¬ (0 + segs : ℤ) = 0 := by omega
  rw [groNormalOne, groNormalList, hlist, hcount]
  simp only [if_neg hne, List.nil_append]

theorem napiGroComplete_of_clear {rx : NapiRx F} (hlist : rx.rxList = []) (hcount : rx.rxCount = 0)
    (p : HeldSkb F) {groComplete : Option ℕ} (hk : KeepsCount groComplete) :
    ∃ up freed, napiGroComplete rx p groComplete =
        { rx with passedUp := rx.passedUp ++ up, freed := rx.freed ++ freed } ∧
      up ++ freed = [p.toSkb] := by
  unfold napiGroComplete
  by_cases hone : p.count = 1
  · rw [if_pos hone, groNormalOne_of_clear hlist hcount _ (by omega)]
    exact ⟨[p.toSkb], [], by rw [List.append_nil], rfl⟩
  · rw [if_neg hone]
    cases groComplete with
    | none => exact ⟨[], [p.toSkb], by rw [List.append_nil], rfl⟩
    | some count =>
      have hpos : 1 ≤ count := hk count rfl
      simp only [groNormalOne_of_clear hlist hcount _ hpos]
      exact ⟨[p.toSkb], [], by rw [List.append_nil], rfl⟩

/-- The verdict is `GRO_NORMAL` only where the frame was not merged, and nothing is done to the
list then. -/
theorem mergeOrHold_normal {w w' : GroWork F} {skb : F} {age : ℕ} {cb : GroReceive}
    (h : mergeOrHold w skb age cb = (w', .normal)) : cb.sameFlow = none ∧ w' = w := by
  rw [mergeOrHold] at h
  by_cases hsame : cb.sameFlow.isSome
  · rw [if_pos hsame, Prod.mk.injEq] at h
    cases hfree : cb.free <;> simp [hfree] at h
  · rw [if_neg hsame] at h
    by_cases hflush : cb.flush
    · rw [if_pos hflush, Prod.mk.injEq] at h
      exact ⟨by simpa using hsame, h.1.symm⟩
    · rw [if_neg hflush, Prod.mk.injEq] at h
      exact absurd h.2 (by decide)

theorem call_toSkb {cb : GroReceive} (hsame : cb.sameFlow = none) {skb : F}
    {list list' : List (HeldSkb F)} (h : cb.call skb list = some list') :
    list'.map HeldSkb.toSkb = list.map HeldSkb.toSkb := by
  have hmerges : cb.mergesInto = none := by
    rw [GroReceive.mergesInto]
    cases cb.pp with
    | inProgress fate => rfl
    | null => exact hsame
    | held i => exact hsame
  rw [GroReceive.call, hmerges] at h
  by_cases hlen : cb.counts.length = list.length
  · rw [if_pos hlen] at h
    obtain rfl := Option.some.inj h
    exact recount_toSkb hlen
  · rw [if_neg hlen] at h
    exact absurd h (Option.some_ne_none list').symm

/-- What the call has completed when it comes to its verdict `GRO_NORMAL`. -/
theorem groListReceive_normal {w w' : GroWork F} (hlist : w.rx.rxList = [])
    (hcount : w.rx.rxCount = 0) {skb : F} {age : ℕ} {cb : GroReceive} (hk : cb.KeepsCounts)
    (h : groListReceive w skb age cb = some (w', .normal)) :
    ∃ older freed, w'.rx =
        { w.rx with passedUp := w.rx.passedUp ++ older, freed := w.rx.freed ++ freed } ∧
      (w.groList.list.map HeldSkb.toSkb).Perm
        (older ++ freed ++ w'.groList.list.map HeldSkb.toSkb) := by
  rw [groListReceive, Option.bind_eq_some_iff] at h
  obtain ⟨list, hcall, h⟩ := h
  cases hpp : cb.pp with
  | inProgress fate => simp [hpp] at h
  | null =>
    simp only [hpp, Option.some.injEq] at h
    obtain ⟨hsame, rfl⟩ := mergeOrHold_normal h
    refine ⟨[], [], by simp only [List.append_nil], ?_⟩
    rw [List.append_nil, List.nil_append, call_toSkb hsame hcall]
  | held i =>
    simp only [hpp] at h
    obtain ⟨w₁, hcomplete, h⟩ := Option.map_eq_some_iff.mp h
    obtain ⟨hsame, rfl⟩ := mergeOrHold_normal h
    obtain ⟨p, hp, rfl⟩ := Option.map_eq_some_iff.mp hcomplete
    obtain ⟨up, freed, hrx, hskb⟩ := napiGroComplete_of_clear hlist hcount p hk.1
    refine ⟨up, freed, hrx, ?_⟩
    obtain ⟨hi, hget⟩ := List.getElem?_eq_some_iff.mp hp
    have hperm := (List.getElem_cons_eraseIdx_perm hi).symm.map HeldSkb.toSkb
    rw [hget, List.map_cons, call_toSkb hsame hcall] at hperm
    rwa [hskb, List.singleton_append]

theorem handsUpLast {napi napi' : Napi F} (hn : Clear napi) {e : GroFrame F}
    (hk : e.KeepsCounts) (h : napiGroReceive napi e = some (napi', .normal)) :
    HandsUpLast napi napi' e := by
  obtain ⟨⟨napi₁, verdict⟩, hdev, hfinish⟩ := Option.map_eq_some_iff.mp h
  obtain ⟨⟨w, verdict'⟩, hreceived, hset⟩ := Option.map_eq_some_iff.mp hdev
  simp only [Prod.mk.injEq] at hfinish hset
  obtain ⟨rfl, rfl⟩ := hset
  obtain ⟨rfl, rfl⟩ := hfinish
  have hbucket : ((napi.setBucket e.bucket w).groHash e.bucket) = w.groList :=
    Function.update_self _ _ _
  have hrx : ∀ rx : NapiRx F, rx.rxList = [] → rx.rxCount = 0 →
      napiSkbFinish rx e.skb .normal = { rx with passedUp := rx.passedUp ++ [⟨e.skb, []⟩] } :=
    fun rx hlist hcount => groNormalOne_of_clear hlist hcount _ (le_refl 1)
  cases hcb : e.groReceive with
  | none =>
    simp only [hcb, Option.some.injEq, Prod.mk.injEq, and_true] at hreceived
    subst hreceived
    refine ⟨[], [], ?_, ?_, ?_⟩
    · simp only [Napi.setBucket, hrx napi.rx hn.rxList hn.rxCount, List.append_nil]
    · simp only [Napi.setBucket, hrx napi.rx hn.rxList hn.rxCount, List.append_nil]
    · rw [hbucket, List.append_nil, List.nil_append]
  | some cb =>
    simp only [hcb] at hreceived
    obtain ⟨older, freed, hw, hperm⟩ :=
      groListReceive_normal hn.rxList hn.rxCount (hk cb hcb) hreceived
    have hfinal := hrx w.rx (by rw [hw]; exact hn.rxList) (by rw [hw]; exact hn.rxCount)
    refine ⟨older, freed, ?_, ?_, ?_⟩
    · show (napiSkbFinish w.rx e.skb .normal).passedUp = _
      rw [hfinal, hw]
    · show (napiSkbFinish w.rx e.skb .normal).freed = _
      rw [hfinal, hw]
    · rw [hbucket]
      exact hperm

/-! ## Any sequence of calls -/

def received (calls : List (GroCall F)) : Multiset F := (calls.map GroCall.received).sum

theorem received_cons (c : GroCall F) (calls : List (GroCall F)) :
    received (c :: calls) = c.received + received calls := by
  rw [received, List.map_cons, List.sum_cons, received]

theorem initNapi_clear (F : Type*) : Clear (initNapi F) := ⟨fun _ => ⟨rfl, rfl⟩, rfl⟩

theorem initNapi_frames (F : Type*) : (initNapi F).frames = 0 :=
  (add_zero _).trans (Finset.sum_eq_zero fun _ _ => rfl)

theorem run_keeps {s t : NapiInstance F} (hs : Clear s.napi) {calls : List (GroCall F)}
    (hk : ∀ c ∈ calls, c.KeepsCounts) (h : LabelledRuns.run step s calls = some t) :
    Clear t.napi ∧ t.napi.frames = s.napi.frames + received calls := by
  induction calls generalizing s with
  | nil =>
    obtain rfl := Option.some.inj h
    exact ⟨hs, (add_zero _).symm⟩
  | cons c calls ih =>
    obtain ⟨u, hu, hrun⟩ := LabelledRuns.run_cons_eq_some.mp h
    obtain ⟨hc, hcalls⟩ := List.forall_mem_cons.mp hk
    obtain ⟨hclear, hframes⟩ := step_keeps hs hc hu
    obtain ⟨hclear', hframes'⟩ := ih hclear hcalls hrun
    refine ⟨hclear', ?_⟩
    rw [hframes', hframes, received_cons, add_assoc]

theorem heads_le_framesOf (skbs : List (Skb F)) :
    (skbs.map (fun skb => skb.frame) : Multiset F) ≤ framesOf skbs := by
  induction skbs with
  | nil => exact le_refl _
  | cons skb skbs ih =>
    rw [List.map_cons, framesOf, List.map_cons, List.sum_cons, ← framesOf, Skb.frames,
      ← Multiset.cons_coe, Multiset.cons_add]
    exact Multiset.cons_le_cons _ (ih.trans (Multiset.le_add_left _ _))

theorem framesOf_passedUp_le (napi : Napi F) : framesOf napi.rx.passedUp ≤ napi.frames := by
  rw [Napi.frames, NapiRx.frames]
  have h : framesOf napi.rx.passedUp ≤ framesOf napi.rx.rxList + framesOf napi.rx.passedUp :=
    Multiset.le_add_left _ _
  exact ((h.trans (Multiset.le_add_right _ _)).trans (Multiset.le_add_right _ _)).trans
    (Multiset.le_add_left _ _)

/-- **Immediate hand-up.** After any calls from `init_gro_hash` on, whose callbacks keep the count of
a buffer at 1 at least: `rx_list` is empty and `rx_count` 0, each buffer was handed up at most as
often as it was received, and a frame received next with the verdict `GRO_NORMAL` is handed up by
its call, behind the older buffers that this call completes. -/
theorem immediate_hand_up {calls : List (GroCall F)} {s : NapiInstance F}
    (hk : ∀ c ∈ calls, c.KeepsCounts)
    (h : LabelledRuns.run step (initInstance F) calls = some s) :
    s.napi.rx.rxList = [] ∧ s.napi.rx.rxCount = 0 ∧
      (s.napi.rx.passedUp.map (fun skb => skb.frame) : Multiset F) ≤ received calls ∧
      ∀ e napi', e.KeepsCounts → napiGroReceive s.napi e = some (napi', .normal) →
        HandsUpLast s.napi napi' e := by
  obtain ⟨hclear, hframes⟩ := run_keeps (initNapi_clear F) hk h
  refine ⟨hclear.rxList, hclear.rxCount, ?_, fun e napi' he hr => handsUpLast hclear he hr⟩
  have hframes : s.napi.frames = received calls := by
    rw [hframes, initInstance, initNapi_frames, zero_add]
  rw [← hframes]
  exact (heads_le_framesOf _).trans (framesOf_passedUp_le s.napi)

end HandUp

section Example

/-- A segment of a flow of which nothing is held. -/
def heldSegment : GroFrame ℕ :=
  { skb := 7, hash := 13, jiffies := 0
    groReceive := some
      { counts := [], pp := .null, sameFlow := none, free := false, flush := false
        ppComplete := none, oldestComplete := none } }

/-- A segment of the same flow that cannot be merged: the held one is completed before it. -/
def flushingSegment : GroFrame ℕ :=
  { skb := 8, hash := 13, jiffies := 0
    groReceive := some
      { counts := [1], pp := .held 0, sameFlow := none, free := false, flush := true
        ppComplete := none, oldestComplete := none } }

theorem keepsCounts_segments : heldSegment.KeepsCounts ∧ flushingSegment.KeepsCounts := by
  constructor
  · rintro cb ⟨⟩
    exact ⟨fun _ h => absurd h (by simp), fun _ h => absurd h (by simp)⟩
  · rintro cb ⟨⟩
    exact ⟨fun _ h => absurd h (by simp), fun _ h => absurd h (by simp)⟩

theorem immediate_hand_up_two_segments :
    ∃ s napi', LabelledRuns.run step (initInstance ℕ) [.receive heldSegment] = some s ∧
      napiGroReceive s.napi flushingSegment = some (napi', .normal) ∧ s.napi.rx.rxList = [] ∧
      HandsUpLast s.napi napi' flushingSegment := by
  obtain ⟨hheld, hflushing⟩ := keepsCounts_segments
  have hk : ∀ c ∈ [GroCall.receive heldSegment], c.KeepsCounts := by
    intro c hc
    rw [List.mem_singleton.mp hc]
    exact hheld
  refine ⟨_, _, rfl, rfl, ?_⟩
  obtain ⟨hlist, -, -, hlast⟩ := immediate_hand_up hk rfl
  exact ⟨hlist, hlast flushingSegment _ hflushing rfl⟩

end Example

end CrosRt.Gro
