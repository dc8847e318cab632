import Mathlib.Algebra.BigOperators.Group.Finset.Basic
import Mathlib.Algebra.BigOperators.Group.Multiset.Basic
import Mathlib.Data.Fintype.Basic
import Mathlib.Tactic.Abel
import CrosRt.Foundations.LabelledRuns
import CrosRt.NetCore.Gro

/-! # What a batch does to the offload state

A frame given to `napi_gro_receive` moves buffers between the list of its bucket, `rx_list` and the
stack. None is lost on the way (`Batch.frames`), and how the lists and `rx_list` change is a matter
of what the callbacks answer (`Batch.length`, `Batch.rx`).
-/

namespace CrosRt.Gro
set_option autoImplicit false

/-! ## The counts handed to `gro_normal_one` -/

/-- Whether `rx_list` is empty after buffers with the given counts were handed to
`gro_normal_one`: a count of 0 leaves the list as it is. -/
def clearAfter (clear : Prop) (handed : List ℕ) : Prop :=
  handed.foldl (fun _ count => count ≠ 0) clear

@[simp] theorem clearAfter_nil (clear : Prop) : clearAfter clear [] = clear := rfl

theorem clearAfter_append (clear : Prop) (l₁ l₂ : List ℕ) :
    clearAfter clear (l₁ ++ l₂) = clearAfter (clearAfter clear l₁) l₂ :=
  List.foldl_append

theorem clearAfter_congr {p q : Prop} (h : p ↔ q) (handed : List ℕ) :
    clearAfter p handed ↔ clearAfter q handed := by
  rw [propext h]

theorem clearAfter_true_iff (handed : List ℕ) :
    clearAfter True handed ↔ handed.getLast? ≠ some 0 := by
  induction handed using List.reverseRecOn with
  | nil => simp
  | append_singleton handed count _ =>
    rw [clearAfter_append, List.getLast?_concat]
    exact not_congr (Option.some_inj).symm

/-- What a completed buffer hands on: nothing if `gro_complete` is asked and fails. -/
def handedCounts (count : ℕ) (groComplete : Option ℕ) : List ℕ :=
  if count = 1 then [1] else groComplete.toList

def someHanded (count : Option ℕ) (groComplete : Option ℕ) : List ℕ :=
  (count.map fun count => handedCounts count groComplete).getD []

def oldestHanded (counts : List ℕ) (groComplete : Option ℕ) : List ℕ :=
  if 8 ≤ counts.length then someHanded counts.getLast? groComplete else []

section Accounting
variable {F : Type*}

/-! ## Where the frames are -/

def Skb.frames (skb : Skb F) : Multiset F := skb.frame ::ₘ (skb.merged : Multiset F)

def framesOf (skbs : List (Skb F)) : Multiset F := (skbs.map Skb.frames).sum

def heldFrames (list : List (HeldSkb F)) : Multiset F := framesOf (list.map HeldSkb.toSkb)

def consumedFrames (consumed : List (F × Fate)) : Multiset F := (consumed.map Prod.fst : List F)

/-- The frames on the receive side, pending, handed up, freed or taken by a callback. -/
def NapiRx.frames (rx : NapiRx F) : Multiset F :=
  framesOf rx.rxList + framesOf rx.passedUp + framesOf rx.freed + consumedFrames rx.consumed

def GroWork.frames (w : GroWork F) : Multiset F := heldFrames w.groList.list + w.rx.frames

@[simp] theorem framesOf_nil : framesOf ([] : List (Skb F)) = 0 := rfl

@[simp] theorem framesOf_append (l₁ l₂ : List (Skb F)) :
    framesOf (l₁ ++ l₂) = framesOf l₁ + framesOf l₂ := by
  rw [framesOf, List.map_append, List.sum_append, framesOf, framesOf]

@[simp] theorem framesOf_singleton (skb : Skb F) : framesOf [skb] = skb.frames := by
  rw [framesOf, List.map_singleton, List.sum_singleton]

@[simp] theorem consumedFrames_append (l₁ l₂ : List (F × Fate)) :
    consumedFrames (l₁ ++ l₂) = consumedFrames l₁ + consumedFrames l₂ := by
  rw [consumedFrames, List.map_append, ← Multiset.coe_add, consumedFrames, consumedFrames]

@[simp] theorem heldFrames_nil : heldFrames ([] : List (HeldSkb F)) = 0 := rfl

theorem heldFrames_cons (p : HeldSkb F) (list : List (HeldSkb F)) :
    heldFrames (p :: list) = p.frames + heldFrames list := by
  rw [heldFrames, List.map_cons, framesOf, List.map_cons, List.sum_cons, heldFrames, framesOf]

theorem heldFrames_append (l₁ l₂ : List (HeldSkb F)) :
    heldFrames (l₁ ++ l₂) = heldFrames l₁ + heldFrames l₂ := by
  rw [heldFrames, List.map_append, framesOf_append, heldFrames, heldFrames]

theorem heldFrames_eraseIdx {list : List (HeldSkb F)} {i : ℕ} {p : HeldSkb F}
    (h : list[i]? = some p) : heldFrames list = heldFrames (list.eraseIdx i) + p.frames := by
  induction list generalizing i with
  | nil => exact absurd h (by simp)
  | cons q rest ih =>
    cases i with
    | zero =>
      obtain rfl : q = p := by simpa using h
      rw [List.eraseIdx_cons_zero, heldFrames_cons, add_comm]
    | succ i =>
      rw [List.getElem?_cons_succ] at h
      rw [List.eraseIdx_cons_succ, heldFrames_cons, heldFrames_cons, ih h, add_assoc]

theorem heldFrames_dropLast {list : List (HeldSkb F)} {p : HeldSkb F}
    (h : list.getLast? = some p) : heldFrames list = heldFrames list.dropLast + p.frames := by
  obtain ⟨rest, rfl⟩ := List.getLast?_eq_some_iff.mp h
  rw [List.dropLast_concat, heldFrames_append, heldFrames_cons, heldFrames_nil, add_zero]

theorem recount_toSkb {list : List (HeldSkb F)} {counts : List ℕ}
    (h : counts.length = list.length) :
    (recount list counts).map HeldSkb.toSkb = list.map HeldSkb.toSkb := by
  rw [recount, List.map_zipWith]
  induction list generalizing counts with
  | nil => rw [List.zipWith_nil_left, List.map_nil]
  | cons p rest ih =>
    obtain ⟨count, counts, rfl⟩ := List.exists_cons_of_length_eq_add_one h
    rw [List.zipWith_cons_cons, List.map_cons, ih (Nat.succ.inj h)]

theorem recount_count {list : List (HeldSkb F)} {counts : List ℕ}
    (h : counts.length = list.length) : (recount list counts).map HeldSkb.count = counts := by
  rw [recount, List.map_zipWith]
  induction list generalizing counts with
  | nil =>
    rw [List.zipWith_nil_left]
    exact (List.length_eq_zero_iff.mp h).symm
  | cons p rest ih =>
    obtain ⟨count, counts, rfl⟩ := List.exists_cons_of_length_eq_add_one h
    rw [List.zipWith_cons_cons, ih (Nat.succ.inj h)]

theorem heldFrames_recount {list : List (HeldSkb F)} {counts : List ℕ}
    (h : counts.length = list.length) : heldFrames (recount list counts) = heldFrames list := by
  rw [heldFrames, recount_toSkb h, heldFrames]

theorem mergeInto_frames (skb : F) (p : HeldSkb F) :
    (mergeInto skb p).frames = p.frames + {skb} := by
  rw [mergeInto, Skb.frames, Skb.frames, ← Multiset.coe_add, Multiset.coe_singleton,
    Multiset.cons_add]

theorem heldFrames_mergeInto {list : List (HeldSkb F)} {i : ℕ} (skb : F) (h : i < list.length) :
    heldFrames (list.modify i (mergeInto skb)) = heldFrames list + {skb} := by
  induction list generalizing i with
  | nil => exact absurd h (Nat.not_lt_zero i)
  | cons p rest ih =>
    cases i with
    | zero =>
      rw [List.modify_zero_cons, heldFrames_cons, heldFrames_cons, mergeInto_frames,
        add_right_comm]
    | succ i =>
      rw [List.modify_succ_cons, heldFrames_cons, heldFrames_cons, ih (Nat.lt_of_succ_lt_succ h),
        add_assoc]

end Accounting

section Moves
variable {F : Type*}

/-! ## What a call does to the receive side -/

/-- Buffers with the counts `handed` go to `gro_normal_one`, callbacks take `taken`. -/
structure RxMoves (rx rx' : NapiRx F) (handed : List ℕ) (taken : List (F × Fate)) : Prop where
  rxCount : rx'.rxCount = 0
  rxList : rx'.rxList = [] ↔ clearAfter (rx.rxList = []) handed
  consumed : rx'.consumed = rx.consumed ++ taken

theorem RxMoves.refl {rx : NapiRx F} (h : rx.rxCount = 0) : RxMoves rx rx [] [] where
  rxCount := h
  rxList := Iff.rfl
  consumed := (List.append_nil _).symm

theorem RxMoves.trans {rx₁ rx₂ rx₃ : NapiRx F} {h₁ h₂ : List ℕ} {k₁ k₂ : List (F × Fate)}
    (m₁ : RxMoves rx₁ rx₂ h₁ k₁) (m₂ : RxMoves rx₂ rx₃ h₂ k₂) :
    RxMoves rx₁ rx₃ (h₁ ++ h₂) (k₁ ++ k₂) where
  rxCount := m₂.rxCount
  rxList := by
    rw [clearAfter_append, m₂.rxList]
    exact clearAfter_congr m₁.rxList h₂
  consumed := by rw [m₂.consumed, m₁.consumed, List.append_assoc]

theorem groNormalList_frames (rx : NapiRx F) : (groNormalList rx).frames = rx.frames := by
  rw [groNormalList]
  by_cases h : rx.rxCount = 0
  · rw [if_pos h]
  · rw [if_neg h, NapiRx.frames, NapiRx.frames, framesOf_append, framesOf_nil, zero_add,
      add_comm (framesOf rx.passedUp)]

theorem groNormalOne_frames (rx : NapiRx F) (skb : Skb F) (segs : ℕ) :
    (groNormalOne rx skb segs).frames = rx.frames + skb.frames := by
  rw [groNormalOne, groNormalList_frames, NapiRx.frames, NapiRx.frames, framesOf_append,
    framesOf_singleton]
  abel

/-- **`gro_normal_one`** empties the list unless the count is 0. -/
theorem groNormalOne_moves {rx : NapiRx F} (h : rx.rxCount = 0) (skb : Skb F) (segs : ℕ) :
    RxMoves rx (groNormalOne rx skb segs) [segs] [] := by
  have hcount : rx.rxCount + segs = segs := by rw [h, zero_add]
  rw [groNormalOne, groNormalList, hcount]
  by_cases hsegs : segs = 0
  · rw [if_pos (Int.natCast_eq_zero.mpr hsegs)]
    refine ⟨Int.natCast_eq_zero.mpr hsegs, ?_, (List.append_nil _).symm⟩
    exact iff_of_false (List.concat_ne_nil _ _) (not_not_intro hsegs)
  · rw [if_neg (mt Int.natCast_eq_zero.mp hsegs)]
    exact ⟨rfl, iff_of_true rfl hsegs, (List.append_nil _).symm⟩

theorem napiGroComplete_frames (rx : NapiRx F) (p : HeldSkb F) (groComplete : Option ℕ) :
    (napiGroComplete rx p groComplete).frames = rx.frames + p.frames := by
  unfold napiGroComplete
  by_cases h : p.count = 1
  · rw [if_pos h, groNormalOne_frames]
  · rw [if_neg h]
    cases groComplete with
    | none =>
      simp only [NapiRx.frames, framesOf_append, framesOf_singleton]
      abel
    | some count => exact groNormalOne_frames rx p.toSkb count

theorem napiGroComplete_moves {rx : NapiRx F} (h : rx.rxCount = 0) (p : HeldSkb F)
    (groComplete : Option ℕ) :
    RxMoves rx (napiGroComplete rx p groComplete) (handedCounts p.count groComplete) [] := by
  unfold napiGroComplete handedCounts
  by_cases hone : p.count = 1
  · rw [if_pos hone, if_pos hone, hone]
    exact groNormalOne_moves h p.toSkb 1
  · rw [if_neg hone, if_neg hone]
    cases groComplete with
    | none => exact ⟨h, Iff.rfl, (List.append_nil _).symm⟩
    | some count => exact groNormalOne_moves h p.toSkb count

/-! ## What a call does to a list -/

/-- The count of the list is its length and nothing is pending by count. -/
structure GroWork.Counted (w : GroWork F) : Prop where
  count : w.groList.count = w.groList.list.length
  rxCount : w.rx.rxCount = 0

/-- The list grows by `balance` and `frames` come in. -/
structure WorkMoves (w w' : GroWork F) (balance : ℤ) (handed : List ℕ)
    (taken : List (F × Fate)) (frames : Multiset F) : Prop where
  count : w'.groList.count = w'.groList.list.length
  length : (w'.groList.list.length : ℤ) = w.groList.list.length + balance
  rx : RxMoves w.rx w'.rx handed taken
  frames : w'.frames = w.frames + frames

theorem WorkMoves.counted {w w' : GroWork F} {b : ℤ} {h : List ℕ} {k : List (F × Fate)}
    {f : Multiset F} (m : WorkMoves w w' b h k f) : w'.Counted := ⟨m.count, m.rx.rxCount⟩

theorem WorkMoves.refl {w : GroWork F} (h : w.Counted) : WorkMoves w w 0 [] [] 0 where
  count := h.count
  length := (add_zero _).symm
  rx := RxMoves.refl h.rxCount
  frames := (add_zero _).symm

theorem WorkMoves.trans {w₁ w₂ w₃ : GroWork F} {b₁ b₂ : ℤ} {h₁ h₂ : List ℕ}
    {k₁ k₂ : List (F × Fate)} {f₁ f₂ : Multiset F} (m₁ : WorkMoves w₁ w₂ b₁ h₁ k₁ f₁)
    (m₂ : WorkMoves w₂ w₃ b₂ h₂ k₂ f₂) :
    WorkMoves w₁ w₃ (b₁ + b₂) (h₁ ++ h₂) (k₁ ++ k₂) (f₁ + f₂) where
  count := m₂.count
  length := by rw [m₂.length, m₁.length, add_assoc]
  rx := m₁.rx.trans m₂.rx
  frames := by rw [m₂.frames, m₁.frames, add_assoc]

theorem WorkMoves.of_rx {w : GroWork F} (hw : w.Counted) {rx : NapiRx F} {handed : List ℕ}
    {taken : List (F × Fate)} {frames : Multiset F} (m : RxMoves w.rx rx handed taken)
    (hframes : rx.frames = w.rx.frames + frames) :
    WorkMoves w ⟨w.groList, rx⟩ 0 handed taken frames where
  count := hw.count
  length := (add_zero _).symm
  rx := m
  frames := by rw [GroWork.frames, hframes, GroWork.frames, add_assoc]

theorem completePp_moves {w w' : GroWork F} (hw : w.Counted) {i : ℕ} {groComplete : Option ℕ}
    (h : completePp w i groComplete = some w') :
    ∃ p, w.groList.list[i]? = some p ∧
      WorkMoves w w' (-1) (handedCounts p.count groComplete) [] 0 := by
  obtain ⟨p, hp, rfl⟩ := Option.map_eq_some_iff.mp h
  obtain ⟨hlt, -⟩ := List.getElem?_eq_some_iff.mp hp
  have hlen : ((w.groList.list.eraseIdx i).length : ℤ) = w.groList.list.length + -1 := by
    rw [List.length_eraseIdx_of_lt hlt]
    omega
  refine ⟨p, hp, ?_, hlen, napiGroComplete_moves hw.rxCount p groComplete, ?_⟩
  · show w.groList.count - 1 = _
    rw [hlen, hw.count, sub_eq_add_neg]
  · rw [GroWork.frames, napiGroComplete_frames, GroWork.frames, heldFrames_eraseIdx hp]
    simp only
    abel

theorem completePp_list {w w' : GroWork F} {i : ℕ} {groComplete : Option ℕ}
    (h : completePp w i groComplete = some w') :
    w'.groList.list = w.groList.list.eraseIdx i := by
  obtain ⟨p, -, rfl⟩ := Option.map_eq_some_iff.mp h
  rfl

theorem holdSkb_moves {w : GroWork F} (hw : w.Counted) (skb : F) (age : ℕ)
    (groComplete : Option ℕ) :
    WorkMoves w (holdSkb w skb age groComplete)
      (if 8 ≤ w.groList.list.length then 0 else 1)
      (oldestHanded (w.groList.list.map HeldSkb.count) groComplete) [] {skb} := by
  rw [holdSkb, oldestHanded, List.length_map, List.getLast?_map, hw.count]
  by_cases hfull : 8 ≤ w.groList.list.length
  · have hfull' : (8 : ℤ) ≤ w.groList.list.length := by omega
    rw [if_pos hfull, if_pos hfull', if_pos hfull, groFlushOldest]
    cases hlast : w.groList.list.getLast? with
    | none =>
      rw [List.getLast?_eq_none_iff] at hlast
      rw [hlast, List.length_nil] at hfull
      omega
    | some oldest =>
      have hlen : w.groList.list.dropLast.length + 1 = w.groList.list.length := by
        rw [List.length_dropLast]
        omega
      refine ⟨?_, ?_, napiGroComplete_moves hw.rxCount oldest groComplete, ?_⟩
      · simp only [List.length_cons, hlen, hw.count]
      · simp only [List.length_cons, hlen, add_zero]
      · simp only [GroWork.frames, heldFrames_cons, napiGroComplete_frames,
          heldFrames_dropLast hlast, Skb.frames, Multiset.coe_nil, Multiset.cons_zero]
        abel
  · have hfull' : ¬ (8 : ℤ) ≤ w.groList.list.length := by omega
    rw [if_neg hfull, if_neg hfull', if_neg hfull]
    refine ⟨?_, ?_, RxMoves.refl hw.rxCount, ?_⟩
    · simp only [List.length_cons, Nat.cast_add, Nat.cast_one]
    · simp only [List.length_cons, Nat.cast_add, Nat.cast_one]
    · simp only [GroWork.frames, heldFrames_cons, Skb.frames, Multiset.coe_nil,
        Multiset.cons_zero]
      abel

/-! ## What an answer says

The effect of a call is a matter of the callback's answer alone: `balance` is by how many buffers
the list grows, `handed` are the counts given to `gro_normal_one`. -/

def GroReceive.holdBalance (cb : GroReceive) (counts : List ℕ) : ℤ :=
  if cb.sameFlow.isSome then 0
  else if cb.flush then 0
  else if 8 ≤ counts.length then 0 else 1

def GroReceive.holdHanded (cb : GroReceive) (counts : List ℕ) : List ℕ :=
  if cb.sameFlow.isSome then []
  else if cb.flush then [1]
  else oldestHanded counts cb.oldestComplete

def GroReceive.balance (cb : GroReceive) : ℤ :=
  match cb.pp with
  | .inProgress _ => 0
  | .null => cb.holdBalance cb.counts
  | .held i => -1 + cb.holdBalance (cb.counts.eraseIdx i)

def GroReceive.handed (cb : GroReceive) : List ℕ :=
  match cb.pp with
  | .inProgress _ => []
  | .null => cb.holdHanded cb.counts
  | .held i => someHanded cb.counts[i]? cb.ppComplete ++ cb.holdHanded (cb.counts.eraseIdx i)

def GroFrame.balance (e : GroFrame F) : ℤ :=
  match e.groReceive with
  | none => 0
  | some cb => cb.balance

def GroFrame.handed (e : GroFrame F) : List ℕ :=
  match e.groReceive with
  | none => [1]
  | some cb => cb.handed

def GroReceive.taken (cb : GroReceive) (skb : F) : List (F × Fate) :=
  match cb.pp with
  | .inProgress fate => [(skb, fate)]
  | .null | .held _ => []

def GroFrame.taken (e : GroFrame F) : List (F × Fate) :=
  match e.groReceive with
  | none => []
  | some cb => cb.taken e.skb

/-! ## One frame -/

theorem map_count_modify (list : List (HeldSkb F)) (i : ℕ) (skb : F) :
    (list.modify i (mergeInto skb)).map HeldSkb.count = list.map HeldSkb.count := by
  induction list generalizing i with
  | nil => cases i <;> rfl
  | cons p rest ih =>
    cases i with
    | zero => rfl
    | succ i => rw [List.modify_succ_cons, List.map_cons, List.map_cons, ih i]

def GroReceive.mergedFrames (cb : GroReceive) (skb : F) : Multiset F :=
  if cb.mergesInto.isSome then {skb} else 0

theorem GroReceive.call_spec {cb : GroReceive} {skb : F} {list list' : List (HeldSkb F)}
    (h : cb.call skb list = some list') :
    list'.map HeldSkb.count = cb.counts ∧ list'.length = list.length ∧
      heldFrames list' = heldFrames list + cb.mergedFrames skb := by
  rw [GroReceive.call] at h
  by_cases hlen : cb.counts.length = list.length
  · rw [if_pos hlen] at h
    have hcount := recount_count hlen
    have hlength : (recount list cb.counts).length = list.length := by
      rw [recount, List.length_zipWith, hlen, min_self]
    rw [GroReceive.mergedFrames]
    cases hmerges : cb.mergesInto with
    | none =>
      rw [hmerges] at h
      obtain rfl := Option.some.inj h
      exact ⟨hcount, hlength, (heldFrames_recount hlen).trans (add_zero _).symm⟩
    | some i =>
      rw [hmerges] at h
      by_cases hi : i < list.length
      · simp only [if_pos hi] at h
        obtain rfl := Option.some.inj h
        refine ⟨?_, ?_, ?_⟩
        · rw [map_count_modify, hcount]
        · rw [List.length_modify, hlength]
        · rw [heldFrames_mergeInto skb (hlength.symm ▸ hi), heldFrames_recount hlen]
          rfl
      · simp only [if_neg hi] at h
        exact absurd h (Option.some_ne_none list').symm
  · rw [if_neg hlen] at h
    exact absurd h (Option.some_ne_none list').symm

theorem call_moves {w : GroWork F} (hw : w.Counted) {cb : GroReceive} {skb : F}
    {list : List (HeldSkb F)} (h : cb.call skb w.groList.list = some list) :
    WorkMoves w ⟨⟨list, w.groList.count⟩, w.rx⟩ 0 [] [] (cb.mergedFrames skb) := by
  obtain ⟨-, hlength, hframes⟩ := cb.call_spec h
  refine ⟨?_, ?_, RxMoves.refl hw.rxCount, ?_⟩
  · rw [hlength, hw.count]
  · rw [hlength, add_zero]
  · rw [GroWork.frames, hframes, GroWork.frames, add_right_comm]

/-- What is left of the call when `dev_gro_receive` returns. -/
def finish (skb : F) (r : GroWork F × GroResult) : GroWork F :=
  ⟨r.1.groList, napiSkbFinish r.1.rx skb r.2⟩

theorem normal_moves {w : GroWork F} (hw : w.Counted) (skb : F) :
    WorkMoves w (finish skb (w, .normal)) 0 [1] [] {skb} :=
  WorkMoves.of_rx hw (groNormalOne_moves hw.rxCount ⟨skb, []⟩ 1)
    (groNormalOne_frames w.rx ⟨skb, []⟩ 1)

/-- The end of `dev_gro_receive`: the frame is merged already, handed on, or held. -/
theorem mergeOrHold_moves {w : GroWork F} (hw : w.Counted) (skb : F) (age : ℕ)
    (cb : GroReceive) :
    WorkMoves w (finish skb (mergeOrHold w skb age cb))
      (cb.holdBalance (w.groList.list.map HeldSkb.count))
      (cb.holdHanded (w.groList.list.map HeldSkb.count)) []
      (if cb.sameFlow.isSome then 0 else {skb}) := by
  rw [mergeOrHold, GroReceive.holdBalance, GroReceive.holdHanded]
  by_cases hsame : cb.sameFlow.isSome
  · simp only [if_pos hsame]
    cases cb.free with
    | false => exact WorkMoves.refl hw
    | true => exact WorkMoves.refl hw
  · simp only [if_neg hsame]
    by_cases hflush : cb.flush
    · simp only [if_pos hflush]
      exact normal_moves hw skb
    · simp only [if_neg hflush, List.length_map]
      exact holdSkb_moves hw skb age cb.oldestComplete

theorem consumed_moves {w : GroWork F} (hw : w.Counted) (skb : F) (fate : Fate) :
    WorkMoves w ⟨w.groList, { w.rx with consumed := w.rx.consumed ++ [(skb, fate)] }⟩
      0 [] [(skb, fate)] {skb} := by
  refine WorkMoves.of_rx hw ⟨hw.rxCount, Iff.rfl, rfl⟩ ?_
  simp only [NapiRx.frames, consumedFrames_append]
  rw [← add_assoc]
  rfl

theorem mergedFrames_add {cb : GroReceive} (h : cb.mergesInto = cb.sameFlow) (skb : F) :
    cb.mergedFrames skb + (if cb.sameFlow.isSome then 0 else {skb}) = {skb} := by
  rw [GroReceive.mergedFrames, h]
  by_cases hsame : cb.sameFlow.isSome
  · rw [if_pos hsame, if_pos hsame, add_zero]
  · rw [if_neg hsame, if_neg hsame, zero_add]

theorem groListReceive_moves {w : GroWork F} (hw : w.Counted) {skb : F} {age : ℕ}
    {cb : GroReceive} {r : GroWork F × GroResult} (h : groListReceive w skb age cb = some r) :
    WorkMoves w (finish skb r) cb.balance cb.handed (cb.taken skb) {skb} := by
  rw [groListReceive, Option.bind_eq_some_iff] at h
  obtain ⟨list, hcall, h⟩ := h
  obtain ⟨hcounts, -, -⟩ := cb.call_spec hcall
  have hm := call_moves hw hcall
  rw [GroReceive.balance, GroReceive.handed, GroReceive.taken]
  cases hpp : cb.pp with
  | inProgress fate =>
    simp only [hpp, Option.some.injEq] at h
    subst h
    have hnone : cb.mergedFrames skb = 0 := by
      rw [GroReceive.mergedFrames, GroReceive.mergesInto, hpp]
      rfl
    rw [hnone] at hm
    simpa [finish, napiSkbFinish] using hm.trans (consumed_moves hm.counted skb fate)
  | null =>
    simp only [hpp, Option.some.injEq] at h
    subst h
    have hsame : cb.mergesInto = cb.sameFlow := by rw [GroReceive.mergesInto, hpp]
    have hend := mergeOrHold_moves hm.counted skb age cb
    rw [hcounts] at hend
    simpa [mergedFrames_add hsame] using hm.trans hend
  | held i =>
    simp only [hpp] at h
    obtain ⟨w', hpp', rfl⟩ := Option.map_eq_some_iff.mp h
    have hsame : cb.mergesInto = cb.sameFlow := by rw [GroReceive.mergesInto, hpp]
    obtain ⟨p, hp, hcomplete⟩ := completePp_moves hm.counted hpp'
    have hcount : cb.counts[i]? = some p.count := by
      rw [← hcounts, List.getElem?_map, hp, Option.map_some]
    have hrest : w'.groList.list.map HeldSkb.count = cb.counts.eraseIdx i := by
      rw [completePp_list hpp', ← hcounts, List.eraseIdx_map]
    have hend := mergeOrHold_moves hcomplete.counted skb age cb
    rw [hrest] at hend
    simpa [mergedFrames_add hsame, hcount, someHanded] using (hm.trans hcomplete).trans hend

/-! ## The instance -/

def Napi.work (napi : Napi F) (bucket : Fin 8) : GroWork F := ⟨napi.groHash bucket, napi.rx⟩

def Napi.Counted (napi : Napi F) : Prop := ∀ bucket, (napi.work bucket).Counted

def Napi.frames (napi : Napi F) : Multiset F :=
  (∑ bucket, heldFrames (napi.groHash bucket).list) + napi.rx.frames

/-- **One `napi_gro_receive`** works on one bucket, by what the callback answers. -/
theorem napiGroReceive_moves {napi : Napi F} (hn : napi.Counted) {e : GroFrame F}
    {r : Napi F × GroResult} (h : napiGroReceive napi e = some r) :
    (∀ bucket, bucket ≠ e.bucket → r.1.groHash bucket = napi.groHash bucket) ∧
      WorkMoves (napi.work e.bucket) (r.1.work e.bucket) e.balance e.handed e.taken {e.skb} := by
  obtain ⟨s, hdev, rfl⟩ := Option.map_eq_some_iff.mp h
  obtain ⟨received, hreceived, rfl⟩ := Option.map_eq_some_iff.mp hdev
  refine ⟨fun bucket hne => Function.update_of_ne hne _ _, ?_⟩
  -- the list put back is the one the frame leaves
  have hwork : finish e.skb received =
      Napi.work ⟨(napi.setBucket e.bucket received.1).groHash,
        (napi.setBucket e.bucket received.1).groBitmask,
        napiSkbFinish (napi.setBucket e.bucket received.1).rx e.skb received.2⟩ e.bucket := by
    rw [finish, Napi.work]
    simp only [Napi.setBucket, Function.update_self]
  rw [← hwork, GroFrame.balance, GroFrame.handed, GroFrame.taken]
  cases hcb : e.groReceive with
  | none =>
    simp only [hcb, Option.some.injEq] at hreceived
    subst hreceived
    exact normal_moves (hn e.bucket) e.skb
  | some cb =>
    simp only [hcb] at hreceived
    exact groListReceive_moves (hn e.bucket) hreceived

theorem counted_of_moves {napi napi' : Napi F} (hn : napi.Counted) {bucket : Fin 8} {b : ℤ}
    {h : List ℕ} {k : List (F × Fate)} {f : Multiset F}
    (hne : ∀ c, c ≠ bucket → napi'.groHash c = napi.groHash c)
    (m : WorkMoves (napi.work bucket) (napi'.work bucket) b h k f) : napi'.Counted := by
  intro c
  refine ⟨?_, m.rx.rxCount⟩
  by_cases hc : c = bucket
  · subst hc
    exact m.count
  · rw [Napi.work, hne c hc]
    exact (hn c).count

theorem frames_of_moves {napi napi' : Napi F} {bucket : Fin 8} {b : ℤ} {h : List ℕ}
    {k : List (F × Fate)} {f : Multiset F}
    (hne : ∀ c, c ≠ bucket → napi'.groHash c = napi.groHash c)
    (m : WorkMoves (napi.work bucket) (napi'.work bucket) b h k f) :
    napi'.frames = napi.frames + f := by
  have hrest : ∑ c ∈ Finset.univ.erase bucket, heldFrames (napi'.groHash c).list =
      ∑ c ∈ Finset.univ.erase bucket, heldFrames (napi.groHash c).list :=
    Finset.sum_congr rfl fun c hc => by rw [hne c (Finset.ne_of_mem_erase hc)]
  have hbucket := m.frames
  simp only [GroWork.frames, Napi.work] at hbucket
  rw [Napi.frames, Napi.frames, ← Finset.add_sum_erase _ _ (Finset.mem_univ bucket),
    ← Finset.add_sum_erase _ _ (Finset.mem_univ bucket), hrest, add_right_comm, hbucket]
  abel

/-! ## A batch of frames -/

/-- One frame of a batch; the verdict is for the tracepoint only. -/
def receive (napi : Napi F) (e : GroFrame F) : Option (Napi F) :=
  (napiGroReceive napi e).map Prod.fst

def balanceOf (bucket : Fin 8) (es : List (GroFrame F)) : ℤ :=
  ((es.filter fun e => e.bucket = bucket).map GroFrame.balance).sum

theorem balanceOf_cons_self (e : GroFrame F) (es : List (GroFrame F)) :
    balanceOf e.bucket (e :: es) = e.balance + balanceOf e.bucket es := by
  rw [balanceOf, List.filter_cons_of_pos (by simp), List.map_cons, List.sum_cons,
    balanceOf]

theorem balanceOf_cons_ne {bucket : Fin 8} {e : GroFrame F} (h : e.bucket ≠ bucket)
    (es : List (GroFrame F)) : balanceOf bucket (e :: es) = balanceOf bucket es := by
  rw [balanceOf, List.filter_cons_of_neg (by simpa using h), balanceOf]

/-- What a batch does to the instance, by the answers of its callbacks. -/
structure Batch (napi napi' : Napi F) (es : List (GroFrame F)) : Prop where
  counted : napi'.Counted
  length : ∀ bucket, ((napi'.groHash bucket).list.length : ℤ) =
    (napi.groHash bucket).list.length + balanceOf bucket es
  rx : RxMoves napi.rx napi'.rx (es.flatMap GroFrame.handed) (es.flatMap GroFrame.taken)
  frames : napi'.frames = napi.frames + (es.map GroFrame.skb : List F)

theorem batch_nil {napi : Napi F} (hn : napi.Counted) : Batch napi napi [] where
  counted := hn
  length _ := (add_zero _).symm
  rx := RxMoves.refl (hn 0).rxCount
  frames := (add_zero _).symm

theorem batch_cons {napi napi₁ napi' : Napi F} (hn : napi.Counted) {e : GroFrame F}
    {es : List (GroFrame F)} (h : receive napi e = some napi₁)
    (hes : napi₁.Counted → Batch napi₁ napi' es) : Batch napi napi' (e :: es) := by
  obtain ⟨r, hr, rfl⟩ := Option.map_eq_some_iff.mp h
  obtain ⟨hne, hm⟩ := napiGroReceive_moves hn hr
  have hbatch := hes (counted_of_moves hn hne hm)
  refine ⟨hbatch.counted, fun bucket => ?_, ?_, ?_⟩
  · rw [hbatch.length bucket]
    by_cases hbucket : e.bucket = bucket
    · subst hbucket
      have hlen := hm.length
      simp only [Napi.work] at hlen
      rw [balanceOf_cons_self, hlen, add_assoc]
    · rw [balanceOf_cons_ne hbucket, hne bucket (Ne.symm hbucket)]
  · rw [List.flatMap_cons, List.flatMap_cons]
    exact hm.rx.trans hbatch.rx
  · rw [hbatch.frames, frames_of_moves hne hm, List.map_cons, ← Multiset.cons_coe,
      ← Multiset.singleton_add, add_assoc]

theorem batch_of_run {napi napi' : Napi F} (hn : napi.Counted) {es : List (GroFrame F)}
    (h : LabelledRuns.run receive napi es = some napi') : Batch napi napi' es := by
  induction es generalizing napi with
  | nil =>
    obtain rfl := Option.some.inj h
    exact batch_nil hn
  | cons e es ih =>
    obtain ⟨napi₁, hstep, hrun⟩ := LabelledRuns.run_cons_eq_some.mp h
    exact batch_cons hn hstep fun hn₁ => ih hn₁ hrun

end Moves

end CrosRt.Gro
