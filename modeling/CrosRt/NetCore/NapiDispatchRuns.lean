import CrosRt.NetCore.NapiDispatch

/-! # Whose callback is called

The table holds exactly the linked instances, each under its id and no two under one id, whatever
drivers register and remove. A call by the id 257 therefore reaches the instance that holds it, and
it is a call of r8169 exactly when no other driver holds that id and `rtl_init_one` has come past
the setter of the callback.
-/

namespace CrosRt
set_option autoImplicit false

open LabelledRuns ChainedTable

variable {D : Type*}

/-- A dispatch that returns without a call, or calls the callback it is for of r8169. -/
def CallResult.Sound (c : Callback) : CallResult D → Prop
  | .notFound _ => True
  | .called n c' => n = .r8169 ∧ c' = c
  | .nullCall _ _ => False

def NapiCore.HoldsId (s : NapiCore D) (n : NapiInstance D) (id : ℕ) : Prop :=
  (s.napi n).hashed = true ∧ (s.napi n).napiId = id

def NapiCore.CallSound (s : NapiCore D) : NapiEvent D → Prop
  | .call c => (s.dispatch c).Sound c.callback
  | _ => True

/-- No other driver holds the id 257, and if r8169 holds it, the setter of the callback has run. -/
def NapiCore.CallPlaced (s : NapiCore D) : NapiEvent D → Prop
  | .call c => (∀ d, ¬ s.HoldsId (.other d) 257) ∧ (s.HoldsId .r8169 257 → c.callback ∉ s.setters)
  | _ => True

/-! ## The table -/

/-- The table holds the linked instances under their ids, one for each id. -/
structure TableInv (table : NapiTable D) (napi : NapiInstance D → NapiStruct) : Prop where
  entry : ∀ n id, ⟨n, id⟩ ∈ table.entriesFor id ↔ (napi n).hashed = true ∧ (napi n).napiId = id
  unique : ∀ id, (table.entriesFor id).length ≤ 1
  listed : ∀ n, (napi n).hashed = true → (napi n).listed = true

namespace TableInv
variable {table : NapiTable D} {napi : NapiInstance D → NapiStruct}

theorem not_hashed (h : TableInv table napi) {n : NapiInstance D}
    (hn : ¬ (napi n).listed = true) : (napi n).hashed = false := by
  cases hh : (napi n).hashed with
  | false => rfl
  | true => exact absurd (h.listed n hh) hn

theorem entriesFor_of_hashed (h : TableInv table napi) {n : NapiInstance D}
    (hn : (napi n).hashed = true) : table.entriesFor (napi n).napiId = [⟨n, (napi n).napiId⟩] := by
  have hmem := (h.entry n (napi n).napiId).mpr ⟨hn, rfl⟩
  have hlen := h.unique (napi n).napiId
  cases hl : table.entriesFor (napi n).napiId with
  | nil =>
    rw [hl] at hmem
    cases hmem
  | cons e es =>
    rw [hl] at hmem hlen
    have hes : es = [] := List.length_eq_zero_iff.mp (by simpa using hlen)
    rw [hes, List.mem_singleton] at hmem
    rw [hes, hmem]

theorem napiById_eq_some (h : TableInv table napi) {id : ℕ} {n : NapiInstance D} :
    napiById table id = some n ↔ (napi n).hashed = true ∧ (napi n).napiId = id := by
  rw [napiById_eq]
  constructor
  · intro hfind
    obtain ⟨e, he, rfl⟩ := Option.map_eq_some_iff.mp hfind
    have hmem := List.mem_of_head? he
    have hid : e.id = id := (mem_entriesFor.mp hmem).2
    obtain ⟨m, i⟩ := e
    obtain rfl : i = id := hid
    exact (h.entry m i).mp hmem
  · rintro ⟨hn, rfl⟩
    rw [h.entriesFor_of_hashed hn]
    rfl

variable [DecidableEq D]

theorem update (h : TableInv table napi) {n : NapiInstance D} {v : NapiStruct}
    (hhashed : v.hashed = (napi n).hashed) (hid : v.hashed = true → v.napiId = (napi n).napiId)
    (hlisted : v.hashed = true → v.listed = true) :
    TableInv table (Function.update napi n v) := by
  refine ⟨fun m id => ?_, h.unique, fun m => ?_⟩
  · rw [h.entry]
    by_cases hm : m = n
    · rw [hm, Function.update_self, ← hhashed]
      exact and_congr_right fun hv => by rw [hid hv]
    · rw [Function.update_of_ne hm]
  · by_cases hm : m = n
    · rw [hm, Function.update_self]
      exact hlisted
    · rw [Function.update_of_ne hm]
      exact h.listed m

theorem hashAdd (h : TableInv table napi) {n : NapiInstance D} {v : NapiStruct} {id : ℕ}
    (hnot : (napi n).hashed = false) (hfree : napiById table id = none)
    (hhashed : v.hashed = true) (hid : v.napiId = id) (hlisted : v.listed = true) :
    TableInv (table.hashAdd ⟨n, id⟩) (Function.update napi n v) := by
  have hnil : table.entriesFor id = [] := napiById_eq_none.mp hfree
  refine ⟨fun m i => ?_, fun i => ?_, fun m => ?_⟩
  · rw [entriesFor_hashAdd]
    by_cases hm : m = n
    · rw [hm, Function.update_self, hhashed, hid]
      by_cases hi : id = i
      · rw [if_pos hi, hi]
        simp
      · rw [if_neg hi, h.entry, hnot]
        simp [hi]
    · rw [Function.update_of_ne hm, ← h.entry]
      by_cases hi : id = i
      · rw [if_pos hi, ← hi, hnil]
        simp [hm]
      · rw [if_neg hi]
  · rw [entriesFor_hashAdd]
    by_cases hi : id = i
    · rw [if_pos hi, ← hi, hnil]
      exact le_refl 1
    · rw [if_neg hi]
      exact h.unique i
  · by_cases hm : m = n
    · rw [hm, Function.update_self]
      exact fun _ => hlisted
    · rw [Function.update_of_ne hm]
      exact h.listed m

theorem unlink (h : TableInv table napi) {n : NapiInstance D} {v : NapiStruct}
    (hn : (napi n).hashed = true) (hv : v.hashed = false) :
    TableInv (table.eraseIn (napiBucket (napi n).napiId) fun e => decide (e.napi = n))
      (Function.update napi n v) := by
  -- In its bucket the entry of the instance is the entry of its id.
  have hsame : ∀ e ∈ table.chain (napiBucket (napi n).napiId),
      decide (e.napi = n) = hasKey NapiEntry.id (napi n).napiId e := by
    intro e he
    have hmem : e ∈ table.entriesFor e.id :=
      List.mem_filter.mpr ⟨by rw [table.hashed _ e he]; exact he, hasKey_iff.mpr rfl⟩
    obtain ⟨m, i⟩ := e
    have hholds := (h.entry m i).mp hmem
    rw [Bool.eq_iff_iff, decide_eq_true_eq, hasKey_iff]
    constructor
    · rintro rfl
      exact hholds.2.symm
    · intro hi
      have hi' : i = (napi n).napiId := hi
      rw [hi', h.entriesFor_of_hashed hn, List.mem_singleton] at hmem
      exact congrArg NapiEntry.napi hmem
  rw [eraseIn_congr table hsame]
  have hself : (table.eraseIn (napiBucket (napi n).napiId)
      (hasKey NapiEntry.id (napi n).napiId)).entriesFor (napi n).napiId = [] := by
    rw [entriesFor_eraseIn_self, h.entriesFor_of_hashed hn, List.tail_cons]
  refine ⟨fun m i => ?_, fun i => ?_, fun m => ?_⟩
  · by_cases hi : i = (napi n).napiId
    · rw [hi, hself]
      by_cases hm : m = n
      · rw [hm, Function.update_self, hv]
        simp
      · rw [Function.update_of_ne hm, ← h.entry, h.entriesFor_of_hashed hn]
        simp [hm]
    · rw [entriesFor_eraseIn_ne table _ hi, h.entry]
      by_cases hm : m = n
      · rw [hm, Function.update_self, hv]
        simp [Ne.symm hi]
      · rw [Function.update_of_ne hm]
  · by_cases hi : i = (napi n).napiId
    · rw [hi, hself]
      exact Nat.zero_le 1
    · rw [entriesFor_eraseIn_ne table _ hi]
      exact h.unique i
  · by_cases hm : m = n
    · rw [hm, Function.update_self, hv]
      exact fun hf => absurd hf (by simp)
    · rw [Function.update_of_ne hm]
      exact h.listed m

end TableInv

/-! ## The callbacks -/

/-- Other drivers have set no callback, and r8169 those that are not left to set. -/
structure CallbackInv (napi : NapiInstance D → NapiStruct) (setters : List Callback) : Prop where
  others : ∀ d c, (napi (.other d)).callbacks c = false
  set : ∀ c, (napi .r8169).callbacks c = true ↔ c ∉ setters
  nodup : setters.Nodup

theorem NapiStruct.zero_callbacks (c : Callback) :
    NapiStruct.zero.callbacks c = true ↔ c ∉ Callback.inOrder := by
  cases c <;> simp [NapiStruct.zero, Callback.inOrder]

structure NapiCore.Inv (s : NapiCore D) : Prop where
  table : TableInv s.napiHash s.napi
  callback : CallbackInv s.napi s.setters

theorem NapiCore.inv_init : (init : NapiCore D).Inv where
  table := ⟨fun n id => by simp [init, NapiStruct.zero], fun _ => Nat.zero_le 1,
    fun n h => by simp [init, NapiStruct.zero] at h⟩
  callback := ⟨fun _ _ => rfl, NapiStruct.zero_callbacks, by simp [init, Callback.inOrder]⟩

theorem NapiCore.dispatch_eq (s : NapiCore D) (c : NapiCall) :
    ∃ missing, s.dispatch c = s.callById c.callback missing := by
  cases c <;> exact ⟨_, rfl⟩

/-- In a state that the invariant describes, a call is as intended exactly when it is well
placed. -/
theorem NapiCore.callSound_iff {s : NapiCore D} (hs : s.Inv) (e : NapiEvent D) :
    s.CallSound e ↔ s.CallPlaced e := by
  cases e with
  | call c =>
    obtain ⟨missing, hdispatch⟩ := s.dispatch_eq c
    have hholds : ∀ n, napiById s.napiHash 257 = some n ↔ s.HoldsId n 257 :=
      fun _ => hs.table.napiById_eq_some
    simp only [NapiCore.CallSound, NapiCore.CallPlaced]
    rw [hdispatch, NapiCore.callById]
    cases hfind : napiById s.napiHash 257 with
    | none =>
      rw [hfind] at hholds
      refine iff_of_true trivial ⟨fun d hd => ?_, fun hr => ?_⟩
      · exact absurd ((hholds _).mpr hd) (by simp)
      · exact absurd ((hholds _).mpr hr) (by simp)
    | some n =>
      rw [hfind] at hholds
      have hn : s.HoldsId n 257 := (hholds n).mp rfl
      cases n with
      | r8169 =>
        have hothers : ∀ d, ¬ s.HoldsId (.other d) 257 := fun d hd => by
          have := (hholds _).mpr hd
          cases this
        by_cases hset : (s.napi .r8169).callbacks c.callback = true
        · simp only [hset, if_true]
          exact iff_of_true ⟨rfl, rfl⟩ ⟨hothers, fun _ => (hs.callback.set _).mp hset⟩
        · simp only [hset]
          refine iff_of_false id fun hplaced => hset ?_
          exact (hs.callback.set _).mpr (hplaced.2 hn)
      | other d =>
        have hnull : (s.napi (.other d)).callbacks c.callback = false := hs.callback.others d _
        simp only [hnull, Bool.false_eq_true, if_false]
        exact iff_of_false id fun hplaced => hplaced.1 d hn
  | _ => exact Iff.rfl

variable [DecidableEq D]

theorem CallbackInv.restart {napi : NapiInstance D → NapiStruct} {setters : List Callback}
    (h : CallbackInv napi setters) :
    CallbackInv (Function.update napi .r8169 .zero) Callback.inOrder := by
  refine ⟨fun d c => ?_, fun c => ?_, by decide⟩
  · rw [Function.update_of_ne (by simp)]
    exact h.others d c
  · rw [Function.update_self]
    exact NapiStruct.zero_callbacks c

theorem CallbackInv.update {napi : NapiInstance D → NapiStruct} {setters : List Callback}
    (h : CallbackInv napi setters) {n : NapiInstance D} {v : NapiStruct}
    (hv : v.callbacks = (napi n).callbacks) : CallbackInv (Function.update napi n v) setters := by
  have hsame : ∀ m, (Function.update napi n v m).callbacks = (napi m).callbacks := by
    intro m
    by_cases hm : m = n
    · rw [hm, Function.update_self, hv]
    · rw [Function.update_of_ne hm]
  exact ⟨fun d c => by rw [hsame]; exact h.others d c, fun c => by rw [hsame]; exact h.set c,
    h.nodup⟩

theorem CallbackInv.setNext {napi : NapiInstance D → NapiStruct} {c : Callback}
    {cs : List Callback} (h : CallbackInv napi (c :: cs)) {v : NapiStruct}
    (hv : v.callbacks = Function.update (napi .r8169).callbacks c true) :
    CallbackInv (Function.update napi .r8169 v) cs := by
  obtain ⟨hc, hnodup⟩ := List.nodup_cons.mp h.nodup
  refine ⟨fun d c' => ?_, fun c' => ?_, hnodup⟩
  · rw [Function.update_of_ne (by simp)]
    exact h.others d c'
  · rw [Function.update_self, hv, Function.update_apply]
    by_cases hcc : c' = c
    · rw [if_pos hcc, hcc]
      exact iff_of_true rfl hc
    · rw [if_neg hcc, h.set c', List.mem_cons]
      simp [hcc]

namespace NapiCore

theorem inv_napiHashAdd {s t : NapiCore D} {n : NapiInstance D} (hs : s.Inv)
    (hlisted : (s.napi n).listed = true) (hnot : (s.napi n).hashed = false)
    (h : s.napiHashAdd n = some t) : t.Inv := by
  unfold napiHashAdd at h
  by_cases hno : (s.napi n).noBusyPoll = true
  · rw [if_pos hno] at h
    exact Option.some.inj h ▸ hs
  · rw [if_neg hno, Option.map_eq_some_iff] at h
    obtain ⟨id, hid, rfl⟩ := h
    exact ⟨hs.table.hashAdd hnot (searchGenId_free hid) rfl rfl hlisted, hs.callback.update rfl⟩

theorem inv_netifNapiAdd {s t : NapiCore D} {n : NapiInstance D} {tx : Bool} (hs : s.Inv)
    (h : s.netifNapiAdd n tx = some t) : t.Inv := by
  simp only [netifNapiAdd, setNapi, Function.update_self, Function.update_idem] at h
  by_cases hlisted : (s.napi n).listed = true
  · rw [if_pos hlisted] at h
    obtain rfl := Option.some.inj h
    exact ⟨hs.table.update rfl (fun _ => rfl) fun _ => hlisted, hs.callback.update rfl⟩
  · rw [if_neg hlisted] at h
    -- What is not listed is not linked, so clearing the node changes nothing.
    have hnot := hs.table.not_hashed hlisted
    refine inv_napiHashAdd ⟨?_, ?_⟩ ?_ ?_ h
    · exact hs.table.update hnot.symm (fun _ => rfl) fun _ => rfl
    · exact hs.callback.update rfl
    · simp
    · simp

theorem inv_netifNapiDel {s : NapiCore D} (n : NapiInstance D) (hs : s.Inv) :
    (s.netifNapiDel n).Inv := by
  unfold netifNapiDel
  by_cases hlisted : (s.napi n).listed = true
  · rw [if_pos hlisted]
    unfold napiHashDel
    by_cases hn : (s.napi n).hashed = true
    · rw [if_pos hn]
      simp only [setNapi, Function.update_self, Function.update_idem]
      exact ⟨hs.table.unlink hn rfl, hs.callback.update rfl⟩
    · rw [if_neg hn]
      exact ⟨hs.table.update rfl (fun _ => rfl) fun hh => absurd hh hn, hs.callback.update rfl⟩
  · rw [if_neg hlisted]
    exact hs

theorem inv_step {s t : NapiCore D} {e : NapiEvent D} (hs : s.Inv) (h : step s e = some t) :
    t.Inv := by
  cases e with
  | add d tx => exact inv_netifNapiAdd hs h
  | del n =>
    rw [step, Option.some.injEq] at h
    exact h ▸ inv_netifNapiDel n hs
  | probeAdd =>
    simp only [step] at h
    by_cases hlisted : (s.napi .r8169).listed = true
    · rw [if_pos hlisted] at h
      cases h
    · rw [if_neg hlisted] at h
      have hnot := hs.table.not_hashed hlisted
      refine inv_netifNapiAdd ⟨?_, hs.callback.restart⟩ h
      exact hs.table.update hnot.symm (fun hz => by cases hz) fun hz => by cases hz
  | probeSet =>
    simp only [step] at h
    cases hsetters : s.setters with
    | nil =>
      rw [hsetters] at h
      cases h
    | cons c cs =>
      simp only [hsetters] at h
      by_cases hlisted : (s.napi .r8169).listed = true
      · rw [if_pos hlisted] at h
        obtain rfl := Option.some.inj h
        refine ⟨hs.table.update rfl (fun _ => rfl) fun _ => hlisted, ?_⟩
        exact (hsetters ▸ hs.callback).setNext rfl
      · rw [if_neg hlisted] at h
        cases h
  | call c =>
    rw [step, Option.some.injEq] at h
    exact h ▸ hs

/-- **Calls of r8169 only.** In a run of registrations, removals and calls every dispatch returns
without a call or calls the callback of r8169 it is for, if and only if at every call no other
driver holds the id 257 and, where r8169 holds it, `rtl_init_one` has set that callback. -/
theorem callSound_iff_callPlaced (es : List (NapiEvent D)) :
    StepsMeet step CallSound (init : NapiCore D) es ↔
      StepsMeet step CallPlaced (init : NapiCore D) es :=
  stepsMeet_congr (fun _ _ _ => inv_step) (fun _ e _ hs _ => callSound_iff hs e) inv_init

theorem other_driver_first :
    ∃ s : NapiCore ℕ, run step init [.add 0 false] = some s ∧ s.HoldsId (.other 0) 257 ∧
      s.netRtHandlerAction = .nullCall (.other 0) .rtPoll ∧
      ¬ StepsMeet step CallSound (init : NapiCore ℕ)
        [.add 0 false, .probeAdd, .call .netRtHandlerAction] := by
  refine ⟨_, rfl, ⟨rfl, rfl⟩, rfl, fun h => ?_⟩
  obtain ⟨_, h⟩ := h _ rfl
  obtain ⟨_, h⟩ := h _ rfl
  exact (h _ rfl).1

/-- A call between `netif_napi_add` and the setter of `rt_poll`. -/
example : ∃ s : NapiCore ℕ, run step init [.probeAdd, .probeSet] = some s ∧
    s.HoldsId .r8169 257 ∧ s.netRtHandlerAction = .nullCall .r8169 .rtPoll :=
  ⟨_, rfl, ⟨rfl, rfl⟩, rfl⟩

end NapiCore

end CrosRt
