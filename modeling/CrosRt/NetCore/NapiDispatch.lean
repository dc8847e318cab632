import Mathlib.Algebra.Order.Ring.Int
import CrosRt.Foundations.LabelledRuns
import CrosRt.Foundations.ChainedTable

/-! # Dispatch through the NAPI table

`net/core/dev.c` hands the calls of the handlers to the network driver through the NAPI instance
with the id 257, the first id that `napi_hash_add` gives out. Ids come from one counter for all
drivers; the search skips ids in use and starts over at `MIN_NAPI_ID` when the counter wraps. The
callbacks of an instance are `NULL` until its driver sets them, one after the other, and only
`rtl_init_one` of r8169 sets any.
-/

namespace CrosRt
set_option autoImplicit false

open LabelledRuns

/-- The function pointers added to `struct napi_struct`. -/
inductive Callback
  | setPortPriority
  | removePortPriority
  | rtPoll
  | nonRtPoll
  | nonRtPlPoll
  | highestPrio
  deriving DecidableEq, Repr

/-- The NAPI instance of r8169 and those of other drivers. -/
inductive NapiInstance (D : Type*)
  | r8169
  | other (d : D)
  deriving DecidableEq

/-- The fields of `struct napi_struct` the dispatch depends on: two state bits, whether
`napi_hash_node` is linked, the id, and which function pointers are not `NULL`. -/
structure NapiStruct where
  listed : Bool
  noBusyPoll : Bool
  hashed : Bool
  napiId : ℕ
  callbacks : Callback → Bool

structure NapiEntry (D : Type*) where
  napi : NapiInstance D
  id : ℕ
  deriving DecidableEq

def minNapiId : ℕ := 257

def napiBucket (id : ℕ) : Fin 256 := ⟨id % 256, Nat.mod_lt _ (by decide)⟩

abbrev NapiTable (D : Type*) := ChainedTable napiBucket (NapiEntry.id : NapiEntry D → ℕ)

/-- `napi_hash`, `napi_gen_id`, all NAPI instances, and the setters that `rtl_init_one` has yet to
call after its `netif_napi_add`. -/
structure NapiCore (D : Type*) where
  napiHash : NapiTable D
  napiGenId : ℕ
  napi : NapiInstance D → NapiStruct
  setters : List Callback

section Model
variable {D : Type*}

def napiById (table : NapiTable D) (id : ℕ) : Option (NapiInstance D) :=
  ((table.chain (napiBucket id)).find? (ChainedTable.hasKey NapiEntry.id id)).map NapiEntry.napi

/-- The next candidate of the search: `++napi_gen_id`, not below `MIN_NAPI_ID`. -/
def nextGenId (gen : ℕ) : ℕ :=
  let id := (gen + 1) % 2 ^ 32
  if id < minNapiId then minNapiId else id

/-- The `do … while` loop of `napi_hash_add`, in at most `fuel` rounds. -/
def searchGenId (table : NapiTable D) : ℕ → ℕ → Option ℕ
  | 0, _ => none
  | fuel + 1, gen =>
      let id := nextGenId gen
      if (napiById table id).isNone then some id else searchGenId table fuel id

def NapiStruct.zero : NapiStruct := ⟨false, false, false, 0, fun _ => false⟩

/-- What a dispatch function does: it returns without a call, calls a function pointer of an
instance, or jumps to `NULL`. -/
inductive CallResult (D : Type*)
  | notFound (ret : Option ℤ)
  | called (n : NapiInstance D) (c : Callback)
  | nullCall (n : NapiInstance D) (c : Callback)

inductive NapiCall
  | connectPortPriority
  | disconnectPortPriority
  | netRtHandlerAction
  | netNonRtHandlerAction
  | netNonRtPlHandlerAction
  | getHighestPrio
  deriving DecidableEq, Repr

def NapiCall.callback : NapiCall → Callback
  | .connectPortPriority => .setPortPriority
  | .disconnectPortPriority => .removePortPriority
  | .netRtHandlerAction => .rtPoll
  | .netNonRtHandlerAction => .nonRtPoll
  | .netNonRtPlHandlerAction => .nonRtPlPoll
  | .getHighestPrio => .highestPrio

/-- Registration steps of any driver, those of `rtl_init_one`, and the dispatch functions. -/
inductive NapiEvent (D : Type*)
  | add (d : D) (tx : Bool)
  | del (n : NapiInstance D)
  | probeAdd
  | probeSet
  | call (c : NapiCall)

def Callback.inOrder : List Callback :=
  [.setPortPriority, .removePortPriority, .rtPoll, .nonRtPoll, .nonRtPlPoll, .highestPrio]

namespace NapiCore
variable [DecidableEq D]

/-- All instances zeroed, nothing registered, `napi_gen_id = NR_CPUS`. -/
def init : NapiCore D := ⟨.empty, 256, fun _ => .zero, Callback.inOrder⟩

def setNapi (s : NapiCore D) (n : NapiInstance D) (v : NapiStruct) : NapiCore D :=
  { s with napi := Function.update s.napi n v }

/-- `napi_hash_add`; `none` when no id is free, where the code searches for ever. -/
def napiHashAdd (s : NapiCore D) (n : NapiInstance D) : Option (NapiCore D) :=
  if (s.napi n).noBusyPoll then some s
  else
    (searchGenId s.napiHash (2 ^ 32) s.napiGenId).map fun id =>
      { (s.setNapi n { s.napi n with hashed := true, napiId := id }) with
        napiHash := s.napiHash.hashAdd ⟨n, id⟩
        napiGenId := id }

/-- `netif_napi_add`, or `netif_tx_napi_add` when `tx` is set. -/
def netifNapiAdd (s : NapiCore D) (n : NapiInstance D) (tx : Bool) : Option (NapiCore D) :=
  let s := s.setNapi n { s.napi n with noBusyPoll := tx || (s.napi n).noBusyPoll }
  if (s.napi n).listed then some s
  else (s.setNapi n { s.napi n with listed := true, hashed := false }).napiHashAdd n

/-- `napi_hash_del`: unlink the node of the instance, if it is linked. -/
def napiHashDel (s : NapiCore D) (n : NapiInstance D) : NapiCore D :=
  if (s.napi n).hashed then
    { (s.setNapi n { s.napi n with hashed := false }) with
      napiHash := s.napiHash.eraseIn (napiBucket (s.napi n).napiId) fun e => decide (e.napi = n) }
  else s

def netifNapiDel (s : NapiCore D) (n : NapiInstance D) : NapiCore D :=
  if (s.napi n).listed then
    (s.napiHashDel n).setNapi n { (s.napiHashDel n).napi n with listed := false }
  else s

/-- `netif_napi_add_port_priority` and its siblings: one function pointer each. -/
def netifNapiAddCallback (s : NapiCore D) (n : NapiInstance D) (c : Callback) : NapiCore D :=
  s.setNapi n { s.napi n with callbacks := Function.update (s.napi n).callbacks c true }

/-- A call through the instance with the id 257; `missing` is what is returned without one. -/
def callById (s : NapiCore D) (c : Callback) (missing : Option ℤ) : CallResult D :=
  match napiById s.napiHash 257 with
  | none => .notFound missing
  | some n => if (s.napi n).callbacks c then .called n c else .nullCall n c

def connectPortPriority (s : NapiCore D) : CallResult D := s.callById .setPortPriority none
def disconnectPortPriority (s : NapiCore D) : CallResult D := s.callById .removePortPriority none
def netRtHandlerAction (s : NapiCore D) : CallResult D := s.callById .rtPoll (some (-1))
def netNonRtHandlerAction (s : NapiCore D) : CallResult D := s.callById .nonRtPoll none
def netNonRtPlHandlerAction (s : NapiCore D) : CallResult D := s.callById .nonRtPlPoll none
def getHighestPrio (s : NapiCore D) : CallResult D := s.callById .highestPrio (some 0)

def dispatch (s : NapiCore D) : NapiCall → CallResult D
  | .connectPortPriority => s.connectPortPriority
  | .disconnectPortPriority => s.disconnectPortPriority
  | .netRtHandlerAction => s.netRtHandlerAction
  | .netNonRtHandlerAction => s.netNonRtHandlerAction
  | .netNonRtPlHandlerAction => s.netNonRtPlHandlerAction
  | .getHighestPrio => s.getHighestPrio

/-- One event. `probeAdd` is `netif_napi_add` on the zeroed structure of a device that r8169 probes,
`probeSet` the next setter. -/
def step (s : NapiCore D) : NapiEvent D → Option (NapiCore D)
  | .add d tx => s.netifNapiAdd (.other d) tx
  | .del n => some (s.netifNapiDel n)
  | .probeAdd =>
      if (s.napi .r8169).listed then none
      else
        ({ (s.setNapi .r8169 .zero) with setters := Callback.inOrder }).netifNapiAdd .r8169 false
  | .probeSet =>
      match s.setters with
      | [] => none
      | c :: cs =>
          if (s.napi .r8169).listed then
            some { (s.netifNapiAddCallback .r8169 c) with setters := cs }
          else none
  | .call _ => some s

end NapiCore

end Model

/-! ## The search for an id -/

section Search
variable {D : Type*}

theorem napiById_eq (table : NapiTable D) (id : ℕ) :
    napiById table id = (table.entriesFor id).head?.map NapiEntry.napi := by
  unfold napiById
  rw [ChainedTable.find_eq_head]

theorem napiById_eq_none {table : NapiTable D} {id : ℕ} :
    napiById table id = none ↔ table.entriesFor id = [] := by
  rw [napiById_eq, Option.map_eq_none_iff, List.head?_eq_none_iff]

theorem searchGenId_free {table : NapiTable D} :
    ∀ {fuel gen id : ℕ}, searchGenId table fuel gen = some id → napiById table id = none
  | 0, _, _, h => by cases h
  | fuel + 1, gen, id, h => by
      simp only [searchGenId] at h
      by_cases hfree : (napiById table (nextGenId gen)).isNone = true
      · rw [if_pos hfree, Option.some.injEq] at h
        exact h ▸ Option.isNone_iff_eq_none.mp hfree
      · rw [if_neg hfree] at h
        exact searchGenId_free h

/-- A search that fails has looked at the first `fuel` candidates. -/
theorem searchGenId_eq_none {table : NapiTable D} :
    ∀ {fuel gen : ℕ}, searchGenId table fuel gen = none →
      ∀ j < fuel, napiById table (nextGenId^[j + 1] gen) ≠ none
  | 0, _, _, j, hj => by omega
  | fuel + 1, gen, h, j, hj => by
      simp only [searchGenId] at h
      by_cases hfree : (napiById table (nextGenId gen)).isNone = true
      · rw [if_pos hfree] at h
        cases h
      · rw [if_neg hfree] at h
        cases j with
        | zero => exact fun hnone => hfree (Option.isNone_iff_eq_none.mpr hnone)
        | succ j =>
          rw [Function.iterate_succ_apply]
          exact searchGenId_eq_none h j (by omega)

theorem nextGenId_eq (gen : ℕ) :
    nextGenId gen = if (gen + 1) % 2 ^ 32 < 257 then 257 else (gen + 1) % 2 ^ 32 := rfl

theorem nextGenId_iterate {gen : ℕ} (hgen : 256 ≤ gen) :
    ∀ k, gen + k < 2 ^ 32 → nextGenId^[k] gen = gen + k
  | 0, _ => rfl
  | k + 1, hk => by
      rw [Function.iterate_succ_apply', nextGenId_iterate hgen k (by omega)]
      rw [nextGenId_eq, Nat.mod_eq_of_lt (by omega), if_neg (by omega), Nat.add_assoc]

theorem nextGenId_wrap : nextGenId (2 ^ 32 - 1) = 257 := by decide

theorem nextGenId_bounds (gen : ℕ) : 257 ≤ nextGenId gen ∧ nextGenId gen < 2 ^ 32 := by
  rw [nextGenId_eq]
  split_ifs <;> omega

theorem nextGenId_reaches (gen : ℕ) {id : ℕ} (h₁ : 257 ≤ id) (h₂ : id < 2 ^ 32) :
    ∃ j < 2 ^ 32, nextGenId^[j + 1] gen = id := by
  obtain ⟨hlow, hhigh⟩ := nextGenId_bounds gen
  generalize hg : nextGenId gen = g at hlow hhigh
  by_cases hle : g ≤ id
  · refine ⟨id - g, by omega, ?_⟩
    rw [Function.iterate_succ_apply, hg, nextGenId_iterate (by omega) _ (by omega)]
    omega
  · -- The counter goes up to the last id, wraps to 257 and goes up again.
    have hlast : nextGenId^[2 ^ 32 - 1 - g] g = 2 ^ 32 - 1 := by
      rw [nextGenId_iterate (by omega) _ (by omega)]
      omega
    refine ⟨(id - 257) + (1 + (2 ^ 32 - 1 - g)), by omega, ?_⟩
    rw [Function.iterate_succ_apply, hg, Function.iterate_add_apply, Function.iterate_add_apply,
      hlast, Function.iterate_one, nextGenId_wrap, nextGenId_iterate (by omega) _ (by omega)]
    omega

/-- The rounds are enough: the search only fails when every id is in use. -/
theorem searchGenId_complete {table : NapiTable D} {gen : ℕ}
    (h : searchGenId table (2 ^ 32) gen = none) {id : ℕ} (h₁ : 257 ≤ id) (h₂ : id < 2 ^ 32) :
    napiById table id ≠ none := by
  obtain ⟨j, hj, hid⟩ := nextGenId_reaches gen h₁ h₂
  exact hid ▸ searchGenId_eq_none h j hj

end Search

end CrosRt
