import Mathlib.Data.List.FinRange
import Mathlib.Logic.Function.Basic

/-! # Hash tables with chains

A fixed array of `n` buckets, each a chain of entries with the newest one first, an entry standing
in the bucket of its key. The hash function is a parameter, so what is proved holds whatever keys
collide. A table may hold several entries of one key.

Seen from outside a table is a family of stacks, `entriesFor t k` being the entries of key `k`
with the newest first. An addition pushes on the stack of its key (`entriesFor_hashAdd`), a lookup
in one bucket reads its top (`find_eq_head`), and a scan of all buckets that deletes the first
entry of a key pops it (`deleteFirst_eq_none`, `entriesFor_deleteFirst`).
-/

namespace CrosRt
set_option autoImplicit false

variable {K A : Type*} {n : ℕ}

/-- `n` chains in which every entry stands in the bucket of its key. -/
structure ChainedTable (hash : K → Fin n) (key : A → K) where
  chain : Fin n → List A
  hashed : ∀ b, ∀ a ∈ chain b, hash (key a) = b

namespace ChainedTable

variable {hash : K → Fin n} {key : A → K}

theorem ext_chain {t u : ChainedTable hash key} (h : t.chain = u.chain) : t = u := by
  cases t
  cases u
  cases h
  rfl

def empty : ChainedTable hash key where
  chain := fun _ => []
  hashed := fun _ _ h => absurd h List.not_mem_nil

def hashAdd (t : ChainedTable hash key) (a : A) : ChainedTable hash key where
  chain := Function.update t.chain (hash (key a)) (a :: t.chain (hash (key a)))
  hashed := by
    intro b c hc
    by_cases hb : b = hash (key a)
    · subst hb
      rw [Function.update_self, List.mem_cons] at hc
      rcases hc with rfl | hc
      · rfl
      · exact t.hashed _ c hc
    · rw [Function.update_of_ne hb] at hc
      exact t.hashed b c hc

/-- Unlink the first entry of one bucket that satisfies `p`. -/
def eraseIn (t : ChainedTable hash key) (b : Fin n) (p : A → Bool) : ChainedTable hash key where
  chain := Function.update t.chain b ((t.chain b).eraseP p)
  hashed := by
    intro c a ha
    by_cases hc : c = b
    · subst hc
      rw [Function.update_self] at ha
      exact t.hashed c a (List.mem_of_mem_eraseP ha)
    · rw [Function.update_of_ne hc] at ha
      exact t.hashed c a ha

theorem eraseP_congr {p q : A → Bool} :
    ∀ {l : List A}, (∀ a ∈ l, p a = q a) → l.eraseP p = l.eraseP q
  | [], _ => rfl
  | a :: l, h => by
      have ha := h a List.mem_cons_self
      have hl := eraseP_congr fun b hb => h b (List.mem_cons_of_mem a hb)
      rw [List.eraseP_cons, List.eraseP_cons, ha, hl]

/-- Unlinking a known entry of a bucket unlinks the newest one of its key, if the tests agree on
the bucket. -/
theorem eraseIn_congr (t : ChainedTable hash key) {b : Fin n} {p q : A → Bool}
    (h : ∀ a ∈ t.chain b, p a = q a) : t.eraseIn b p = t.eraseIn b q := by
  apply ext_chain
  simp only [eraseIn]
  rw [eraseP_congr h]

/-- Scan the listed buckets in order and unlink the first entry that satisfies `p`; `none` when
no entry does. -/
def deleteIn (t : ChainedTable hash key) (p : A → Bool) :
    List (Fin n) → Option (ChainedTable hash key)
  | [] => none
  | b :: bs => if (t.chain b).any p then some (t.eraseIn b p) else deleteIn t p bs

/-- The same over all buckets, from the first to the last. -/
def deleteFirst (t : ChainedTable hash key) (p : A → Bool) : Option (ChainedTable hash key) :=
  t.deleteIn p (List.finRange n)

def toList (t : ChainedTable hash key) : List A := (List.finRange n).flatMap t.chain

variable [DecidableEq K]

def hasKey (key : A → K) (k : K) (a : A) : Bool := decide (key a = k)

@[simp] theorem hasKey_iff {k : K} {a : A} : hasKey key k a = true ↔ key a = k := by
  simp [hasKey]

/-- The entries of one key, the newest first. -/
def entriesFor (t : ChainedTable hash key) (k : K) : List A :=
  (t.chain (hash k)).filter (hasKey key k)

/-! ## Reading -/

@[simp] theorem entriesFor_empty (k : K) :
    (empty : ChainedTable hash key).entriesFor k = [] := rfl

theorem mem_entriesFor {t : ChainedTable hash key} {k : K} {a : A} :
    a ∈ t.entriesFor k ↔ a ∈ t.toList ∧ key a = k := by
  simp only [entriesFor, toList, List.mem_filter, hasKey_iff, List.mem_flatMap, List.mem_finRange,
    true_and]
  constructor
  · rintro ⟨ha, hk⟩
    exact ⟨⟨hash k, ha⟩, hk⟩
  · rintro ⟨⟨b, ha⟩, hk⟩
    obtain rfl : hash k = b := by rw [← hk]; exact t.hashed b a ha
    exact ⟨ha, hk⟩

theorem mem_toList {t : ChainedTable hash key} {a : A} :
    a ∈ t.toList ↔ a ∈ t.entriesFor (key a) := by
  rw [mem_entriesFor, and_iff_left rfl]

theorem find_eq_head (t : ChainedTable hash key) (k : K) :
    (t.chain (hash k)).find? (hasKey key k) = (t.entriesFor k).head? := by
  rw [entriesFor, List.head?_filter]

/-! ## Adding and deleting -/

theorem entriesFor_hashAdd_self (t : ChainedTable hash key) (a : A) :
    (t.hashAdd a).entriesFor (key a) = a :: t.entriesFor (key a) := by
  simp only [entriesFor, hashAdd]
  rw [Function.update_self, List.filter_cons_of_pos (by simp)]

theorem entriesFor_hashAdd_ne (t : ChainedTable hash key) {a : A} {k : K} (h : key a ≠ k) :
    (t.hashAdd a).entriesFor k = t.entriesFor k := by
  simp only [entriesFor, hashAdd]
  by_cases hb : hash k = hash (key a)
  · rw [hb, Function.update_self, List.filter_cons_of_neg (by simpa using h)]
  · rw [Function.update_of_ne hb]

theorem entriesFor_hashAdd (t : ChainedTable hash key) (a : A) (k : K) :
    (t.hashAdd a).entriesFor k =
      if key a = k then a :: t.entriesFor k else t.entriesFor k := by
  by_cases h : key a = k
  · subst h
    rw [if_pos rfl, entriesFor_hashAdd_self]
  · rw [if_neg h, entriesFor_hashAdd_ne t h]

theorem filter_eraseP_self (p : A → Bool) (l : List A) :
    (l.eraseP p).filter p = (l.filter p).tail := by
  induction l with
  | nil => rfl
  | cons a l ih =>
    by_cases ha : p a
    · rw [List.eraseP_cons_of_pos ha, List.filter_cons_of_pos ha, List.tail_cons]
    · rw [List.eraseP_cons_of_neg ha, List.filter_cons_of_neg ha, List.filter_cons_of_neg ha, ih]

theorem filter_eraseP_of_disjoint {p q : A → Bool} (h : ∀ a, q a = true → p a = false)
    (l : List A) : (l.eraseP p).filter q = l.filter q := by
  induction l with
  | nil => rfl
  | cons a l ih =>
    by_cases ha : p a
    · have hq : ¬ q a = true := fun hq => by rw [h a hq] at ha; exact absurd ha (by simp)
      rw [List.eraseP_cons_of_pos ha, List.filter_cons_of_neg hq]
    · rw [List.eraseP_cons_of_neg ha, List.filter_cons, List.filter_cons, ih]

theorem entriesFor_eraseIn_self (t : ChainedTable hash key) (k : K) :
    (t.eraseIn (hash k) (hasKey key k)).entriesFor k = (t.entriesFor k).tail := by
  simp only [entriesFor, eraseIn]
  rw [Function.update_self, filter_eraseP_self]

theorem entriesFor_eraseIn_ne (t : ChainedTable hash key) (b : Fin n) {k k' : K} (h : k' ≠ k) :
    (t.eraseIn b (hasKey key k)).entriesFor k' = t.entriesFor k' := by
  have hd : ∀ a, hasKey key k' a = true → hasKey key k a = false := by
    intro a ha
    rw [hasKey_iff] at ha
    simp [hasKey, ha, h]
  simp only [entriesFor, eraseIn]
  by_cases hb : hash k' = b
  · rw [hb, Function.update_self, filter_eraseP_of_disjoint hd]
  · rw [Function.update_of_ne hb]

/-- Only the bucket of `k` holds entries of key `k`. -/
theorem any_hasKey_iff (t : ChainedTable hash key) (k : K) (b : Fin n) :
    (t.chain b).any (hasKey key k) = true ↔ b = hash k ∧ t.entriesFor k ≠ [] := by
  rw [List.any_eq_true]
  constructor
  · rintro ⟨a, ha, hk⟩
    rw [hasKey_iff] at hk
    obtain rfl : hash k = b := by rw [← hk]; exact t.hashed b a ha
    refine ⟨rfl, List.ne_nil_of_mem (a := a) ?_⟩
    exact List.mem_filter.mpr ⟨ha, hasKey_iff.mpr hk⟩
  · rintro ⟨rfl, h⟩
    obtain ⟨a, ha⟩ := List.exists_mem_of_ne_nil _ h
    obtain ⟨ha, hk⟩ := List.mem_filter.mp ha
    exact ⟨a, ha, hk⟩

theorem deleteIn_eq (t : ChainedTable hash key) (k : K) (bs : List (Fin n)) :
    t.deleteIn (hasKey key k) bs =
      if hash k ∈ bs ∧ t.entriesFor k ≠ [] then some (t.eraseIn (hash k) (hasKey key k))
      else none := by
  induction bs with
  | nil => simp [deleteIn]
  | cons b bs ih =>
    rw [deleteIn]
    by_cases hany : (t.chain b).any (hasKey key k) = true
    · obtain ⟨rfl, hne⟩ := (t.any_hasKey_iff k b).mp hany
      rw [if_pos hany, if_pos ⟨List.mem_cons_self, hne⟩]
    · rw [if_neg hany, ih]
      rw [any_hasKey_iff] at hany
      refine if_congr ?_ rfl rfl
      rw [List.mem_cons]
      constructor
      · rintro ⟨hm, hne⟩
        exact ⟨Or.inr hm, hne⟩
      · rintro ⟨rfl | hm, hne⟩
        · exact absurd ⟨rfl, hne⟩ hany
        · exact ⟨hm, hne⟩

theorem deleteFirst_eq (t : ChainedTable hash key) (k : K) :
    t.deleteFirst (hasKey key k) =
      if t.entriesFor k ≠ [] then some (t.eraseIn (hash k) (hasKey key k)) else none := by
  rw [deleteFirst, deleteIn_eq]
  exact if_congr (and_iff_right (List.mem_finRange _)) rfl rfl

/-- The scan finds nothing exactly when the key has no entry. -/
theorem deleteFirst_eq_none {t : ChainedTable hash key} {k : K} :
    t.deleteFirst (hasKey key k) = none ↔ t.entriesFor k = [] := by
  rw [deleteFirst_eq]
  by_cases h : t.entriesFor k = [] <;> simp [h]

/-- **Deleting the first entry of a key** pops the stack of the key and no other. -/
theorem entriesFor_deleteFirst {t u : ChainedTable hash key} {k : K}
    (h : t.deleteFirst (hasKey key k) = some u) (k' : K) :
    u.entriesFor k' = if k' = k then (t.entriesFor k).tail else t.entriesFor k' := by
  rw [deleteFirst_eq] at h
  by_cases hne : t.entriesFor k ≠ []
  · rw [if_pos hne, Option.some.injEq] at h
    subst h
    by_cases hk : k' = k
    · subst hk
      rw [if_pos rfl, entriesFor_eraseIn_self]
    · rw [if_neg hk, entriesFor_eraseIn_ne t _ hk]
  · rw [if_neg hne] at h
    cases h

end ChainedTable

end CrosRt
