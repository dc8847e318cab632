import Mathlib.Data.List.Infix

/-! # Patterns with groups

The part of a backtracking regular expression matcher that line-oriented scripts use: fixed text,
greedy runs of one class of letters, groups and assertions. `matchesAt` lists the matches at the
front of an input in the order in which the matcher tries them, `search` takes the first match of
the leftmost place that has one. `Reads` says what a match is without the order, and
`mem_matchesAt_iff` that the matcher tries exactly the matches there are.
-/

namespace CrosRt
set_option autoImplicit false

variable {α : Type*}

inductive Pattern (α : Type*)
  | text (word : List α)
  | run (p : α → Bool)
  | group (r : Pattern α)
  | seq (r s : Pattern α)
  | ahead (p : List α → Bool)

structure PatternMatch (α : Type*) where
  taken : List α
  rest : List α
  groups : List (List α)

namespace PatternMatch

/-- Group 0 is the whole match. -/
def group (m : PatternMatch α) : ℕ → List α
  | 0 => m.taken
  | n + 1 => m.groups.getD n []

end PatternMatch

namespace Pattern

/-- The runs of one letter or more at the front of an input, the longest first. -/
def runs (p : α → Bool) : List α → List (List α × List α)
  | [] => []
  | c :: rest =>
      if p c then ((runs p rest).map fun m => (c :: m.1, m.2)) ++ [([c], rest)] else []

section Matcher
variable [DecidableEq α]

def matchesAt : Pattern α → List α → List (PatternMatch α)
  | text word, input => if word <+: input then [⟨word, input.drop word.length, []⟩] else []
  | run p, input => (runs p input).map fun m => ⟨m.1, m.2, []⟩
  | group r, input => (matchesAt r input).map fun m => ⟨m.taken, m.rest, m.taken :: m.groups⟩
  | seq r s, input =>
      (matchesAt r input).flatMap fun m =>
        (matchesAt s m.rest).map fun n => ⟨m.taken ++ n.taken, n.rest, m.groups ++ n.groups⟩
  | ahead p, input => if p input then [⟨[], input, []⟩] else []

/-- The preferred match at the front of the input. -/
def matchFront (r : Pattern α) (input : List α) : Option (PatternMatch α) :=
  (matchesAt r input).head?

/-- The preferred match at the leftmost place. -/
def search (r : Pattern α) : List α → Option (PatternMatch α)
  | [] => matchFront r []
  | c :: rest =>
      match matchFront r (c :: rest) with
      | some m => some m
      | none => search r rest

end Matcher

/-- `Reads r taken rest groups`: before `rest` the pattern matches `taken` with these groups. -/
def Reads : Pattern α → List α → List α → List (List α) → Prop
  | text word, taken, _, groups => taken = word ∧ groups = []
  | run p, taken, _, groups => taken ≠ [] ∧ (∀ c ∈ taken, p c = true) ∧ groups = []
  | group r, taken, rest, groups => ∃ inner, Reads r taken rest inner ∧ groups = taken :: inner
  | seq r s, taken, rest, groups =>
      ∃ first second firstGroups secondGroups, taken = first ++ second ∧
        groups = firstGroups ++ secondGroups ∧ Reads r first (second ++ rest) firstGroups ∧
        Reads s second rest secondGroups
  | ahead p, taken, rest, groups => taken = [] ∧ p rest = true ∧ groups = []

theorem mem_runs_iff {p : α → Bool} {input taken rest : List α} :
    (taken, rest) ∈ runs p input ↔
      input = taken ++ rest ∧ taken ≠ [] ∧ ∀ c ∈ taken, p c = true := by
  induction input generalizing taken with
  | nil =>
    rw [runs]
    constructor
    · exact fun h => absurd h List.not_mem_nil
    · rintro ⟨heq, hne, -⟩
      exact absurd (List.append_eq_nil_iff.mp heq.symm).1 hne
  | cons c input ih =>
    rw [runs]
    constructor
    · intro h
      by_cases hc : p c
      · rw [if_pos hc, List.mem_append, List.mem_map, List.mem_singleton] at h
        obtain ⟨⟨more, rest'⟩, hmem, heq⟩ | heq := h
        · obtain ⟨rfl, rfl⟩ := Prod.mk.inj heq
          obtain ⟨rfl, -, hall⟩ := ih.mp hmem
          exact ⟨rfl, List.cons_ne_nil c more, List.forall_mem_cons.mpr ⟨hc, hall⟩⟩
        · obtain ⟨rfl, rfl⟩ := Prod.mk.inj heq
          exact ⟨rfl, List.cons_ne_nil c [], by simpa using hc⟩
      · rw [if_neg hc] at h
        exact absurd h List.not_mem_nil
    · rintro ⟨heq, hne, hall⟩
      obtain ⟨d, more, rfl⟩ := List.exists_cons_of_ne_nil hne
      obtain ⟨rfl, rfl⟩ := List.cons.inj heq
      obtain ⟨hc, hmore⟩ := List.forall_mem_cons.mp hall
      rw [if_pos hc, List.mem_append, List.mem_map, List.mem_singleton]
      by_cases hnil : more = []
      · subst hnil
        exact .inr rfl
      · exact .inl ⟨(more, rest), ih.mpr ⟨rfl, hnil, hmore⟩, rfl⟩

/-- The longest run is tried first. -/
theorem head?_runs {p : α → Bool} {taken rest : List α} (hne : taken ≠ [])
    (hall : ∀ x ∈ taken, p x = true) (hrest : ∀ x ∈ rest.head?, p x = false) :
    (runs p (taken ++ rest)).head? = some (taken, rest) := by
  induction taken with
  | nil => exact absurd rfl hne
  | cons x taken ih =>
    obtain ⟨hx, htaken⟩ := List.forall_mem_cons.mp hall
    rw [List.cons_append, runs, if_pos hx]
    cases taken with
    | nil =>
      have hnone : runs p rest = [] := by
        cases rest with
        | nil => rfl
        | cons y rest =>
          have hy : ¬ p y = true := by simpa using hrest y rfl
          rw [runs, if_neg hy]
      rw [List.nil_append, hnone]
      rfl
    | cons y taken =>
      have hruns := ih (List.cons_ne_nil y taken) htaken
      rw [List.head?_append, List.head?_map, hruns]
      rfl

section Search
variable [DecidableEq α]

theorem mem_matchesAt_iff {r : Pattern α} {input : List α} {m : PatternMatch α} :
    m ∈ matchesAt r input ↔ input = m.taken ++ m.rest ∧ Reads r m.taken m.rest m.groups := by
  induction r generalizing input m with
  | text word =>
    simp only [matchesAt, Reads]
    constructor
    · intro h
      by_cases hpre : word <+: input
      · rw [if_pos hpre, List.mem_singleton] at h
        subst h
        exact ⟨(List.prefix_iff_eq_append.mp hpre).symm, rfl, rfl⟩
      · rw [if_neg hpre] at h
        exact absurd h List.not_mem_nil
    · rintro ⟨rfl, htaken, hgroups⟩
      obtain ⟨taken, rest, groups⟩ := m
      subst htaken hgroups
      rw [if_pos (List.prefix_append taken rest), List.drop_left]
      exact List.mem_singleton_self _
  | run p =>
    obtain ⟨taken, rest, groups⟩ := m
    simp only [matchesAt, Reads, List.mem_map, PatternMatch.mk.injEq]
    constructor
    · rintro ⟨⟨_, _⟩, hmem, rfl, rfl, rfl⟩
      obtain ⟨heq, hne, hall⟩ := mem_runs_iff.mp hmem
      exact ⟨heq, hne, hall, rfl⟩
    · rintro ⟨heq, hne, hall, rfl⟩
      exact ⟨(taken, rest), mem_runs_iff.mpr ⟨heq, hne, hall⟩, rfl, rfl, rfl⟩
  | group r ih =>
    simp only [matchesAt, Reads, List.mem_map]
    constructor
    · rintro ⟨m, hmem, rfl⟩
      obtain ⟨heq, hreads⟩ := ih.mp hmem
      exact ⟨heq, m.groups, hreads, rfl⟩
    · rintro ⟨heq, inner, hreads, hgroups⟩
      refine ⟨⟨m.taken, m.rest, inner⟩, ih.mpr ⟨heq, hreads⟩, ?_⟩
      rw [← hgroups]
  | seq r s ihr ihs =>
    simp only [matchesAt, Reads, List.mem_flatMap, List.mem_map]
    constructor
    · rintro ⟨m, hm, n, hn, rfl⟩
      obtain ⟨heq, hr⟩ := ihr.mp hm
      obtain ⟨hrest, hs⟩ := ihs.mp hn
      rw [hrest] at heq hr
      exact ⟨heq.trans (List.append_assoc _ _ _).symm, m.taken, n.taken, m.groups, n.groups, rfl,
        rfl, hr, hs⟩
    · rintro ⟨heq, first, second, firstGroups, secondGroups, htaken, hgroups, hr, hs⟩
      rw [htaken, List.append_assoc] at heq
      refine ⟨⟨first, second ++ m.rest, firstGroups⟩, ihr.mpr ⟨heq, hr⟩,
        ⟨second, m.rest, secondGroups⟩, ihs.mpr ⟨rfl, hs⟩, ?_⟩
      rw [← htaken, ← hgroups]
  | ahead p =>
    simp only [matchesAt, Reads]
    constructor
    · intro h
      by_cases hp : p input
      · rw [if_pos hp, List.mem_singleton] at h
        subst h
        exact ⟨rfl, rfl, hp, rfl⟩
      · rw [if_neg hp] at h
        exact absurd h List.not_mem_nil
    · rintro ⟨rfl, htaken, hp, hgroups⟩
      obtain ⟨taken, rest, groups⟩ := m
      subst htaken hgroups
      rw [List.nil_append, if_pos hp]
      exact List.mem_singleton_self _

theorem reads_of_matchFront {r : Pattern α} {input : List α} {m : PatternMatch α}
    (h : matchFront r input = some m) :
    input = m.taken ++ m.rest ∧ Reads r m.taken m.rest m.groups :=
  mem_matchesAt_iff.mp (List.mem_of_head? h)

theorem isSome_matchFront {r : Pattern α} {taken rest : List α} {groups : List (List α)}
    (h : Reads r taken rest groups) : (matchFront r (taken ++ rest)).isSome := by
  have hmem : ⟨taken, rest, groups⟩ ∈ matchesAt r (taken ++ rest) := mem_matchesAt_iff.mpr ⟨rfl, h⟩
  rw [matchFront, List.isSome_head?]
  exact List.ne_nil_of_mem hmem

/-- What a search finds stands somewhere in the input. -/
theorem reads_of_search {r : Pattern α} {input : List α} {m : PatternMatch α}
    (h : search r input = some m) :
    ∃ before, input = before ++ (m.taken ++ m.rest) ∧ Reads r m.taken m.rest m.groups := by
  induction input with
  | nil =>
    obtain ⟨heq, hreads⟩ := reads_of_matchFront h
    exact ⟨[], heq, hreads⟩
  | cons c input ih =>
    rw [search] at h
    cases hfront : matchFront r (c :: input) with
    | some m' =>
      rw [hfront] at h
      obtain rfl := Option.some.inj h
      obtain ⟨heq, hreads⟩ := reads_of_matchFront hfront
      exact ⟨[], heq, hreads⟩
    | none =>
      rw [hfront] at h
      obtain ⟨before, heq, hreads⟩ := ih h
      exact ⟨c :: before, by rw [heq, List.cons_append], hreads⟩

/-- A search finds something exactly where there is something to find. -/
theorem isSome_search_iff {r : Pattern α} {input : List α} :
    (search r input).isSome ↔
      ∃ before taken rest groups,
        input = before ++ (taken ++ rest) ∧ Reads r taken rest groups := by
  constructor
  · intro h
    obtain ⟨m, hm⟩ := Option.isSome_iff_exists.mp h
    obtain ⟨before, heq, hreads⟩ := reads_of_search hm
    exact ⟨before, m.taken, m.rest, m.groups, heq, hreads⟩
  · rintro ⟨before, taken, rest, groups, rfl, hreads⟩
    induction before with
    | nil =>
      have hfront := isSome_matchFront hreads
      rw [List.nil_append]
      cases hinput : taken ++ rest with
      | nil =>
        rw [hinput] at hfront
        exact hfront
      | cons c input =>
        rw [hinput] at hfront
        obtain ⟨m, hm⟩ := Option.isSome_iff_exists.mp hfront
        rw [search, hm]
        rfl
    | cons c before ih =>
      rw [List.cons_append, search]
      cases hfront : matchFront r (c :: (before ++ (taken ++ rest))) with
      | some m => rfl
      | none => exact ih

/-! ### Where a search goes -/

section Steps
variable {c : α} {w rest taken : List α} {p : α → Bool} {r : Pattern α}

theorem search_of_matchFront {input : List α} {m : PatternMatch α}
    (h : matchFront r input = some m) : search r input = some m := by
  cases input with
  | nil => exact h
  | cons c input => rw [search, h]

theorem search_cons_of_not_prefix {x : α} (h : ¬ w <+: x :: rest) :
    search (.seq (.text w) r) (x :: rest) = search (.seq (.text w) r) rest := by
  rw [search, matchFront, matchesAt, matchesAt, if_neg h]
  rfl

/-- A pattern that begins with a letter is not found where there is no such letter. -/
theorem search_append_of_not_mem {before : List α} (h : c ∉ before) :
    search (.seq (.text (c :: w)) r) (before ++ rest) = search (.seq (.text (c :: w)) r) rest := by
  induction before with
  | nil => rfl
  | cons x before ih =>
    obtain ⟨hx, hbefore⟩ := not_or.mp (mt List.mem_cons.mpr h)
    rw [List.cons_append, search_cons_of_not_prefix, ih hbefore]
    exact fun hpre => hx (List.cons_prefix_cons.mp hpre).1

/-- A group of one run takes the letters to the last. -/
theorem matchFront_text_run (hne : taken ≠ []) (hall : ∀ x ∈ taken, p x = true)
    (hrest : ∀ x ∈ rest.head?, p x = false) :
    matchFront (.seq (.text w) (.group (.run p))) (w ++ (taken ++ rest)) =
      some ⟨w ++ taken, rest, [taken]⟩ := by
  rw [matchFront, matchesAt, matchesAt, if_pos (List.prefix_append w _), List.drop_left,
    List.flatMap_singleton, matchesAt, matchesAt, List.map_map, List.map_map, List.head?_map,
    head?_runs hne hall hrest]
  rfl

end Steps

end Search

end Pattern

end CrosRt
