import Mathlib.Data.List.Nodup
import Mathlib.Data.List.Range

/-! # Distributing a chain over two machines

`distribute_commands` of `make_chain.py`: the commands of a chain run on machine `'a'` or `'b'`, the
chain starts on `'a'` and crosses the network `num_edges` times. `generate_patterns` lists the ways
to do that, one run of equal letters after the other, each run short enough to leave a command to
every later one.
-/

namespace CrosRt.Scripts
set_option autoImplicit false

def nextLocation (current : Char) : Char := if current = 'a' then 'b' else 'a'

/-- The inner function of `distribute_commands`. -/
def generatePatterns (numCommands : ℕ) (current : Char) :
    (transitionsLeft : ℕ) → (path : List Char) → List (List Char)
  | 0, path => [path ++ List.replicate (numCommands - path.length) current]
  | t + 1, path =>
      -- range(1, num_commands - len(path) - transitions_left + 1), empty from 1 down
      (List.range' 1 (numCommands - path.length - (t + 1))).flatMap fun i =>
        generatePatterns numCommands (nextLocation current) t (path ++ List.replicate i current)

def allPatterns (numEdges numCommands : ℕ) : List (List Char) :=
  generatePatterns numCommands 'a' numEdges []

/-- `distribute_commands`; `random.choice` fails on an empty list and takes the element at
`randbelow(len(seq))` otherwise. -/
def distributeCommands (randbelow : ℕ → ℕ) (numEdges numCommands : ℕ) : Option (List Char) :=
  (allPatterns numEdges numCommands)[randbelow (allPatterns numEdges numCommands).length]?

/-! ## Lists of two letters -/

def changes : List Char → ℕ
  | x :: y :: rest => (if x = y then 0 else 1) + changes (y :: rest)
  | [_] => 0
  | [] => 0

/-- A list over `'a'` and `'b'` of the given length that starts with `start` and changes value
`edges` times. -/
structure IsPattern (length : ℕ) (start : Char) (edges : ℕ) (s : List Char) : Prop where
  length : s.length = length
  head : s.head? = some start
  letters : ∀ x ∈ s, x = 'a' ∨ x = 'b'
  changes : changes s = edges

theorem changes_lt_length : ∀ {s : List Char}, s ≠ [] → changes s < s.length
  | [], h => absurd rfl h
  | [_], _ => Nat.zero_lt_one
  | x :: y :: rest, _ => by
      have hrest := changes_lt_length (List.cons_ne_nil y rest)
      rw [changes, List.length_cons]
      split <;> omega

theorem changes_replicate (n : ℕ) (c : Char) : changes (List.replicate n c) = 0 := by
  induction n with
  | zero => rfl
  | succ n ih =>
    cases n with
    | zero => rfl
    | succ n =>
      rw [List.replicate_succ, List.replicate_succ, changes, if_pos rfl, Nat.zero_add,
        ← List.replicate_succ]
      exact ih

theorem changes_replicate_append {c d : Char} (hne : c ≠ d) (n : ℕ) {s : List Char}
    (hs : s.head? = some d) : changes (List.replicate (n + 1) c ++ s) = changes s + 1 := by
  obtain ⟨rest, rfl⟩ := List.head?_eq_some_iff.mp hs
  induction n with
  | zero =>
    rw [List.replicate_one, List.singleton_append, changes, if_neg hne, Nat.add_comm]
  | succ n ih =>
    rw [List.replicate_succ, List.replicate_succ, List.cons_append, List.cons_append, changes,
      if_pos rfl, Nat.zero_add, ← List.cons_append, ← List.replicate_succ]
    exact ih

/-- The first run of a list, up to the first other letter. -/
theorem exists_run {c : Char} {s : List Char} (hs : s.head? = some c) :
    ∃ n rest, s = List.replicate (n + 1) c ++ rest ∧ rest.head? ≠ some c := by
  induction s with
  | nil => exact absurd hs (by simp)
  | cons x s ih =>
    obtain rfl : x = c := by simpa using hs
    by_cases hnext : s.head? = some x
    · obtain ⟨n, rest, rfl, hrest⟩ := ih hnext
      exact ⟨n + 1, rest, rfl, hrest⟩
    · exact ⟨0, s, rfl, hnext⟩

/-- Where two runs of one letter end at another letter, they are equally long. -/
theorem run_length_eq {c : Char} {n m : ℕ} {s t : List Char} (hs : s.head? ≠ some c)
    (ht : t.head? ≠ some c) (h : List.replicate n c ++ s = List.replicate m c ++ t) : n = m := by
  induction n generalizing m with
  | zero =>
    cases m with
    | zero => rfl
    | succ m =>
      rw [List.replicate_zero, List.nil_append, List.replicate_succ, List.cons_append] at h
      exact absurd (by rw [h]; rfl) hs
  | succ n ih =>
    cases m with
    | zero =>
      rw [List.replicate_zero, List.nil_append, List.replicate_succ, List.cons_append] at h
      exact absurd (by rw [← h]; rfl) ht
    | succ m =>
      rw [List.replicate_succ, List.replicate_succ, List.cons_append, List.cons_append] at h
      rw [ih (List.cons.inj h).2]

/-! ## Patterns run by run -/

theorem nextLocation_ne (c : Char) : c ≠ nextLocation c := by
  rw [nextLocation]
  by_cases h : c = 'a'
  · rw [if_pos h, h]
    decide
  · rw [if_neg h]
    exact h

theorem nextLocation_letter (c : Char) : nextLocation c = 'a' ∨ nextLocation c = 'b' := by
  rw [nextLocation]
  by_cases h : c = 'a'
  · rw [if_pos h]
    exact Or.inr rfl
  · rw [if_neg h]
    exact Or.inl rfl

theorem eq_nextLocation {c d : Char} (hc : c = 'a' ∨ c = 'b') (hd : d = 'a' ∨ d = 'b')
    (hne : d ≠ c) : d = nextLocation c := by
  rcases hc with rfl | rfl <;> rcases hd with rfl | rfl <;> first | rfl | exact absurd rfl hne

theorem isPattern_zero_iff {r : ℕ} {c : Char} (hc : c = 'a' ∨ c = 'b') (hr : 0 < r)
    (s : List Char) : IsPattern r c 0 s ↔ s = List.replicate r c := by
  constructor
  · intro h
    obtain ⟨n, rest, rfl, hrest⟩ := exists_run h.head
    cases rest with
    | nil =>
      have hlen := h.length
      rw [List.append_nil, List.length_replicate] at hlen
      rw [List.append_nil, hlen]
    | cons d rest =>
      have hne : c ≠ d := fun heq => hrest (by rw [heq]; rfl)
      have hchanges := h.changes
      rw [changes_replicate_append hne n rfl] at hchanges
      exact absurd hchanges (Nat.succ_ne_zero _)
  · rintro rfl
    refine ⟨List.length_replicate, ?_, ?_, changes_replicate r c⟩
    · rw [List.head?_replicate, if_neg (by omega)]
    · intro x hx
      rw [List.eq_of_mem_replicate hx]
      exact hc

/-- With one more change there is a run in front, and the rest starts on the other machine. -/
theorem isPattern_succ_iff {r : ℕ} {c : Char} (hc : c = 'a' ∨ c = 'b') (t : ℕ) (s : List Char) :
    IsPattern r c (t + 1) s ↔
      ∃ i, (1 ≤ i ∧ i < 1 + (r - (t + 1))) ∧
        ∃ rest, s = List.replicate i c ++ rest ∧ IsPattern (r - i) (nextLocation c) t rest := by
  constructor
  · intro h
    obtain ⟨n, rest, rfl, hrest⟩ := exists_run h.head
    cases rest with
    | nil =>
      have hchanges := h.changes
      rw [List.append_nil, changes_replicate] at hchanges
      exact absurd hchanges (Nat.succ_ne_zero t).symm
    | cons d rest =>
      have hne : d ≠ c := fun heq => hrest (by rw [heq]; rfl)
      have hd := h.letters d (List.mem_append_right _ List.mem_cons_self)
      have hlen := h.length
      have hchanges := h.changes
      rw [List.length_append, List.length_replicate] at hlen
      rw [changes_replicate_append hne.symm n rfl] at hchanges
      have hlt := changes_lt_length (List.cons_ne_nil d rest)
      refine ⟨n + 1, ⟨by omega, by omega⟩, d :: rest, rfl, ⟨by omega, ?_, ?_, by omega⟩⟩
      · rw [List.head?_cons, eq_nextLocation hc hd hne]
      · intro x hx
        exact h.letters x (List.mem_append_right _ hx)
  · rintro ⟨i, ⟨hi, hlt⟩, rest, rfl, h⟩
    obtain ⟨n, rfl⟩ := Nat.exists_eq_add_of_le' hi
    have hlen := h.length
    refine ⟨?_, ?_, ?_, ?_⟩
    · rw [List.length_append, List.length_replicate]
      omega
    · rw [List.replicate_succ, List.cons_append, List.head?_cons]
    · intro x hx
      rcases List.mem_append.mp hx with hx | hx
      · rw [List.eq_of_mem_replicate hx]
        exact hc
      · exact h.letters x hx
    · rw [changes_replicate_append (nextLocation_ne c) n h.head, h.changes]

/-! ## What `generate_patterns` lists -/

section Generate
variable {numCommands : ℕ}

theorem generatePatterns_succ (c : Char) (t : ℕ) (path : List Char) :
    generatePatterns numCommands c (t + 1) path =
      (List.range' 1 (numCommands - path.length - (t + 1))).flatMap fun i =>
        generatePatterns numCommands (nextLocation c) t (path ++ List.replicate i c) := rfl

/-- The lists are the path so far with a pattern of what is left behind it. -/
theorem mem_generatePatterns (t : ℕ) {c : Char} (hc : c = 'a' ∨ c = 'b') {path : List Char}
    (hpath : path.length < numCommands) (pattern : List Char) :
    pattern ∈ generatePatterns numCommands c t path ↔
      ∃ s, pattern = path ++ s ∧ IsPattern (numCommands - path.length) c t s := by
  induction t generalizing c path with
  | zero =>
    rw [generatePatterns, List.mem_singleton]
    simp only [isPattern_zero_iff hc (Nat.sub_pos_of_lt hpath)]
    constructor
    · rintro rfl
      exact ⟨_, rfl, rfl⟩
    · rintro ⟨s, rfl, rfl⟩
      rfl
  | succ t ih =>
    rw [generatePatterns_succ, List.mem_flatMap]
    simp only [isPattern_succ_iff hc, List.mem_range'_1]
    have hrest : ∀ i, 1 ≤ i ∧ i < 1 + (numCommands - path.length - (t + 1)) →
        (pattern ∈ generatePatterns numCommands (nextLocation c) t (path ++ List.replicate i c) ↔
          ∃ rest, pattern = path ++ List.replicate i c ++ rest ∧
            IsPattern (numCommands - path.length - i) (nextLocation c) t rest) := by
      rintro i ⟨hi, hlt⟩
      have hlen : (path ++ List.replicate i c).length = path.length + i := by
        rw [List.length_append, List.length_replicate]
      rw [ih (nextLocation_letter c) (by omega), hlen, Nat.sub_add_eq]
    constructor
    · rintro ⟨i, hi, hmem⟩
      obtain ⟨rest, rfl, h⟩ := (hrest i hi).mp hmem
      exact ⟨List.replicate i c ++ rest, List.append_assoc _ _ _, i, hi, rest, rfl, h⟩
    · rintro ⟨s, rfl, i, hi, rest, rfl, h⟩
      exact ⟨i, hi, (hrest i hi).mpr ⟨rest, (List.append_assoc _ _ _).symm, h⟩⟩

/-- No list is generated twice: the length of the first run tells the branches apart. -/
theorem nodup_generatePatterns (t : ℕ) {c : Char} (hc : c = 'a' ∨ c = 'b') {path : List Char}
    (hpath : path.length < numCommands) : (generatePatterns numCommands c t path).Nodup := by
  induction t generalizing c path with
  | zero => exact List.nodup_singleton _
  | succ t ih =>
    have hlen : ∀ i ∈ List.range' 1 (numCommands - path.length - (t + 1)),
        (path ++ List.replicate i c).length < numCommands := by
      intro i hi
      rw [List.mem_range'_1] at hi
      rw [List.length_append, List.length_replicate]
      omega
    have hother : ∀ {r : ℕ} {s : List Char}, IsPattern r (nextLocation c) t s →
        s.head? ≠ some c := by
      intro r s h heq
      rw [h.head] at heq
      exact nextLocation_ne c (Option.some.inj heq).symm
    rw [generatePatterns_succ, List.nodup_flatMap]
    refine ⟨fun i hi => ih (nextLocation_letter c) (hlen i hi), ?_⟩
    refine List.Pairwise.imp_of_mem (fun {i j} hi hj hne => ?_) List.nodup_range'
    intro pattern hpi hpj
    obtain ⟨s, rfl, hs⟩ := (mem_generatePatterns t (nextLocation_letter c) (hlen i hi) _).mp hpi
    obtain ⟨s', heq, hs'⟩ := (mem_generatePatterns t (nextLocation_letter c) (hlen j hj) _).mp hpj
    rw [List.append_assoc, List.append_assoc] at heq
    exact hne (run_length_eq (hother hs) (hother hs') (List.append_cancel_left heq))

theorem generatePatterns_ne_nil (t : ℕ) (c : Char) (path : List Char)
    (h : t < numCommands - path.length) : generatePatterns numCommands c t path ≠ [] := by
  induction t generalizing c path with
  | zero => exact List.cons_ne_nil _ _
  | succ t ih =>
    rw [generatePatterns_succ, ne_eq, List.flatMap_eq_nil_iff]
    intro hnil
    have hlen : (path ++ List.replicate 1 c).length = path.length + 1 := by
      rw [List.length_append, List.length_replicate]
    refine ih (nextLocation c) (path ++ List.replicate 1 c) (by omega) (hnil 1 ?_)
    rw [List.mem_range'_1]
    omega

end Generate

theorem mem_allPatterns {numEdges numCommands : ℕ} (h : 1 ≤ numCommands) (pattern : List Char) :
    pattern ∈ allPatterns numEdges numCommands ↔ IsPattern numCommands 'a' numEdges pattern := by
  rw [allPatterns, mem_generatePatterns numEdges (Or.inl rfl) (by exact h)]
  constructor
  · rintro ⟨s, rfl, hs⟩
    exact hs
  · intro hs
    exact ⟨pattern, rfl, hs⟩

theorem allPatterns_eq_nil_iff {numEdges numCommands : ℕ} (h : 1 ≤ numCommands) :
    allPatterns numEdges numCommands = [] ↔ numCommands ≤ numEdges := by
  constructor
  · intro hnil
    by_contra hlt
    exact generatePatterns_ne_nil numEdges 'a' [] (by simpa using hlt) hnil
  · intro hle
    rw [List.eq_nil_iff_forall_not_mem]
    intro pattern hmem
    have hp := (mem_allPatterns h pattern).mp hmem
    have hne : pattern ≠ [] := List.ne_nil_of_length_pos (by rw [hp.length]; omega)
    have hlt := changes_lt_length hne
    rw [hp.changes, hp.length] at hlt
    omega

/-- **All distributions of a chain.** `all_patterns` lists exactly the lists over `'a'` and `'b'` of
the length of the chain that start with `'a'` and change value `num_edges` times, each of them once;
there is none exactly when the chain has too few commands. -/
theorem allPatterns_exact (numEdges : ℕ) {numCommands : ℕ} (h : 1 ≤ numCommands) :
    (∀ pattern, pattern ∈ allPatterns numEdges numCommands ↔
        IsPattern numCommands 'a' numEdges pattern) ∧
      (allPatterns numEdges numCommands).Nodup ∧
      (allPatterns numEdges numCommands = [] ↔ numCommands ≤ numEdges) :=
  ⟨mem_allPatterns h, nodup_generatePatterns numEdges (Or.inl rfl) h, allPatterns_eq_nil_iff h⟩

theorem allPatterns_exact_three :
    IsPattern 3 'a' 2 ['a', 'b', 'a'] ∧ (allPatterns 2 3).Nodup ∧ allPatterns 2 3 ≠ [] := by
  obtain ⟨hmem, hnodup, hnil⟩ := allPatterns_exact 2 (show 1 ≤ 3 by decide)
  exact ⟨(hmem _).mp (by decide), hnodup, mt hnil.mp (by decide)⟩

/-- A chain gets a distribution of its own length that starts on `'a'`, if there is one. -/
theorem isPattern_of_distributeCommands {randbelow : ℕ → ℕ} {numEdges numCommands : ℕ}
    (h : 1 ≤ numCommands) {pattern : List Char}
    (hp : distributeCommands randbelow numEdges numCommands = some pattern) :
    IsPattern numCommands 'a' numEdges pattern := by
  rw [distributeCommands] at hp
  exact (mem_allPatterns h pattern).mp (List.mem_of_getElem? hp)

example : allPatterns 1 4 =
    [['a', 'b', 'b', 'b'], ['a', 'a', 'b', 'b'], ['a', 'a', 'a', 'b']] := by decide

end CrosRt.Scripts
