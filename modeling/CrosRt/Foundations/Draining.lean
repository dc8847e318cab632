import Mathlib.Data.List.Basic

/-! # Draining loops

`while (rounds left && (x = take(s)) != NULL) use(x)`: a bounded loop that takes elements out of a
state until there is none. Over a state that is seen as a queue (`view`) and a `take` that removes
its front, the loop uses the first elements in order and leaves the others (`drain_fst`,
`view_drain`), and with as many rounds as the queue is long it leaves nothing, so it is then the
unbounded loop (`view_drain_of_le`).
-/

namespace CrosRt
set_option autoImplicit false

variable {S A : Type*}

/-- At most `n` rounds: the elements taken, in order, and the state left. -/
def drain (take : S → Option A × S) : ℕ → S → List A × S
  | 0, s => ([], s)
  | n + 1, s =>
      match take s with
      | (none, t) => ([], t)
      | (some a, t) => (a :: (drain take n t).1, (drain take n t).2)

/-- `take` removes the front of the queue that `view` sees. -/
structure TakesFront (take : S → Option A × S) (view : S → List A) : Prop where
  fst : ∀ s, (take s).1 = (view s).head?
  snd : ∀ s, view (take s).2 = (view s).tail

section
variable {take : S → Option A × S} {view : S → List A}

theorem drain_succ_none {s t : S} (n : ℕ) (h : take s = (none, t)) :
    drain take (n + 1) s = ([], t) := by
  rw [drain, h]

theorem drain_succ_some {s t : S} {a : A} (n : ℕ) (h : take s = (some a, t)) :
    drain take (n + 1) s = (a :: (drain take n t).1, (drain take n t).2) := by
  rw [drain, h]

theorem drain_spec (hq : TakesFront take view) :
    ∀ (n : ℕ) (s : S), (drain take n s).1 = (view s).take n ∧
      view (drain take n s).2 = (view s).drop n
  | 0, s => ⟨rfl, rfl⟩
  | n + 1, s => by
      have hfst := hq.fst s
      have hsnd := hq.snd s
      rcases htake : take s with ⟨_ | a, t⟩
      · rw [htake] at hfst hsnd
        have hnil : view s = [] := List.head?_eq_none_iff.mp hfst.symm
        rw [drain_succ_none n htake, hnil]
        exact ⟨rfl, by rw [hsnd, hnil]; rfl⟩
      · rw [htake] at hfst hsnd
        obtain ⟨l, hl⟩ : ∃ l, view s = a :: l := by
          rw [eq_comm, List.head?_eq_some_iff] at hfst
          exact hfst
        obtain ⟨ih₁, ih₂⟩ := drain_spec hq n t
        rw [hl, List.tail_cons] at hsnd
        rw [drain_succ_some n htake, hl, List.take_succ_cons, List.drop_succ_cons, ih₁, ih₂, hsnd]
        exact ⟨rfl, rfl⟩

theorem drain_fst (hq : TakesFront take view) (n : ℕ) (s : S) :
    (drain take n s).1 = (view s).take n := (drain_spec hq n s).1

theorem view_drain (hq : TakesFront take view) (n : ℕ) (s : S) :
    view (drain take n s).2 = (view s).drop n := (drain_spec hq n s).2

theorem drain_fst_of_le (hq : TakesFront take view) {n : ℕ} {s : S} (h : (view s).length ≤ n) :
    (drain take n s).1 = view s := by
  rw [drain_fst hq, List.take_of_length_le h]

theorem view_drain_of_le (hq : TakesFront take view) {n : ℕ} {s : S} (h : (view s).length ≤ n) :
    view (drain take n s).2 = [] := by
  rw [view_drain hq, List.drop_of_length_le h]

/-- A property of the state that `take` keeps, the loop keeps. -/
theorem drain_invariant {P : S → Prop} (h : ∀ s, P s → P (take s).2) :
    ∀ (n : ℕ) (s : S), P s → P (drain take n s).2
  | 0, _, hs => hs
  | n + 1, s, hs => by
      have ht := h s hs
      rcases htake : take s with ⟨_ | a, t⟩
      · rw [htake] at ht
        rw [drain_succ_none n htake]
        exact ht
      · rw [htake] at ht
        rw [drain_succ_some n htake]
        exact drain_invariant h n t ht

end

end CrosRt
