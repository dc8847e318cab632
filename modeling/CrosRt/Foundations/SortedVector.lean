import Mathlib.Data.List.TakeWhile
import Mathlib.Order.Lattice

/-! # Vectors sorted by a key

A vector kept sorted by a key that its elements have outside of it, with `std::lower_bound` as the
search: what `lowerBound` splits, that an element is erased from the place of its key on, and that an
insertion at the bound keeps the order. The key may change for one element while it is not in the
vector.
-/

namespace CrosRt.SortedVector
set_option autoImplicit false

variable {α β : Type*} [LinearOrder β] {key key' : α → β} {l : List α} {x y : α} {bound : β}

/-- `std::lower_bound` on a range that is sorted by the key. -/
def lowerBound (key : α → β) (range : List α) (bound : β) : ℕ :=
  (range.takeWhile fun x => key x < bound).length

def SortedBy (key : α → β) (l : List α) : Prop := l.Pairwise fun x y => key x ≤ key y

theorem take_lowerBound (key : α → β) (l : List α) (bound : β) :
    l.take (lowerBound key l bound) = l.takeWhile fun x => key x < bound :=
  (List.prefix_iff_eq_take.mp (List.takeWhile_prefix _)).symm

theorem lt_of_mem_take (h : x ∈ l.take (lowerBound key l bound)) : key x < bound := by
  rw [take_lowerBound] at h
  have hx := List.mem_takeWhile_imp h
  exact of_decide_eq_true hx

/-- Where the range is sorted, everything from the bound on has a key that is not below. -/
theorem le_of_mem_drop (hl : SortedBy key l) (h : x ∈ l.drop (lowerBound key l bound)) :
    bound ≤ key x := by
  induction l with
  | nil => exact absurd h List.not_mem_nil
  | cons y l ih =>
    obtain ⟨hy, hl⟩ := List.pairwise_cons.mp hl
    by_cases hlt : key y < bound
    · have hstep : lowerBound key (y :: l) bound = lowerBound key l bound + 1 := by
        simp [lowerBound, hlt]
      rw [hstep, List.drop_succ_cons] at h
      exact ih hl h
    · have hzero : lowerBound key (y :: l) bound = 0 := by
        simp [lowerBound, hlt]
      rw [hzero, List.drop_zero] at h
      have hbound : bound ≤ key y := le_of_not_gt hlt
      rcases List.mem_cons.mp h with rfl | hmem
      · exact hbound
      · exact hbound.trans (hy x hmem)

/-- The part before the bound is exactly what is below it. -/
theorem mem_take_lowerBound (hl : SortedBy key l) :
    x ∈ l.take (lowerBound key l bound) ↔ x ∈ l ∧ key x < bound := by
  constructor
  · exact fun h => ⟨List.mem_of_mem_take h, lt_of_mem_take h⟩
  · rintro ⟨hx, hlt⟩
    rw [← List.take_append_drop (lowerBound key l bound) l, List.mem_append] at hx
    rcases hx with hx | hx
    · exact hx
    · exact absurd hlt (not_lt.mpr (le_of_mem_drop hl hx))

theorem SortedBy.congr (hl : SortedBy key l) (h : ∀ x ∈ l, key' x = key x) : SortedBy key' l := by
  refine List.Pairwise.imp_of_mem (fun hx hy hle => ?_) hl
  rw [h _ hx, h _ hy]
  exact hle

theorem SortedBy.sublist {l' : List α} (hl : SortedBy key l) (h : l'.Sublist l) : SortedBy key l' :=
  List.Pairwise.sublist h hl

/-- Nothing of the same key stands before the bound. -/
theorem erase_from_lowerBound [DecidableEq α] (key : α → β) (l : List α) (x : α) :
    l.take (lowerBound key l (key x)) ++ (l.drop (lowerBound key l (key x))).erase x = l.erase x := by
  have hnot : x ∉ l.take (lowerBound key l (key x)) := fun h => lt_irrefl _ (lt_of_mem_take h)
  rw [← List.erase_append_right _ hnot, List.take_append_drop]

/-- `vector::emplace` at the bound. -/
def insertSorted (key : α → β) (l : List α) (x : α) : List α :=
  l.take (lowerBound key l (key x)) ++ x :: l.drop (lowerBound key l (key x))

theorem insertSorted_perm (key : α → β) (l : List α) (x : α) :
    (insertSorted key l x).Perm (x :: l) := by
  have h : (insertSorted key l x).Perm
      (x :: (l.take (lowerBound key l (key x)) ++ l.drop (lowerBound key l (key x)))) :=
    List.perm_middle
  rwa [List.take_append_drop] at h

theorem SortedBy.insertSorted (hl : SortedBy key l) (x : α) :
    SortedBy key (insertSorted key l x) := by
  refine List.pairwise_append.mpr ⟨hl.sublist (List.take_sublist _ _), ?_, ?_⟩
  · exact List.pairwise_cons.mpr ⟨fun y hy => le_of_mem_drop hl hy, hl.sublist (List.drop_sublist _ _)⟩
  · intro y hy z hz
    have hlt := lt_of_mem_take hy
    rcases List.mem_cons.mp hz with rfl | hz
    · exact hlt.le
    · exact hlt.le.trans (le_of_mem_drop hl hz)

theorem SortedBy.head_le (hl : SortedBy key (x :: l)) (hy : y ∈ x :: l) : key x ≤ key y := by
  rcases List.mem_cons.mp hy with rfl | hy
  · exact le_rfl
  · exact (List.pairwise_cons.mp hl).1 y hy

end CrosRt.SortedVector
