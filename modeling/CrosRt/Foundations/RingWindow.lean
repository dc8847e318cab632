import Mathlib.Data.Fin.Basic
import Mathlib.Data.List.GetD
import Mathlib.Data.Nat.ModEq
import Mathlib.Logic.Function.Basic

/-! # A queue laid out in a ring

An array of `n` cells is used as a ring: the cell of position `k` is `k % n`. `Window blank ring
start q` says that the positions from `start` on hold the elements of `q`, front first, and that
all other cells are `blank`. Nothing here is about a particular ring.

The rules follow the operations of a ring: an element is written behind the last one
(`Window.push`), the front is blanked (`Window.pop`) or overwritten in a full ring (`Window.rotate`),
and a cell in use is changed in place (`Window.set`).
-/

namespace CrosRt.RingWindow
set_option autoImplicit false

variable {A : Type*} {n : ℕ} [NeZero n]

/-- The cell of a position. -/
def cell (n : ℕ) [NeZero n] (k : ℕ) : Fin n := Fin.ofNat n k

structure Window (blank : A) (ring : Fin n → A) (start : ℕ) (q : List A) : Prop where
  fits : q.length ≤ n
  reads : ∀ i < n, ring (cell n (start + i)) = q.getD i blank

section Cells

theorem cell_congr {j k : ℕ} (h : j % n = k % n) : cell n j = cell n k :=
  Fin.ext h

/-- Positions less than `n` apart have different cells. -/
theorem cell_add_inj {start i j : ℕ} (hi : i < n) (hj : j < n)
    (h : cell n (start + i) = cell n (start + j)) : i = j := by
  have hmod : (start + i) % n = (start + j) % n := congrArg Fin.val h
  have hij : i % n = j % n := Nat.ModEq.add_left_cancel' start hmod
  rwa [Nat.mod_eq_of_lt hi, Nat.mod_eq_of_lt hj] at hij

theorem cell_val (c : Fin n) : cell n c.val = c :=
  Fin.ext (Nat.mod_eq_of_lt c.isLt)

theorem cell_add_self (k : ℕ) : cell n (k + n) = cell n k :=
  cell_congr (Nat.add_mod_right k n)

/-- Every cell is the cell of one of the `n` positions from `start` on. -/
theorem exists_cell_add (start : ℕ) (c : Fin n) : ∃ i < n, cell n (start + i) = c := by
  have hpos : 0 < n := Nat.pos_of_ne_zero (NeZero.ne n)
  have hmod : start % n < n := Nat.mod_lt start hpos
  refine ⟨(c.val + (n - start % n)) % n, Nat.mod_lt _ hpos, Fin.ext ?_⟩
  show (start + (c.val + (n - start % n)) % n) % n = c.val
  have hsum : start % n + (c.val + (n - start % n)) = c.val + n := by omega
  rw [Nat.add_mod_mod, ← Nat.mod_add_mod, hsum, Nat.add_mod_right, Nat.mod_eq_of_lt c.isLt]

end Cells

section Rules
variable {blank : A} {ring : Fin n → A} {start : ℕ} {q : List A}

theorem Window.get (h : Window blank ring start q) {i : ℕ} (hi : i < q.length) :
    ring (cell n (start + i)) = q[i] := by
  rw [h.reads i (hi.trans_le h.fits), List.getD_eq_getElem _ _ hi]

theorem Window.front {a : A} (h : Window blank ring start (a :: q)) : ring (cell n start) = a :=
  h.get (i := 0) (Nat.succ_pos _)

theorem window_nil (h : ∀ c, ring c = blank) : Window blank ring start [] :=
  ⟨Nat.zero_le n, fun _ _ => h _⟩

theorem window_replicate (h : ∀ c, ring c = blank) :
    Window blank ring start (List.replicate n blank) := by
  refine ⟨List.length_replicate.le, fun i hi => ?_⟩
  rw [List.getD_replicate _ hi]
  exact h _

/-- Writing the cell of a position that is in use, or the first free one, changes that element of
the queue alone. -/
theorem Window.write (h : Window blank ring start q) {q' : List A} {i : ℕ} {a : A} (hi : i < n)
    (hfits : q'.length ≤ n) (hat : q'.getD i blank = a)
    (hother : ∀ j < n, j ≠ i → q'.getD j blank = q.getD j blank) :
    Window blank (Function.update ring (cell n (start + i)) a) start q' := by
  refine ⟨hfits, fun j hj => ?_⟩
  by_cases hji : j = i
  · subst hji
    rw [Function.update_self, hat]
  · have hne : cell n (start + j) ≠ cell n (start + i) := fun hc => hji (cell_add_inj hj hi hc)
    rw [Function.update_of_ne hne, h.reads j hj, hother j hj hji]

theorem Window.push (h : Window blank ring start q) (hroom : q.length < n) (a : A) :
    Window blank (Function.update ring (cell n (start + q.length)) a) start (q ++ [a]) := by
  have hfits : (q ++ [a]).length ≤ n := by
    rw [List.length_append, List.length_singleton]
    exact hroom
  refine h.write hroom hfits (by simp [List.getD_eq_getElem?_getD]) ?_
  intro j _ hj
  rcases Nat.lt_or_gt_of_ne hj with hlt | hgt
  · rw [List.getD_append _ _ _ _ hlt]
  · rw [List.getD_eq_default _ _ (by simp; omega), List.getD_eq_default _ _ hgt.le]

theorem Window.set (h : Window blank ring start q) {i : ℕ} (hi : i < q.length) (a : A) :
    Window blank (Function.update ring (cell n (start + i)) a) start (q.set i a) := by
  refine h.write (hi.trans_le h.fits) (by simpa using h.fits) ?_ ?_
  · rw [List.getD_eq_getElem _ _ (by simpa using hi), List.getElem_set_self]
  · intro j _ hj
    simp only [List.getD_eq_getElem?_getD, List.getElem?_set_ne (Ne.symm hj)]

theorem Window.pop {a : A} (h : Window blank ring start (a :: q)) :
    Window blank (Function.update ring (cell n start) blank) (start + 1) q := by
  have hlen : q.length < n := h.fits
  refine ⟨hlen.le, fun i hi => ?_⟩
  rw [Nat.add_assoc, Nat.add_comm 1 i]
  by_cases hlast : i + 1 = n
  · -- The last position of the new window is the cell that was blanked.
    rw [hlast, cell_add_self, Function.update_self, List.getD_eq_default _ _ (by omega)]
  · have hi1 : i + 1 < n := by omega
    have hne : cell n (start + (i + 1)) ≠ cell n start := fun hc =>
      absurd (cell_add_inj hi1 (Nat.pos_of_neZero n) hc) (Nat.succ_ne_zero i)
    rw [Function.update_of_ne hne, h.reads (i + 1) hi1, List.getD_cons_succ]

/-- In a full ring the new last element takes the cell of the front. -/
theorem Window.rotate {a : A} (h : Window blank ring start (a :: q)) (hfull : q.length + 1 = n)
    (b : A) : Window blank (Function.update ring (cell n start) b) (start + 1) (q ++ [b]) := by
  have hpush := h.pop.push (by omega) b
  have hcell : cell n (start + 1 + q.length) = cell n start := by
    rw [Nat.add_assoc, Nat.add_comm 1, hfull, cell_add_self]
  rwa [hcell, Function.update_idem] at hpush

theorem Window.congr_start {start' : ℕ} (h : Window blank ring start q)
    (hs : start % n = start' % n) : Window blank ring start' q := by
  refine ⟨h.fits, fun i hi => ?_⟩
  rw [← h.reads i hi]
  exact congrArg ring (cell_congr (Nat.ModEq.add_right i hs.symm))

end Rules

end CrosRt.RingWindow
