import Mathlib.Logic.Function.Basic
import Mathlib.Data.Int.Basic

/-! # Arrays with a record of the indices used

The language checks no index: `a[i]` with `i` outside the declared bounds reads or writes whatever
lies there. An array is therefore one cell for every integer offset from its base, with the list of
the offsets used so far, and memory safety of a run is a statement about that list
(`InBounds`). The record never changes what a read returns.
-/

namespace CrosRt
set_option autoImplicit false

/-- The cells around the base of an array, and the indices used into it, the oldest first. -/
structure TracedArray (A : Type*) where
  cell : ℤ → A
  used : List ℤ

namespace TracedArray
variable {A : Type*}

def const (v : A) : TracedArray A := ⟨fun _ => v, []⟩

def touch (a : TracedArray A) (i : ℤ) : TracedArray A := { a with used := a.used ++ [i] }

def write (a : TracedArray A) (i : ℤ) (v : A) : TracedArray A where
  cell := Function.update a.cell i v
  used := a.used ++ [i]

def InBounds (n : ℤ) (a : TracedArray A) : Prop := ∀ i ∈ a.used, 0 ≤ i ∧ i < n

@[simp] theorem const_cell (v : A) (i : ℤ) : (const v).cell i = v := rfl
@[simp] theorem touch_cell (a : TracedArray A) (i : ℤ) : (a.touch i).cell = a.cell := rfl
@[simp] theorem touch_used (a : TracedArray A) (i : ℤ) : (a.touch i).used = a.used ++ [i] := rfl
@[simp] theorem write_used (a : TracedArray A) (i : ℤ) (v : A) :
    (a.write i v).used = a.used ++ [i] := rfl

theorem write_cell (a : TracedArray A) (i : ℤ) (v : A) :
    (a.write i v).cell = Function.update a.cell i v := rfl

@[simp] theorem write_cell_self (a : TracedArray A) (i : ℤ) (v : A) :
    (a.write i v).cell i = v := Function.update_self ..

@[simp] theorem write_cell_ne (a : TracedArray A) {i j : ℤ} (v : A) (h : j ≠ i) :
    (a.write i v).cell j = a.cell j := Function.update_of_ne h ..

theorem inBounds_const (n : ℤ) (v : A) : (const v).InBounds n :=
  fun _ h => absurd h List.not_mem_nil

theorem inBounds_append {n : ℤ} {a b : TracedArray A} {is : List ℤ} (h : b.used = a.used ++ is) :
    b.InBounds n ↔ a.InBounds n ∧ ∀ i ∈ is, 0 ≤ i ∧ i < n := by
  unfold InBounds
  rw [h]
  exact List.forall_mem_append

theorem inBounds_write {n : ℤ} {a : TracedArray A} {i : ℤ} {v : A} :
    (a.write i v).InBounds n ↔ a.InBounds n ∧ 0 ≤ i ∧ i < n := by
  rw [inBounds_append (write_used a i v), List.forall_mem_singleton]

end TracedArray

end CrosRt
