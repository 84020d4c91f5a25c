import Mathlib.Data.Int.Notation
import Mathlib.Data.List.DropRight

/- Slices of Python sequences. -/
namespace PySlice

/-- `xs[:n]` -/
def sliceTo {α : Type} (n : ℤ) (xs : List α) : List α :=
  xs.take (if n < 0 then xs.length + n else n).toNat

/-- `xs[n:]` -/
def sliceFrom {α : Type} (n : ℤ) (xs : List α) : List α :=
  xs.drop (if n < 0 then xs.length + n else n).toNat

theorem length_sliceTo {α : Type} {n : ℤ} (hn : 0 ≤ n) (xs : List α) : (sliceTo n xs).length ≤ n := by
  unfold sliceTo
  rw [List.length_take, if_neg (Int.not_lt.mpr hn)]
  omega

theorem length_sliceFrom {α : Type} {n : ℤ} (hn : 0 < n) (xs : List α) : (sliceFrom (-n) xs).length ≤ n := by
  unfold sliceFrom
  rw [List.length_drop, if_pos (Int.neg_neg_of_pos hn)]
  omega

theorem sliceFrom_short {α : Type} {n : ℤ} (hn : 0 < n) {xs : List α} (h : xs.length ≤ n) :
    sliceFrom (-n) xs = xs := by
  unfold sliceFrom
  rw [if_pos (Int.neg_neg_of_pos hn), Int.toNat_of_nonpos (by omega), List.drop_zero]

theorem sliceTo_natCast {α : Type} (n : ℕ) (xs : List α) : sliceTo n xs = xs.take n := by
  unfold sliceTo
  rw [if_neg (by omega), Int.toNat_natCast]

theorem sliceFrom_neg {α : Type} (n : ℕ) (xs : List α) :
    (if (n : ℤ) ≠ 0 then sliceFrom (-n) xs else []) = xs.rtake n := by
  cases n with
  | zero => rw [if_neg (by omega), List.rtake_zero]
  | succ n =>
    unfold sliceFrom List.rtake
    rw [if_pos (by omega), if_pos (by omega)]
    congr 1
    omega

end PySlice
