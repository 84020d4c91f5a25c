import Mathlib.Data.List.Basic
import Mathlib.Algebra.BigOperators.Group.List.Basic
import Mathlib.Algebra.GroupWithZero.Nat

/- Filling a budget in order.

   An element that still fits is taken, and one that does not is passed over. What is taken is
   in its order (`fill_sublist`) and within the budget (`cost_fill`). -/
namespace Greedy

variable {α : Type} {cost : α → ℕ} {budget : ℕ}

def fill (cost : α → ℕ) (budget : ℕ) : List α → List α
  | [] => []
  | a :: rest => if cost a ≤ budget then a :: fill cost (budget - cost a) rest else fill cost budget rest

theorem fill_sublist (cost : α → ℕ) (budget : ℕ) (as : List α) : (fill cost budget as).Sublist as := by
  induction as generalizing budget with
  | nil => exact List.Sublist.refl []
  | cons a rest ih =>
    unfold fill
    split
    · exact (ih _).cons_cons a
    · exact (ih _).cons a

theorem cost_fill (cost : α → ℕ) (budget : ℕ) (as : List α) : ((fill cost budget as).map cost).sum ≤ budget := by
  induction as generalizing budget with
  | nil => exact Nat.zero_le _
  | cons a rest ih =>
    unfold fill
    split
    · rename_i hfits
      rw [List.map_cons, List.sum_cons]
      have hrest := ih (budget - cost a)
      omega
    · exact ih budget

end Greedy
