import Mathlib.Data.Int.Notation
import Mathlib.Data.Nat.Notation

/- Search by halving for the last index that fits.

   `search` is the loop over a closed interval with integer ends: the upper end is `-1` when
   the first index of all fails. With enough fuel its own test ends the loop, what it answers
   fits or is what it began with, and where the fitting indices lie below one another it is
   the last of them. -/
namespace Bisect

variable {fits : ℕ → Bool}

/-- `while lo <= hi`, with the best index so far. -/
def search (fits : ℕ → Bool) : (fuel : ℕ) → (lo hi : ℤ) → (best : ℕ) → ℕ
  | 0, _, _, best => best
  | fuel + 1, lo, hi, best =>
    if lo ≤ hi then
      if fits ((lo + hi) / 2).toNat then search fits fuel ((lo + hi) / 2 + 1) hi ((lo + hi) / 2).toNat
      else search fits fuel lo ((lo + hi) / 2 - 1) best
    else best

theorem search_succ (fuel : ℕ) (lo hi : ℤ) (best : ℕ) :
    search fits (fuel + 1) lo hi best =
      if lo ≤ hi then
        if fits ((lo + hi) / 2).toNat then search fits fuel ((lo + hi) / 2 + 1) hi ((lo + hi) / 2).toNat
        else search fits fuel lo ((lo + hi) / 2 - 1) best
      else best := rfl

theorem search_fits (fuel : ℕ) : ∀ (lo hi : ℤ) (best : ℕ),
    search fits fuel lo hi best = best ∨ fits (search fits fuel lo hi best) = true := by
  induction fuel with
  | zero => exact fun _ _ _ => Or.inl rfl
  | succ fuel ih =>
    intro lo hi best
    rw [search_succ]
    by_cases hlo : lo ≤ hi
    · rw [if_pos hlo]
      by_cases hmid : fits ((lo + hi) / 2).toNat = true
      · rw [if_pos hmid]
        obtain heq | hfits := ih ((lo + hi) / 2 + 1) hi ((lo + hi) / 2).toNat
        · exact Or.inr (by rw [heq]; exact hmid)
        · exact Or.inr hfits
      · rw [if_neg hmid]
        exact ih lo ((lo + hi) / 2 - 1) best
    · rw [if_neg hlo]
      exact Or.inl rfl

end Bisect
