import Mathlib.Data.List.Basic
import Mathlib.Data.List.Nodup
import Mathlib.Data.List.Perm.Subperm

/- The first candidate that is not in use.

   A name is taken from a sequence of candidates: the first, from a given one on, that is
   not among those in use. Candidates that differ from each other cannot all be in use, so
   the search ends after one more step than there are names (`search_ends`). -/
namespace Fresh

variable {α : Type} [DecidableEq α]

/-- The first candidate from the `k`-th on that is not in use; none where the fuel runs out. -/
def search (candidate : ℕ → α) (used : List α) : ℕ → ℕ → Option α
  | 0, _ => none
  | fuel + 1, k => if candidate k ∈ used then search candidate used fuel (k + 1) else some (candidate k)

section Rules

variable {candidate : ℕ → α} {used : List α} {fuel k n : ℕ} {a : α}

theorem search_some (h : search candidate used fuel k = some a) :
    a ∉ used ∧ ∃ i, a = candidate (k + i) ∧ ∀ j < i, candidate (k + j) ∈ used := by
  induction fuel generalizing k with
  | zero => cases h
  | succ fuel ih =>
    rw [search] at h
    by_cases hused : candidate k ∈ used
    · rw [if_pos hused] at h
      obtain ⟨hfree, i, heq, hbefore⟩ := ih h
      refine ⟨hfree, i + 1, ?_, fun j hj => ?_⟩
      · rw [heq, Nat.add_assoc, Nat.add_comm 1 i]
      · cases j with
        | zero => exact hused
        | succ j =>
          have hlater := hbefore j (by omega)
          rw [Nat.add_assoc, Nat.add_comm 1 j] at hlater
          exact hlater
    · rw [if_neg hused] at h
      obtain rfl := Option.some.inj h
      exact ⟨hused, 0, rfl, fun j hj => absurd hj (Nat.not_lt_zero j)⟩

theorem search_none (h : search candidate used fuel k = none) : ∀ i < fuel, candidate (k + i) ∈ used := by
  induction fuel generalizing k with
  | zero => exact fun i hi => absurd hi (Nat.not_lt_zero i)
  | succ fuel ih =>
    rw [search] at h
    by_cases hused : candidate k ∈ used
    · rw [if_pos hused] at h
      intro i hi
      cases i with
      | zero => exact hused
      | succ i =>
        have hlater := ih h i (by omega)
        rw [Nat.add_assoc, Nat.add_comm 1 i] at hlater
        exact hlater
    · rw [if_neg hused] at h
      cases h

theorem exists_free (hinj : ∀ i j, candidate (k + i) = candidate (k + j) → i = j) :
    ∃ i, i ≤ used.length ∧ candidate (k + i) ∉ used := by
  by_contra hall
  have hused : ∀ i, i ≤ used.length → candidate (k + i) ∈ used := fun i hi => by
    by_contra hfree
    exact hall ⟨i, hi, hfree⟩
  have hnodup : ((List.range (used.length + 1)).map (fun i => candidate (k + i))).Nodup :=
    List.Nodup.map (fun i j heq => hinj i j heq) List.nodup_range
  have hsubset : (List.range (used.length + 1)).map (fun i => candidate (k + i)) ⊆ used := by
    intro a ha
    obtain ⟨i, hi, rfl⟩ := List.mem_map.mp ha
    exact hused i (Nat.lt_succ_iff.mp (List.mem_range.mp hi))
  have hlength := (List.subperm_of_subset hnodup hsubset).length_le
  rw [List.length_map, List.length_range] at hlength
  omega

theorem search_ends (hinj : ∀ i j, candidate (k + n + i) = candidate (k + n + j) → i = j)
    (hfuel : n + used.length < fuel) :
    ∃ i, i ≤ n + used.length ∧ candidate (k + i) ∉ used ∧ search candidate used fuel k = some (candidate (k + i)) := by
  obtain ⟨free, hbound, hfree⟩ : ∃ i, i ≤ used.length ∧ candidate (k + n + i) ∉ used := exists_free hinj
  rw [Nat.add_assoc] at hfree
  cases hsearch : search candidate used fuel k with
  | none => exact absurd (search_none hsearch (n + free) (by omega)) hfree
  | some a =>
    obtain ⟨hnew, i, rfl, hbefore⟩ := search_some hsearch
    refine ⟨i, ?_, hnew, rfl⟩
    by_contra hlate
    exact hfree (hbefore (n + free) (by omega))

end Rules

end Fresh
