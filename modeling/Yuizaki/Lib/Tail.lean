import Mathlib.Data.List.SplitBy
import Mathlib.Data.List.DropRight

/- The end of a stream.

   A reader that keeps the last so many elements of what it has read, and of these the last so
   many runs, need not keep more: what comes after is cut from the end it has as from the whole
   (`retained_append`). The runs are those of `List.splitBy`. -/
namespace Tail

variable {α : Type} {r : α → α → Bool} {l u v x : List α} {n k : ℕ}

/-! ## Elements -/

theorem rtake_of_le (h : l.length ≤ n) : l.rtake n = l := by
  unfold List.rtake
  rw [Nat.sub_eq_zero_of_le h, List.drop_zero]

theorem length_rtake (n : ℕ) (l : List α) : (l.rtake n).length = min n l.length := by
  unfold List.rtake
  rw [List.length_drop]
  omega

theorem rtake_suffix (n : ℕ) (l : List α) : l.rtake n <:+ l := List.drop_suffix _ _

theorem rtake_append_left (h : n ≤ x.length) : (l ++ x).rtake n = x.rtake n := by
  unfold List.rtake
  rw [List.length_append, List.drop_append, List.drop_eq_nil_of_le (by omega), List.nil_append]
  congr 1
  omega

theorem rtake_append_right (h : x.length ≤ n) : (l ++ x).rtake n = l.rtake (n - x.length) ++ x := by
  unfold List.rtake
  rw [List.length_append, List.drop_append_of_le_length (by omega)]
  congr 2
  omega

theorem rtake_rtake (m n : ℕ) (l : List α) : (l.rtake n).rtake m = l.rtake (min m n) := by
  unfold List.rtake
  rw [List.drop_drop, List.length_drop]
  congr 1
  omega

theorem rtake_append_rtake (n : ℕ) (l x : List α) : (l.rtake n ++ x).rtake n = (l ++ x).rtake n := by
  by_cases hshort : l.length ≤ n
  · rw [rtake_of_le hshort]
  · have hlong : n ≤ (l.rtake n ++ x).length := by
      rw [List.length_append, length_rtake]
      omega
    obtain ⟨front, hfront⟩ := rtake_suffix n l
    calc (l.rtake n ++ x).rtake n = (front ++ (l.rtake n ++ x)).rtake n := (rtake_append_left hlong).symm
      _ = (l ++ x).rtake n := by rw [← List.append_assoc, hfront]

/-! ## Runs -/

def lastRuns (r : α → α → Bool) (k : ℕ) (l : List α) : List α := ((l.splitBy r).rtake k).flatten

theorem splitBy_boundary {L₁ L₂ : List (List α)} (h : l.splitBy r = L₁ ++ L₂) :
    ∀ a ∈ L₁.flatten.getLast?, ∀ b ∈ L₂.flatten.head?, r a b = false := by
  intro a ha b hb
  have hchain := List.isChain_getLast_head_splitBy r l
  have hnil := List.nil_notMem_splitBy r l
  rw [h] at hchain hnil
  obtain rfl | ⟨L₁, last, rfl⟩ := L₁.eq_nil_or_concat
  · cases ha
  · cases L₂ with
    | nil => cases hb
    | cons first L₂ =>
      have hmeet := (List.isChain_append.mp hchain).2.2 last (by simp) first (by simp)
      obtain ⟨hlast, hfirst, hmeet⟩ := hmeet
      have ha' : a = last.getLast hlast := by
        rw [List.concat_eq_append, List.flatten_append, List.flatten_singleton,
          List.getLast?_append_of_ne_nil _ hlast, List.getLast?_eq_some_getLast hlast] at ha
        exact (Option.some.inj ha).symm
      have hb' : b = first.head hfirst := by
        rw [List.flatten_cons, List.head?_append_of_ne_nil _ hfirst, List.head?_eq_some_head hfirst] at hb
        exact (Option.some.inj hb).symm
      rw [ha', hb']
      exact hmeet

theorem splitBy_part {L₁ L₂ : List (List α)} (h : l.splitBy r = L₁ ++ L₂) :
    L₁.flatten.splitBy r = L₁ ∧ L₂.flatten.splitBy r = L₂ := by
  have hwhole : l = L₁.flatten ++ L₂.flatten := by
    rw [← List.flatten_append, ← h, List.flatten_splitBy]
  have hchain := List.isChain_getLast_head_splitBy r l
  have hnil := List.nil_notMem_splitBy r l
  have hruns := fun m (hm : m ∈ l.splitBy r) => List.isChain_of_mem_splitBy hm
  rw [h] at hchain hnil hruns
  have hparts := List.isChain_append.mp hchain
  constructor
  · exact List.splitBy_flatten (fun hmem => hnil (List.mem_append_left _ hmem))
      (fun m hm => hruns m (List.mem_append_left _ hm)) hparts.1
  · exact List.splitBy_flatten (fun hmem => hnil (List.mem_append_right _ hmem))
      (fun m hm => hruns m (List.mem_append_right _ hm)) hparts.2.1

theorem length_splitBy_le (l x : List α) : (l.splitBy r).length ≤ ((l ++ x).splitBy r).length := by
  obtain hnone | ⟨runs, last, hruns⟩ := (l.splitBy r).eq_nil_or_concat
  · rw [hnone]
    exact Nat.zero_le _
  · rw [List.concat_eq_append] at hruns
    have hlast : last ≠ [] := List.ne_nil_of_mem_splitBy (l := l) (r := r) (by rw [hruns]; simp)
    have hwhole : l = runs.flatten ++ last := by
      rw [← List.flatten_splitBy r l, hruns, List.flatten_append, List.flatten_singleton]
    have hcut : (runs.flatten ++ (last ++ x)).splitBy r = runs.flatten.splitBy r ++ (last ++ x).splitBy r := by
      refine List.splitBy_append fun a ha b hb => ?_
      refine splitBy_boundary hruns a ha b ?_
      rw [List.flatten_singleton]
      rwa [List.head?_append_of_ne_nil _ hlast] at hb
    have hmore : 0 < ((last ++ x).splitBy r).length :=
      List.length_pos_of_ne_nil (List.splitBy_ne_nil.mpr (List.append_ne_nil_of_left_ne_nil hlast x))
    have hlength : ((l ++ x).splitBy r).length = runs.length + ((last ++ x).splitBy r).length := by
      conv_lhs => rw [hwhole]
      rw [List.append_assoc, hcut, List.length_append, (splitBy_part hruns).1]
    rw [hlength, hruns, List.length_append, List.length_singleton]
    omega

theorem lastRuns_cut (r : α → α → Bool) (k : ℕ) (l : List α) :
    ∃ front, l = front ++ lastRuns r k l ∧
      (front = [] ∨ (∀ a ∈ front.getLast?, ∀ b ∈ (lastRuns r k l).head?, r a b = false) ∧
        ((lastRuns r k l).splitBy r).length = k) := by
  have hruns : l.splitBy r = (l.splitBy r).rdrop k ++ (l.splitBy r).rtake k := (List.take_append_drop _ _).symm
  refine ⟨((l.splitBy r).rdrop k).flatten, ?_, ?_⟩
  · calc l = (l.splitBy r).flatten := (List.flatten_splitBy r l).symm
      _ = ((l.splitBy r).rdrop k ++ (l.splitBy r).rtake k).flatten := by rw [← hruns]
      _ = _ := List.flatten_append
  · by_cases hfew : (l.splitBy r).length ≤ k
    · refine Or.inl ?_
      unfold List.rdrop
      rw [Nat.sub_eq_zero_of_le hfew, List.take_zero, List.flatten_nil]
    · refine Or.inr ⟨splitBy_boundary hruns, ?_⟩
      unfold lastRuns
      rw [(splitBy_part hruns).2, length_rtake]
      omega

theorem lastRuns_zero : lastRuns r 0 l = [] := by
  unfold lastRuns
  rw [List.rtake_zero, List.flatten_nil]

theorem lastRuns_append (hcut : ∀ a ∈ u.getLast?, ∀ b ∈ x.head?, r a b = false) (henough : k ≤ (x.splitBy r).length) :
    lastRuns r k (u ++ x) = lastRuns r k x := by
  unfold lastRuns
  rw [List.splitBy_append hcut, rtake_append_left henough]

theorem retained_append (r : α → α → Bool) (n k : ℕ) (l x : List α) :
    lastRuns r k ((lastRuns r k (l.rtake n) ++ x).rtake n) = lastRuns r k ((l ++ x).rtake n) := by
  rw [← rtake_append_rtake n l x]
  generalize l.rtake n = w
  obtain ⟨front, hw, hcut⟩ := lastRuns_cut r k w
  generalize lastRuns r k w = kept at hw hcut
  rw [hw]
  by_cases hlong : n ≤ (kept ++ x).length
  · rw [List.append_assoc, rtake_append_left hlong]
  · have hshort : (kept ++ x).length ≤ n := by omega
    rw [List.append_assoc, rtake_append_right hshort, rtake_of_le hshort]
    obtain rfl | ⟨hmeet, hcount⟩ := hcut
    · rw [List.rtake_nil, List.nil_append]
    · cases k with
      | zero => rw [lastRuns_zero, lastRuns_zero]
      | succ k =>
        have hkept : kept ≠ [] := by
          rintro rfl
          cases hcount
        refine (lastRuns_append (fun a ha b hb => ?_) ?_).symm
        · rw [List.head?_append_of_ne_nil _ hkept] at hb
          refine hmeet a ?_ b hb
          obtain ⟨before, hbefore⟩ := rtake_suffix (n - (kept ++ x).length) front
          have hne : front.rtake (n - (kept ++ x).length) ≠ [] := by
            intro hnil
            rw [hnil] at ha
            cases ha
          rw [← hbefore, List.getLast?_append_of_ne_nil _ hne]
          exact ha
        · rw [← hcount]
          exact length_splitBy_le kept x

end Tail
