import Mathlib.Algebra.BigOperators.Group.List.Basic
import Mathlib.Algebra.GroupWithZero.Nat

/- Lists joined by a separator.

   Lists without the separator are determined by their join and their number. A list with the
   separator in it can be cut there and given to its neighbour, which leaves the join as it is: so
   the condition is needed for each of at least two lists. -/
namespace Join

variable {α : Type} [BEq α] [LawfulBEq α] {sep : α} {xs ys : List (List α)}

theorem count_join (h : xs ≠ []) :
    ([sep].intercalate xs).count sep + 1 = (xs.map (·.count sep)).sum + xs.length := by
  induction xs with
  | nil => exact absurd rfl h
  | cons x rest ih =>
    cases rest with
    | nil =>
      rw [List.intercalate_singleton, List.map_cons, List.map_nil, List.sum_cons, List.sum_nil]
      rfl
    | cons y rest =>
      have hrest := ih (List.cons_ne_nil y rest)
      rw [List.intercalate_cons_cons, List.count_append, List.count_append, List.count_singleton_self, List.map_cons,
        List.sum_cons, List.length_cons]
      omega

theorem free_iff_count (h : xs ≠ []) :
    (∀ x ∈ xs, sep ∉ x) ↔ ([sep].intercalate xs).count sep + 1 = xs.length := by
  have hcount : ([sep].intercalate xs).count sep + 1 = _ := count_join h
  have hsum : (xs.map (·.count sep)).sum = 0 ↔ ∀ x ∈ xs, sep ∉ x := by
    rw [List.sum_eq_zero_iff_forall_eq_nat]
    constructor
    · intro hzero x hx
      exact List.count_eq_zero.mp (hzero _ (List.mem_map.mpr ⟨x, hx, rfl⟩))
    · intro hfree n hn
      obtain ⟨x, hx, rfl⟩ := List.mem_map.mp hn
      exact List.count_eq_zero.mpr (hfree x hx)
  rw [← hsum]
  omega

theorem join_inj (hfree : ∀ x ∈ xs, sep ∉ x) (hlength : xs.length = ys.length)
    (h : [sep].intercalate xs = [sep].intercalate ys) : xs = ys := by
  cases xs with
  | nil => exact (List.length_eq_zero_iff.mp hlength.symm).symm
  | cons x rest =>
    have hxs := List.cons_ne_nil x rest
    have hys : ys ≠ [] := fun hnil => by
      rw [hnil] at hlength
      cases hlength
    have hother : ∀ y ∈ ys, sep ∉ y := by
      rw [free_iff_count hys, ← h, ← hlength, ← free_iff_count hxs]
      exact hfree
    rw [← List.splitOn_intercalate sep hfree hxs, h, List.splitOn_intercalate sep hother hys]

omit [BEq α] [LawfulBEq α] in
theorem infix_join {x : List α} (hx : x ∈ xs) : x <:+: [sep].intercalate xs := by
  induction xs with
  | nil => cases hx
  | cons y rest ih =>
    cases rest with
    | nil =>
      have hjoin : [sep].intercalate [y] = y := List.intercalate_singleton
      exact ⟨[], [], by rw [List.mem_singleton.mp hx, List.append_nil, List.nil_append, hjoin]⟩
    | cons z rest =>
      rw [List.intercalate_cons_cons]
      obtain rfl | hx := List.mem_cons.mp hx
      · exact (List.prefix_append x _).isInfix.trans (List.prefix_append (x ++ [sep]) _).isInfix
      · exact (ih hx).trans (List.suffix_append _ _).isInfix

omit [BEq α] [LawfulBEq α] in
theorem exists_regrouped (htwo : 2 ≤ xs.length) {x : List α} (hx : x ∈ xs) (hsep : sep ∈ x) :
    ∃ ys, ys.length = xs.length ∧ ys ≠ xs ∧ [sep].intercalate ys = [sep].intercalate xs := by
  induction xs with
  | nil => exact absurd hx List.not_mem_nil
  | cons a rest ih =>
    cases rest with
    | nil =>
      rw [List.length_singleton] at htwo
      omega
    | cons b rest =>
      have hlonger {u v : List α} : u ≠ u ++ sep :: v := fun heq => by
        have hlength := congrArg List.length heq
        rw [List.length_append, List.length_cons] at hlength
        omega
      obtain rfl | hx := List.mem_cons.mp hx
      · -- the rest of the first list goes to the second
        obtain ⟨u, v, rfl⟩ := List.append_of_mem hsep
        refine ⟨u :: (v ++ sep :: b) :: rest, rfl, fun heq => hlonger (List.cons.inj heq).1, ?_⟩
        cases rest with
        | nil => simp
        | cons c rest => simp
      · obtain rfl | hx := List.mem_cons.mp hx
        · -- the start of the second list goes to the first
          obtain ⟨u, v, rfl⟩ := List.append_of_mem hsep
          refine ⟨(a ++ sep :: u) :: v :: rest, rfl, fun heq => hlonger (List.cons.inj heq).1.symm, ?_⟩
          cases rest with
          | nil => simp
          | cons c rest => simp
        · have htwo : 2 ≤ (b :: rest).length := by
            have hpositive := List.length_pos_of_mem hx
            rw [List.length_cons]
            omega
          obtain ⟨ys, hlength, hne, hjoin⟩ := ih htwo (List.mem_cons_of_mem _ hx)
          refine ⟨a :: ys, congrArg (· + 1) hlength, fun heq => hne (List.cons.inj heq).2, ?_⟩
          have hys : ys ≠ [] := fun hnil => by
            rw [hnil] at hlength
            cases hlength
          rw [List.intercalate_cons_of_ne_nil hys, hjoin, ← List.intercalate_cons_of_ne_nil (List.cons_ne_nil b rest)]

omit [BEq α] [LawfulBEq α] in
theorem join_concat (hxs : xs ≠ []) (hys : ys ≠ []) (h : [sep].intercalate xs = [sep].intercalate ys) (z : List α) :
    [sep].intercalate (xs ++ [z]) = [sep].intercalate (ys ++ [z]) := by
  have hconcat {zs : List (List α)} (hzs : zs ≠ []) :
      [sep].intercalate (zs ++ [z]) = [sep].intercalate zs ++ sep :: z := by
    induction zs with
    | nil => exact absurd rfl hzs
    | cons x rest ih =>
      cases rest with
      | nil => simp
      | cons y rest =>
        rw [List.cons_append, List.intercalate_cons_of_ne_nil (List.append_ne_nil_of_right_ne_nil _ (List.cons_ne_nil z [])),
          ih (List.cons_ne_nil y rest), List.intercalate_cons_cons]
        simp only [List.append_assoc]
  rw [hconcat hxs, hconcat hys, h]

theorem splitOn_join (h : xs ≠ []) : ([sep].intercalate xs).splitOn sep = xs.flatMap (·.splitOn sep) := by
  induction xs with
  | nil => exact absurd rfl h
  | cons x rest ih =>
    cases rest with
    | nil =>
      rw [List.intercalate_singleton, List.flatMap_cons, List.flatMap_nil, List.append_nil]
    | cons y rest =>
      rw [List.intercalate_cons_cons, List.append_assoc, List.singleton_append, List.splitOn_append_cons_self,
        ih (List.cons_ne_nil y rest)]
      rfl

theorem join_eq_iff (hxs : xs ≠ []) (hys : ys ≠ []) :
    [sep].intercalate xs = [sep].intercalate ys ↔ xs.flatMap (·.splitOn sep) = ys.flatMap (·.splitOn sep) := by
  rw [← splitOn_join hxs, ← splitOn_join hys]
  constructor
  · exact fun h => congrArg (·.splitOn sep) h
  · intro h
    rw [← @List.intercalate_splitOn _ ([sep].intercalate xs) _ _ sep, h, List.intercalate_splitOn]

end Join
