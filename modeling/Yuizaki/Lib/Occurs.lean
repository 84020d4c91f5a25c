import Mathlib.Data.List.Infix

/- Where something begins in a list.

   A predicate on the rest of a list says whether something begins there. Where it reads no
   further than a boundary, a list without it stays without it in front of another
   (`count_append`), and where every beginning gets another element, nothing begins any more
   (`count_hide`). -/
namespace Occurs

variable {α : Type} {p : List α → Bool} {l m : List α} {a x : α}

/-- How often something begins in a list. -/
def count (p : List α → Bool) : List α → ℕ
  | [] => 0
  | a :: rest => (if p (a :: rest) then 1 else 0) + count p rest

theorem count_cons_neg (h : p (a :: l) = false) : count p (a :: l) = count p l := by
  show (if p (a :: l) then 1 else 0) + count p l = count p l
  rw [h, if_neg Bool.false_ne_true, Nat.zero_add]

theorem count_cons_pos (h : p (a :: l) = true) : count p (a :: l) = 1 + count p l := by
  show (if p (a :: l) then 1 else 0) + count p l = 1 + count p l
  rw [h, if_pos rfl]

theorem count_append (h : ∀ s, s <:+ l → s ≠ [] → p (s ++ m) = false) : count p (l ++ m) = count p m := by
  induction l with
  | nil => rfl
  | cons a l ih =>
    have hfirst : p (a :: (l ++ m)) = false := h (a :: l) (List.suffix_refl _) (List.cons_ne_nil a l)
    rw [List.cons_append, count_cons_neg hfirst]
    exact ih fun s hs hne => h s (hs.trans (List.suffix_cons a l)) hne

theorem count_append_first (hfirst : ∀ b rest, p (b :: rest) = true → b = a) (hl : a ∉ l) :
    count p (l ++ m) = count p m := by
  refine count_append fun s hs hne => ?_
  obtain ⟨b, s, rfl⟩ := List.exists_cons_of_ne_nil hne
  refine Bool.eq_false_iff.mpr fun hp => hl ?_
  rw [← hfirst b _ hp]
  exact hs.subset List.mem_cons_self

theorem count_eq_zero : count p l = 0 ↔ ∀ s, s <:+ l → s ≠ [] → p s = false := by
  induction l with
  | nil => exact ⟨fun _ s hs hne => absurd (List.suffix_nil.mp hs) hne, fun _ => rfl⟩
  | cons a l ih =>
    constructor
    · intro h s hs hne
      have hfirst : p (a :: l) = false := by
        refine Bool.eq_false_iff.mpr fun hp => ?_
        rw [count_cons_pos hp] at h
        omega
      rw [count_cons_neg hfirst] at h
      obtain rfl | hs := List.suffix_cons_iff.mp hs
      · exact hfirst
      · exact ih.mp h s hs hne
    · intro h
      rw [count_cons_neg (h _ (List.suffix_refl _) (List.cons_ne_nil a l))]
      exact ih.mpr fun s hs hne => h s (hs.trans (List.suffix_cons a l)) hne

/-- Every beginning gets another element. -/
def hide (p : List α → Bool) (x : α) : List α → List α
  | [] => []
  | a :: rest => (if p (a :: rest) then x else a) :: hide p x rest

theorem length_hide : (hide p x l).length = l.length := by
  induction l with
  | nil => rfl
  | cons a l ih => exact congrArg Nat.succ ih

theorem count_hide (hnew : ∀ rest, p (x :: rest) = false)
    (hback : ∀ b rest, p (b :: hide p x rest) = true → p (b :: rest) = true) : count p (hide p x l) = 0 := by
  induction l with
  | nil => rfl
  | cons a l ih =>
    show count p ((if p (a :: l) then x else a) :: hide p x l) = 0
    have hnone : p ((if p (a :: l) then x else a) :: hide p x l) = false := by
      split
      · exact hnew _
      · rename_i hp
        exact Bool.eq_false_iff.mpr fun hhidden => hp (hback a l hhidden)
    rw [count_cons_neg hnone, ih]

theorem hide_append_first (hfirst : ∀ b rest, p (b :: rest) = true → b = a) (hl : a ∉ l) :
    hide p x (l ++ m) = l ++ hide p x m := by
  induction l with
  | nil => rfl
  | cons b l ih =>
    have hb : p (b :: (l ++ m)) = false := by
      refine Bool.eq_false_iff.mpr fun hp => hl ?_
      rw [hfirst b _ hp]
      exact List.mem_cons_self
    show (if p (b :: (l ++ m)) then x else b) :: hide p x (l ++ m) = b :: (l ++ hide p x m)
    rw [hb, if_neg Bool.false_ne_true, ih fun hmem => hl (List.mem_cons_of_mem b hmem)]

theorem count_add (h : ∀ s, s <:+ l → s ≠ [] → p (s ++ m) = p s) : count p (l ++ m) = count p l + count p m := by
  induction l with
  | nil => exact (Nat.zero_add _).symm
  | cons a l ih =>
    have hfirst : p (a :: (l ++ m)) = p (a :: l) := h (a :: l) (List.suffix_refl _) (List.cons_ne_nil a l)
    show (if p (a :: (l ++ m)) then 1 else 0) + count p (l ++ m) = (if p (a :: l) then 1 else 0) + count p l + count p m
    rw [hfirst, ih fun s hs hne => h s (hs.trans (List.suffix_cons a l)) hne, Nat.add_assoc]

/-! ## Words -/

section Words

variable [DecidableEq α] {word : List α}

theorem isPrefixOf_append (ha : a ∉ word) (l m : List α) : word.isPrefixOf (l ++ a :: m) = word.isPrefixOf l := by
  induction word generalizing l with
  | nil => rfl
  | cons w word ih =>
    rw [List.mem_cons, not_or] at ha
    cases l with
    | nil =>
      show (w == a && word.isPrefixOf m) = false
      rw [beq_eq_false_iff_ne.mpr (Ne.symm ha.1), Bool.false_and]
    | cons b l =>
      show (w == b && word.isPrefixOf (l ++ a :: m)) = (w == b && word.isPrefixOf l)
      rw [ih ha.2 l]

theorem isPrefixOf_hide (hfirst : ∀ b rest, p (b :: rest) = true → b = a) (ha : a ∉ word) (hx : x ∉ word) (l : List α) :
    word.isPrefixOf (hide p x l) = word.isPrefixOf l := by
  induction word generalizing l with
  | nil => rfl
  | cons w word ih =>
    rw [List.mem_cons, not_or] at ha hx
    cases l with
    | nil => rfl
    | cons b l =>
      show (w == (if p (b :: l) then x else b) && word.isPrefixOf (hide p x l)) = (w == b && word.isPrefixOf l)
      rw [ih ha.2 hx.2 l]
      by_cases hb : p (b :: l) = true
      · rw [if_pos hb, hfirst b l hb, beq_eq_false_iff_ne.mpr (Ne.symm hx.1), beq_eq_false_iff_ne.mpr (Ne.symm ha.1)]
      · rw [if_neg hb]

theorem count_word_hide (hfirst : ∀ b rest, p (b :: rest) = true → b = a) (ha : a ∉ word) (hx : x ∉ word) (l : List α) :
    count word.isPrefixOf (hide p x l) = count word.isPrefixOf l := by
  induction l with
  | nil => rfl
  | cons b l ih =>
    have hhere := isPrefixOf_hide hfirst ha hx (b :: l)
    show (if word.isPrefixOf (hide p x (b :: l)) then 1 else 0) + count word.isPrefixOf (hide p x l) =
      (if word.isPrefixOf (b :: l) then 1 else 0) + count word.isPrefixOf l
    rw [hhere, ih]

theorem count_word_append (ha : a ∉ word) (l m : List α) :
    count word.isPrefixOf (l ++ a :: m) = count word.isPrefixOf l + count word.isPrefixOf (a :: m) :=
  count_add fun s _ _ => isPrefixOf_append ha s m

end Words

end Occurs
