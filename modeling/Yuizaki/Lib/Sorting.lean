import Mathlib.Data.List.Perm.Basic
import Mathlib.Data.List.Sort

/- Lists up to their order.

   A stable sort from the greatest key down begins with the first of the elements that have
   it (`head_ranked_iff`), and the others come after it (`mem_tail_ranked_iff`). -/
namespace Sorting

variable {α β κ : Type}

/-! ## The first of the greatest -/

section Foremost

variable [LinearOrder κ] {key : α → κ}

/-- A list from its greatest keys down, elements of one key in the order they had. -/
def ranked (key : α → κ) (xs : List α) : List α := xs.insertionSort (fun a b => key b ≤ key a)

/-- An element that outranks those before it and is not outranked by those after it. -/
def Foremost (key : α → κ) (xs : List α) (d : α) : Prop :=
  ∃ before after, xs = before ++ d :: after ∧ (∀ a ∈ before, key a < key d) ∧ ∀ a ∈ after, key a ≤ key d

theorem perm_ranked (key : α → κ) (xs : List α) : (ranked key xs).Perm xs := List.perm_insertionSort _ xs

theorem ranked_map {f : β → α} (xs : List β) : ranked key (xs.map f) = (ranked (fun b => key (f b)) xs).map f :=
  (List.map_insertionSort (fun a b : β => key (f b) ≤ key (f a)) (fun a b : α => key b ≤ key a) f xs
    fun _ _ _ _ => Iff.rfl).symm

theorem foremost_cons {x d : α} {xs : List α} :
    Foremost key (x :: xs) d ↔ (x = d ∧ ∀ a ∈ xs, key a ≤ key d) ∨ (key x < key d ∧ Foremost key xs d) := by
  constructor
  · rintro ⟨before, after, heq, hbefore, hafter⟩
    cases before with
    | nil =>
      obtain ⟨hx, hxs⟩ := List.cons.inj heq
      rw [← hxs] at hafter
      exact Or.inl ⟨hx, hafter⟩
    | cons b before =>
      obtain ⟨hx, hxs⟩ := List.cons.inj heq
      refine Or.inr ⟨hx ▸ hbefore b List.mem_cons_self, before, after, hxs, ?_, hafter⟩
      exact fun a ha => hbefore a (List.mem_cons_of_mem _ ha)
  · rintro (⟨rfl, hall⟩ | ⟨hlt, before, after, rfl, hbefore, hafter⟩)
    · exact ⟨[], xs, rfl, fun a ha => absurd ha List.not_mem_nil, hall⟩
    · exact ⟨x :: before, after, rfl, List.forall_mem_cons.mpr ⟨hlt, hbefore⟩, hafter⟩

theorem foremost_singleton (d : α) : Foremost key [d] d :=
  ⟨[], [], rfl, fun _ ha => absurd ha List.not_mem_nil, fun _ ha => absurd ha List.not_mem_nil⟩

theorem Foremost.le {d : α} {xs : List α} (h : Foremost key xs d) : ∀ a ∈ xs, key a ≤ key d := by
  obtain ⟨before, after, rfl, hbefore, hafter⟩ := h
  intro a ha
  rw [List.mem_append, List.mem_cons] at ha
  obtain ha | rfl | ha := ha
  · exact (hbefore a ha).le
  · exact le_rfl
  · exact hafter a ha

theorem head_ranked_iff {d : α} {xs : List α} : (ranked key xs).head? = some d ↔ Foremost key xs d := by
  induction xs generalizing d with
  | nil =>
    refine ⟨fun h => (nomatch h), fun ⟨before, after, heq, _⟩ => ?_⟩
    exact absurd heq.symm (List.append_ne_nil_of_right_ne_nil _ (List.cons_ne_nil _ _))
  | cons x xs ih =>
    have hcons : ranked key (x :: xs) = List.orderedInsert (fun a b => key b ≤ key a) x (ranked key xs) := rfl
    rw [foremost_cons, hcons]
    cases hxs : ranked key xs with
    | nil =>
      have hnil : xs = [] := (List.Perm.nil_eq (hxs ▸ perm_ranked key xs)).symm
      rw [hnil, List.orderedInsert]
      constructor
      · intro h
        exact Or.inl ⟨Option.some.inj h, fun a ha => absurd ha List.not_mem_nil⟩
      · rintro (⟨rfl, -⟩ | ⟨-, before, after, heq, -⟩)
        · rfl
        · exact absurd heq.symm (List.append_ne_nil_of_right_ne_nil _ (List.cons_ne_nil _ _))
    | cons b rest =>
      rw [hxs] at ih
      have hb : Foremost key xs b := ih.mp rfl
      rw [List.orderedInsert]
      by_cases hle : key b ≤ key x
      · rw [if_pos hle]
        constructor
        · intro h
          obtain rfl := Option.some.inj h
          exact Or.inl ⟨rfl, fun a ha => (hb.le a ha).trans hle⟩
        · rintro (⟨rfl, -⟩ | ⟨hlt, hd⟩)
          · rfl
          · obtain rfl := Option.some.inj (ih.mpr hd)
            exact absurd hlt (not_lt.mpr hle)
      · rw [if_neg hle]
        constructor
        · intro h
          obtain rfl := Option.some.inj h
          exact Or.inr ⟨not_le.mp hle, hb⟩
        · rintro (⟨rfl, hall⟩ | ⟨-, hd⟩)
          · have hmem : b ∈ xs := (perm_ranked key xs).mem_iff.mp (hxs ▸ List.mem_cons_self)
            exact absurd (hall b hmem) hle
          · exact congrArg some (Option.some.inj (ih.mpr hd))

theorem mem_tail_ranked_iff {d : α} {xs : List α} (hnodup : xs.Nodup) :
    d ∈ (ranked key xs).tail ↔ d ∈ xs ∧ ¬ Foremost key xs d := by
  rw [← head_ranked_iff, ← (perm_ranked key xs).mem_iff]
  have hsorted : (ranked key xs).Nodup := (perm_ranked key xs).nodup_iff.mpr hnodup
  cases hxs : ranked key xs with
  | nil => exact ⟨fun h => absurd h List.not_mem_nil, fun h => absurd h.1 List.not_mem_nil⟩
  | cons b rest =>
    rw [hxs, List.nodup_cons] at hsorted
    rw [List.tail_cons, List.head?_cons, List.mem_cons]
    constructor
    · intro hd
      refine ⟨Or.inr hd, fun hb => ?_⟩
      obtain rfl := Option.some.inj hb
      exact hsorted.1 hd
    · rintro ⟨rfl | hd, hne⟩
      · exact absurd rfl hne
      · exact hd

end Foremost

end Sorting
