import Mathlib.Data.List.Nodup

/- Things that are used once.

   A thing is free, or in the hands of one holder, or used up. `Custody` says that it is not
   two of these at a time and that nothing was used up twice. A step of a system makes a thing
   free that is new, hands a free one to a holder, or uses up one that is held, and it may
   lose things at any time; there is one rule for each. -/

/-- Free things are neither held nor used, a held thing has one holder and is not used, and
nothing was used twice. -/
structure Custody {ι κ : Type} (free : ι → Prop) (held : κ → ι → Prop) (used : List ι) : Prop where
  free_held : ∀ i k, free i → ¬ held k i
  free_used : ∀ i, free i → i ∉ used
  holder : ∀ i k k', held k i → held k' i → k = k'
  held_used : ∀ i k, held k i → i ∉ used
  once : used.Nodup

namespace Custody

variable {ι κ : Type} {free free' : ι → Prop} {held held' : κ → ι → Prop} {used : List ι} {i : ι} {k : κ}

theorem start (hnone : ∀ k i, ¬ held k i) : Custody free held ([] : List ι) where
  free_held i k _ := hnone k i
  free_used _ _ h := by cases h
  holder i k _ h := absurd h (hnone k i)
  held_used i k h := absurd h (hnone k i)
  once := List.nodup_nil

theorem mono (h : Custody free held used) (hfree : ∀ i, free' i → free i)
    (hheld : ∀ k i, held' k i → held k i) : Custody free' held' used where
  free_held i k hi hk := h.free_held i k (hfree i hi) (hheld k i hk)
  free_used i hi := h.free_used i (hfree i hi)
  holder i k k' hk hk' := h.holder i k k' (hheld k i hk) (hheld k' i hk')
  held_used i k hk := h.held_used i k (hheld k i hk)
  once := h.once

theorem issue (h : Custody free held used) (hheld : ∀ k, ¬ held k i) (hused : i ∉ used)
    (hfree : ∀ j, free' j → free j ∨ j = i) : Custody free' held used where
  free_held j k hj hk := by
    obtain hold | rfl := hfree j hj
    · exact h.free_held j k hold hk
    · exact hheld k hk
  free_used j hj := by
    obtain hold | rfl := hfree j hj
    · exact h.free_used j hold
    · exact hused
  holder := h.holder
  held_used := h.held_used
  once := h.once

theorem take (h : Custody free held used) (hi : free i) (hfree : ∀ j, free' j → free j ∧ j ≠ i)
    (hheld : ∀ k' j, held' k' j → held k' j ∨ k' = k ∧ j = i) : Custody free' held' used where
  free_held j k' hj hk := by
    obtain ⟨hold, hne⟩ := hfree j hj
    obtain hheld' | ⟨-, heq⟩ := hheld k' j hk
    · exact h.free_held j k' hold hheld'
    · exact hne heq
  free_used j hj := h.free_used j (hfree j hj).1
  holder j a b ha hb := by
    obtain ha' | ⟨rfl, rfl⟩ := hheld a j ha
    · obtain hb' | ⟨-, rfl⟩ := hheld b j hb
      · exact h.holder j a b ha' hb'
      · exact absurd ha' (h.free_held j a hi)
    · obtain hb' | ⟨rfl, -⟩ := hheld b j hb
      · exact absurd hb' (h.free_held j b hi)
      · rfl
  held_used j a ha := by
    obtain ha' | ⟨-, rfl⟩ := hheld a j ha
    · exact h.held_used j a ha'
    · exact h.free_used j hi
  once := h.once

theorem use (h : Custody free held used) (hi : held k i) (hheld : ∀ k' j, held' k' j → held k' j ∧ k' ≠ k) :
    Custody free held' (i :: used) where
  free_held j k' hj hk := h.free_held j k' hj (hheld k' j hk).1
  free_used j hj hmem := by
    obtain rfl | hold := List.mem_cons.mp hmem
    · exact h.free_held j k hj hi
    · exact h.free_used j hj hold
  holder j a b ha hb := h.holder j a b (hheld a j ha).1 (hheld b j hb).1
  held_used j a ha hmem := by
    obtain ⟨hold, hne⟩ := hheld a j ha
    obtain rfl | hused := List.mem_cons.mp hmem
    · exact hne (h.holder j a k hold hi)
    · exact h.held_used j a hold hused
  once := List.nodup_cons.mpr ⟨h.held_used i k hi, h.once⟩

end Custody
