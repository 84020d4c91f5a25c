import Yuizaki.Lib.PyStr
import Mathlib.Data.List.Infix

/- `str.replace` on texts that are made of words.

   `replace` looks for the old text from the left and goes on behind it. Where the text is
   made of words of which none hides the old one, or a part of it with what follows, the
   words that are the old one are replaced, and the others stay (`replaceChars_flatten`). -/
namespace PyStr

/-- `replace` on the characters, of an old text that is not empty; `skip` characters belong to the
occurrence before. -/
def replaceChars (old new : List Char) : ℕ → List Char → List Char
  | _, [] => []
  | skip + 1, _ :: rest => replaceChars old new skip rest
  | 0, c :: rest =>
    if old.isPrefixOf (c :: rest) then new ++ replaceChars old new (old.length - 1) rest
    else c :: replaceChars old new 0 rest

/-- `text.replace(old, new)`, of an old text that is not empty. -/
def replace (old new text : String) : String :=
  String.ofList (replaceChars old.toList new.toList 0 text.toList)

section Words

variable {old new : List Char}

theorem replaceChars_skip (skipped rest : List Char) :
    replaceChars old new skipped.length (skipped ++ rest) = replaceChars old new 0 rest := by
  induction skipped with
  | nil => rfl
  | cons c skipped ih =>
    rw [List.length_cons, List.cons_append, replaceChars]
    exact ih

theorem replaceChars_old (hold : old ≠ []) (rest : List Char) :
    replaceChars old new 0 (old ++ rest) = new ++ replaceChars old new 0 rest := by
  obtain ⟨c, tail, rfl⟩ := List.exists_cons_of_ne_nil hold
  have hprefix : (c :: tail).isPrefixOf (c :: (tail ++ rest)) = true := List.isPrefixOf_iff_prefix.mpr ⟨rest, rfl⟩
  rw [List.cons_append, replaceChars, if_pos hprefix, List.length_cons, Nat.add_sub_cancel, replaceChars_skip]

/-- An occurrence of the old text begins in the word, if it is followed by the right text. -/
def Hides (old word : List Char) : Prop :=
  ∃ after ∈ word.tails, after ≠ [] ∧ (old <+: after ∨ after <+: old)

instance (old word : List Char) : Decidable (Hides old word) :=
  inferInstanceAs (Decidable (∃ after ∈ word.tails, _))

theorem replaceChars_word (word rest : List Char) (hhides : ¬ Hides old word) :
    replaceChars old new 0 (word ++ rest) = word ++ replaceChars old new 0 rest := by
  induction word with
  | nil => rfl
  | cons c word ih =>
    have hfirst : ¬ old.isPrefixOf (c :: word ++ rest) = true := fun hprefix =>
      hhides ⟨c :: word, (List.mem_tails _ _).mpr (List.suffix_refl _), List.cons_ne_nil c word,
        List.prefix_or_prefix_of_prefix (List.isPrefixOf_iff_prefix.mp hprefix) (List.prefix_append _ rest)⟩
    have hrest : ¬ Hides old word := by
      intro ⟨after, hafter, hsame⟩
      have hsuffix := ((List.mem_tails _ _).mp hafter).trans (List.suffix_cons c word)
      exact hhides ⟨after, (List.mem_tails _ _).mpr hsuffix, hsame⟩
    rw [List.cons_append, replaceChars, if_neg (by rwa [← List.cons_append]), ih hrest, List.cons_append]

theorem replaceChars_flatten (hold : old ≠ []) (words : List (List Char))
    (hwords : ∀ word ∈ words, word = old ∨ ¬ Hides old word) :
    replaceChars old new 0 words.flatten =
      (words.map (fun word => if word = old then new else word)).flatten := by
  induction words with
  | nil => rfl
  | cons word words ih =>
    have hrest := ih fun w hw => hwords w (List.mem_cons_of_mem word hw)
    rw [List.flatten_cons, List.map_cons, List.flatten_cons]
    by_cases hword : word = old
    · rw [if_pos hword, hword, replaceChars_old hold, hrest]
    · have hhides := (hwords word List.mem_cons_self).resolve_left hword
      rw [if_neg hword, replaceChars_word word _ hhides, hrest]

theorem not_hides {c : Char} {tail word : List Char} (hword : c ∉ word) : ¬ Hides (c :: tail) word := by
  intro ⟨after, hafter, hne, hsame⟩
  obtain ⟨d, after, rfl⟩ := List.exists_cons_of_ne_nil hne
  have hhead : c = d := by
    obtain hsame | hsame := hsame
    · exact (List.cons_prefix_cons.mp hsame).1
    · exact (List.cons_prefix_cons.mp hsame).1.symm
  exact hword (hhead ▸ ((List.mem_tails _ _).mp hafter).subset List.mem_cons_self)

end Words

end PyStr
