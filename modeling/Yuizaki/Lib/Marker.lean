import Yuizaki.Lib.Occurs
import Yuizaki.Lib.Regex

/- Markers: a bracket, and a name in any case as a word.

   `re.sub` with a function goes through the matches from the left. Where every match begins
   with a bracket and has no other, and the function changes the bracket only, it is `Occurs.hide`:
   every place where the pattern matches gets another bracket (`subWith_hide`). -/
namespace Regex

/-- The text with every match given to a function; `skip` characters belong to the match before. -/
def subWith (r : Regex) (f : List Char → List Char) : ℕ → Option Char → List Char → List Char
  | _, _, [] => []
  | skip + 1, _, c :: rest => subWith r f skip (some c) rest
  | 0, before, c :: rest =>
    match r.run ⟨before, c :: rest, []⟩ some with
    | some m =>
      f ((c :: rest).take (rest.length + 1 - m.rest.length)) ++ subWith r f (rest.length - m.rest.length) (some c) rest
    | none => c :: subWith r f 0 (some c) rest

/-- The pattern matches at the beginning. -/
def begins (r : Regex) (text : List Char) : Bool := (r.run ⟨none, text, []⟩ some).isSome

section Hidden

variable {r : Regex} {first other : Char}

/-- What a pattern matches: from one character on up to where there is another of it at the latest,
whatever comes before. -/
structure Single (r : Regex) (first : Char) : Prop where
  found : ∀ before text m, r.run ⟨before, text, []⟩ some = some m →
    ∃ found, text = first :: (found ++ m.rest) ∧ first ∉ found
  anywhere : ∀ before text, (r.run ⟨before, text, []⟩ some).isSome = r.begins text

theorem Single.begins_first (h : Single r first) (c : Char) (rest : List Char) (hbegins : r.begins (c :: rest) = true) :
    c = first := by
  obtain ⟨m, hm⟩ := Option.isSome_iff_exists.mp hbegins
  obtain ⟨found, htext, -⟩ := h.found _ _ m hm
  exact (List.cons.inj htext).1

theorem subWith_hide (h : Single r first) (skip : ℕ) (before : Option Char) (text : List Char)
    (hskip : first ∉ text.take skip) :
    subWith r (fun found => other :: found.drop 1) skip before text = (Occurs.hide r.begins other text).drop skip := by
  induction text generalizing skip before with
  | nil =>
    rw [subWith]
    exact List.drop_nil.symm
  | cons c rest ih =>
    cases skip with
    | succ skip =>
      rw [subWith]
      rw [List.take_succ_cons, List.mem_cons, not_or] at hskip
      exact ih skip (some c) hskip.2
    | zero =>
      rw [subWith, List.drop_zero]
      have hplace := h.anywhere before (c :: rest)
      cases hrun : r.run ⟨before, c :: rest, []⟩ some with
      | none =>
        rw [hrun] at hplace
        have hnone : r.begins (c :: rest) = false := hplace.symm
        show c :: subWith r _ 0 (some c) rest = (if r.begins (c :: rest) then other else c) :: Occurs.hide r.begins other rest
        rw [hnone, if_neg Bool.false_ne_true, ih 0 (some c) List.not_mem_nil, List.drop_zero]
      | some m =>
        rw [hrun] at hplace
        have hhere : r.begins (c :: rest) = true := hplace.symm
        obtain ⟨found, htext, hother⟩ := h.found before (c :: rest) m hrun
        obtain ⟨-, hrest⟩ := List.cons.inj htext
        have hlength : rest.length - m.rest.length = found.length := by
          rw [hrest, List.length_append, Nat.add_sub_cancel]
        have hmatch : (c :: rest).take (rest.length + 1 - m.rest.length) = c :: found := by
          rw [show rest.length + 1 - m.rest.length = found.length + 1 by
            rw [hrest, List.length_append]; omega]
          rw [List.take_succ_cons, hrest, List.take_left]
        show (other :: ((c :: rest).take (rest.length + 1 - m.rest.length)).drop 1) ++
            subWith r _ (rest.length - m.rest.length) (some c) rest =
          (if r.begins (c :: rest) then other else c) :: Occurs.hide r.begins other rest
        have hbehind : first ∉ rest.take found.length := by
          rw [hrest, List.take_left]
          exact hother
        rw [hmatch, hlength, hhere, if_pos rfl, ih found.length (some c) hbehind, List.drop_one, List.tail_cons]
        -- the rest of the match has no bracket and stays
        have hkept : Occurs.hide r.begins other rest = found ++ Occurs.hide r.begins other m.rest := by
          rw [hrest]
          exact Occurs.hide_append_first h.begins_first hother
        rw [hkept, List.drop_left, List.cons_append]

end Hidden

/-! ## Names -/

/-- A name of lower-case letters, in any case, at the beginning of a text, and what follows it. -/
def takeName : List Char → List Char → Option (List Char × List Char)
  | [], rest => some ([], rest)
  | _ :: _, [] => none
  | n :: name, c :: rest =>
    if sameLetter n c then (takeName name rest).map fun taken => (c :: taken.1, taken.2) else none

section Names

variable {before : Option Char} {groups : List (ℕ × List Char)} {k : Position → Option Position}
  {name other text found rest : List Char}

theorem run_textIgnoreCase (s : String) (text : List Char) :
    (textIgnoreCase s).run ⟨before, text, groups⟩ k =
      (takeName s.toList text).bind fun taken => k ⟨taken.1.getLast?.or before, taken.2, groups⟩ := by
  unfold textIgnoreCase
  generalize s.toList = name
  induction name generalizing before text with
  | nil => rfl
  | cons n name ih =>
    cases text with
    | nil => rfl
    | cons c rest =>
      show (if sameLetter n c = true then (name.foldr (fun c r => Regex.seq (.char (sameLetter c)) r) .empty).run
        ⟨some c, rest, groups⟩ k else none) = (if sameLetter n c = true then _ else none : Option _).bind _
      split
      · rw [ih]
        cases takeName name rest with
        | none => rfl
        | some taken =>
          obtain ⟨found, after⟩ := taken
          show k ⟨found.getLast?.or (some c), after, groups⟩ = k ⟨(c :: found).getLast?.or before, after, groups⟩
          rw [List.getLast?_cons]
          cases found.getLast? with
          | none => rfl
          | some d => rfl
      · rfl

theorem takeName_eq_some : takeName name text = some (found, rest) ↔
    text = found ++ rest ∧ List.Forall₂ (fun n c => sameLetter n c = true) name found := by
  induction name generalizing text found with
  | nil =>
    constructor
    · intro h
      obtain ⟨rfl, rfl⟩ := Prod.mk.inj (Option.some.inj h)
      exact ⟨rfl, List.Forall₂.nil⟩
    · rintro ⟨rfl, hletters⟩
      cases hletters
      rfl
  | cons n name ih =>
    cases text with
    | nil =>
      refine ⟨fun h => (nomatch h), fun ⟨htext, hletters⟩ => ?_⟩
      cases hletters with
      | cons _ _ => cases htext
    | cons c after =>
      have hstep : takeName (n :: name) (c :: after) = if sameLetter n c then
        (takeName name after).map fun taken => (c :: taken.1, taken.2) else none := rfl
      rw [hstep]
      constructor
      · intro h
        split at h
        · rename_i hsame
          obtain ⟨⟨taken, behind⟩, htaken, heq⟩ := Option.map_eq_some_iff.mp h
          obtain ⟨rfl, rfl⟩ := Prod.mk.inj heq
          obtain ⟨rfl, hletters⟩ := ih.mp htaken
          exact ⟨rfl, List.Forall₂.cons hsame hletters⟩
        · cases h
      · rintro ⟨htext, hletters⟩
        cases hletters with
        | cons hsame hletters =>
          obtain ⟨rfl, hafter⟩ := List.cons.inj htext
          rw [if_pos hsame, ih.mpr ⟨hafter, hletters⟩]
          rfl

theorem takeName_append : takeName (name ++ other) text =
    (takeName name text).bind fun taken => (takeName other taken.2).map fun next => (taken.1 ++ next.1, next.2) := by
  induction name generalizing text with
  | nil =>
    show takeName other text = (takeName other text).map fun next => ([] ++ next.1, next.2)
    exact Option.map_id'.symm
  | cons n name ih =>
    cases text with
    | nil => rfl
    | cons c after =>
      show (if sameLetter n c = true then (takeName (name ++ other) after).map _ else none) =
        (if sameLetter n c = true then (takeName name after).map _ else none : Option _).bind _
      split
      · rw [ih]
        cases takeName name after with
        | none => rfl
        | some taken =>
          show ((takeName other taken.2).map _).map _ = (takeName other taken.2).map _
          rw [Option.map_map]
          rfl
      · rfl

theorem takeName_avoids {c : Char} (hname : ∀ n ∈ name, sameLetter n c = false)
    (h : takeName name text = some (found, rest)) : c ∉ found := by
  obtain ⟨-, hletters⟩ := takeName_eq_some.mp h
  clear h
  intro hc
  induction hletters with
  | nil => cases hc
  | cons hsame _ ih =>
    obtain rfl | hc := List.mem_cons.mp hc
    · rw [hname _ List.mem_cons_self] at hsame
      cases hsame
    · exact ih (fun n hn => hname n (List.mem_cons_of_mem _ hn)) hc

theorem takeName_longer (h : takeName name text = some (found, rest)) (more : List Char) :
    takeName name (text ++ more) = some (found, rest ++ more) := by
  obtain ⟨rfl, hletters⟩ := takeName_eq_some.mp h
  exact takeName_eq_some.mpr ⟨List.append_assoc _ _ _, hletters⟩

theorem takeName_shorter {c : Char} {more : List Char} (hname : ∀ n ∈ name, sameLetter n c = false)
    (h : takeName name (text ++ c :: more) = some (found, rest)) :
    ∃ middle, takeName name text = some (found, middle) ∧ rest = middle ++ c :: more := by
  obtain ⟨htext, hletters⟩ := takeName_eq_some.mp h
  have havoids := takeName_avoids hname h
  obtain ⟨middle, hmiddle⟩ | ⟨extra, hextra⟩ := List.append_eq_append_iff.mp htext
  · -- the name would reach beyond the character
    obtain ⟨hfound, hrest⟩ := hmiddle
    cases middle with
    | nil =>
      rw [List.append_nil] at hfound
      rw [List.nil_append] at hrest
      exact ⟨[], takeName_eq_some.mpr ⟨by rw [hfound, List.append_nil], hletters⟩, hrest.symm⟩
    | cons d middle =>
      obtain ⟨rfl, -⟩ := List.cons.inj hrest
      exact absurd (by rw [hfound]; exact List.mem_append_right _ List.mem_cons_self) havoids
  · obtain ⟨hfound, hrest⟩ := hextra
    exact ⟨extra, takeName_eq_some.mpr ⟨hfound, hletters⟩, hrest⟩

theorem takeName_hidden {p : List Char → Bool} {x : Char} (hname : ∀ n ∈ name, sameLetter n x = false)
    (h : takeName name (Occurs.hide p x text) = some (found, rest)) :
    ∃ after, takeName name text = some (found, after) ∧ rest = Occurs.hide p x after := by
  induction name generalizing text found with
  | nil =>
    obtain ⟨rfl, rfl⟩ := Prod.mk.inj (Option.some.inj h)
    exact ⟨text, rfl, rfl⟩
  | cons n name ih =>
    cases text with
    | nil => cases h
    | cons c after =>
      have hstep : (if sameLetter n (if p (c :: after) then x else c) then
          (takeName name (Occurs.hide p x after)).map fun taken => ((if p (c :: after) then x else c) :: taken.1, taken.2)
            else none) = some (found, rest) := h
      have hkept : p (c :: after) = false := by
        refine Bool.eq_false_iff.mpr fun hp => ?_
        rw [if_pos hp, hname n List.mem_cons_self] at hstep
        cases hstep
      rw [hkept, if_neg Bool.false_ne_true] at hstep
      split at hstep
      · rename_i hsame
        obtain ⟨⟨taken, behind⟩, htaken, heq⟩ := Option.map_eq_some_iff.mp hstep
        obtain ⟨rfl, rfl⟩ := Prod.mk.inj heq
        obtain ⟨after', hafter, hrest⟩ := ih (fun m hm => hname m (List.mem_cons_of_mem n hm)) htaken
        refine ⟨after', ?_, hrest⟩
        show (if sameLetter n c then (takeName name after).map fun taken => (c :: taken.1, taken.2) else none) = _
        rw [if_pos hsame, hafter]
        rfl
      · cases hstep

end Names

end Regex
