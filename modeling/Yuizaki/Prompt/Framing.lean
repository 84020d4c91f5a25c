import Yuizaki.Prompt.Blocks

/- No text in a block looks like a marker, or closes the tag around it. -/
namespace Prompt

open Regex Occurs

variable {W : World}

/-! ## What a marker is -/

theorem none_of_any {p : Char → Bool} {s : Text} (h : s.any p = false) : ∀ c ∈ s, p c = false :=
  fun c hc => Bool.eq_false_iff.mpr (List.any_eq_false.mp h c hc)

def wordEnds (W : World) (rest : Text) : Bool := !(rest.head?.any W.word)

/-- A bracket, a name and the end of a word. -/
def named (W : World) (name : Text) : Text → Bool
  | [] => false
  | c :: rest => decide (c = '[') && (takeName name rest).any fun taken => wordEnds W taken.2

/-- The letters of a name last with a K. -/
def EndsInK (name : Text) : Prop := ∃ front, name = front ++ ['k']

theorem promptBlock_endsInK : EndsInK "prompt_block".toList := ⟨"prompt_bloc".toList, by decide⟩

theorem endPromptBlock_endsInK : EndsInK "end_prompt_block".toList := ⟨"end_prompt_bloc".toList, by decide⟩

theorem word_of_k {c : Char} (h : sameLetter 'k' c = true) : W.word c = true := by
  have hletter : c = 'k' ∨ c = 'K' ∨ c = Char.ofNat 0x212A := by
    simpa [sameLetter] using h
  unfold World.word
  rw [Bool.or_eq_true]
  obtain rfl | rfl | rfl := hletter
  · exact Or.inl (W.letter 'k' (by decide))
  · exact Or.inl (W.letter 'K' (by decide))
  · exact Or.inl W.kelvin

theorem boundary_iff {name found rest : Text} {before : Option Char} (hname : EndsInK name)
    (h : List.Forall₂ (fun n c => sameLetter n c = true) name found) :
    (found.getLast?.or before).any W.word ≠ rest.head?.any W.word ↔ wordEnds W rest = true := by
  obtain ⟨front, rfl⟩ := hname
  have hreverse := List.forall₂_reverse_iff.mpr h
  rw [List.reverse_append, List.reverse_singleton, List.singleton_append, List.forall₂_cons_left_iff] at hreverse
  obtain ⟨c, others, hk, -, hfound⟩ := hreverse
  have hlast : found.getLast? = some c := by
    rw [← List.head?_reverse, hfound, List.head?_cons]
  rw [hlast]
  show W.word c ≠ rest.head?.any W.word ↔ (!(rest.head?.any W.word)) = true
  rw [word_of_k hk]
  cases rest.head?.any W.word with
  | true => decide
  | false => decide

theorem run_bracket (r : Regex) (before : Option Char) (content : Text) (groups : List (ℕ × List Char))
    (k : Position → Option Position) :
    (Regex.seq (text "[") r).run ⟨before, content, groups⟩ k =
      match content with
      | [] => none
      | c :: rest => if decide (c = '[') = true then r.run ⟨some c, rest, groups⟩ k else none := by
  cases content with
  | nil => rfl
  | cons c rest => rfl

theorem run_name {name : String} (hname : EndsInK name.toList) (before : Option Char) (content : Text)
    (groups : List (ℕ × List Char)) :
    (seqs [textIgnoreCase name, .boundary W.word]).run ⟨before, content, groups⟩ some =
      (takeName name.toList content).bind fun taken =>
        if wordEnds W taken.2 = true then some ⟨taken.1.getLast?.or before, taken.2, groups⟩ else none := by
  show (textIgnoreCase name).run ⟨before, content, groups⟩ (fun next => if next.before.any W.word ≠ next.rest.head?.any W.word
    then some next else none) = _
  rw [run_textIgnoreCase]
  cases htaken : takeName name.toList content with
  | none => rfl
  | some taken =>
    obtain ⟨found, rest⟩ := taken
    obtain ⟨-, hletters⟩ := takeName_eq_some.mp htaken
    show (if (found.getLast?.or before).any W.word ≠ rest.head?.any W.word then _ else _) = _
    simp only [boundary_iff hname hletters]
    rfl

theorem begins_marker {name : String} (hname : EndsInK name.toList) (content : Text) :
    (marker W name).begins content = named W name.toList content := by
  show (Option.isSome ((Regex.seq (text "[") (seqs [textIgnoreCase name, .boundary W.word])).run ⟨none, content, []⟩ some)) = _
  rw [run_bracket]
  cases content with
  | nil => rfl
  | cons c rest =>
    show Option.isSome (if decide (c = '[') = true then _ else none) = (decide (c = '[') && _)
    by_cases hc : c = '['
    · rw [decide_eq_true hc, if_pos rfl, run_name hname, Bool.true_and]
      cases takeName name.toList rest with
      | none => rfl
      | some taken =>
        show Option.isSome (if wordEnds W taken.2 = true then _ else none) = wordEnds W taken.2
        cases wordEnds W taken.2 with
        | true => rfl
        | false => rfl
    · rw [decide_eq_false hc]
      rfl

/-! ## The pattern -/

/-- A name as a word, and where the match ends. -/
def wordMatch (W : World) (name : Text) (before : Option Char) (content : Text) (groups : List (ℕ × List Char)) :
    Option Position :=
  (takeName name content).bind fun taken =>
    if wordEnds W taken.2 = true then some ⟨taken.1.getLast?.or before, taken.2, groups⟩ else none

theorem wordMatch_isSome (name : Text) (before : Option Char) (rest : Text) (groups : List (ℕ × List Char)) :
    (wordMatch W name before rest groups).isSome = named W name ('[' :: rest) := by
  show ((takeName name rest).bind _).isSome = (takeName name rest).any fun taken => wordEnds W taken.2
  cases takeName name rest with
  | none => rfl
  | some taken =>
    show (if wordEnds W taken.2 = true then some _ else none : Option Position).isSome = wordEnds W taken.2
    cases wordEnds W taken.2 with
    | true => rfl
    | false => rfl

theorem wordMatch_found {name : Text} {before : Option Char} {rest : Text} {groups : List (ℕ × List Char)} {m : Position}
    (h : wordMatch W name before rest groups = some m) : ∃ found, takeName name rest = some (found, m.rest) := by
  obtain ⟨⟨found, behind⟩, htaken, hm⟩ := Option.bind_eq_some_iff.mp h
  split at hm
  · obtain rfl := Option.some.inj hm
    exact ⟨found, htaken⟩
  · cases hm

theorem named_closing (rest : Text) : named W "end_prompt_block".toList ('[' :: rest) =
    (takeName "end_".toList rest).any fun taken => named W "prompt_block".toList ('[' :: taken.2) := by
  show (takeName ("end_".toList ++ "prompt_block".toList) rest).any _ = _
  rw [takeName_append]
  cases takeName "end_".toList rest with
  | none => rfl
  | some taken =>
    show ((takeName "prompt_block".toList taken.2).map _).any _ = (takeName "prompt_block".toList taken.2).any _
    cases takeName "prompt_block".toList taken.2 with
    | none => rfl
    | some next => rfl

theorem run_behind (c : Char) (rest : Text) :
    (seqs [optional (.group 1 (textIgnoreCase "end_")), textIgnoreCase "prompt_block", .boundary W.word]).run
        ⟨some c, rest, []⟩ some =
      ((takeName "end_".toList rest).bind fun taken => wordMatch W "prompt_block".toList (taken.1.getLast?.or (some c)) taken.2
        [(1, rest.take (rest.length - taken.2.length))]).orElse
          fun _ => wordMatch W "prompt_block".toList (some c) rest [] := by
  show ((textIgnoreCase "end_").run ⟨some c, rest, []⟩ fun next =>
    (seqs [textIgnoreCase "prompt_block", .boundary W.word]).run
      ⟨next.before, next.rest, (1, rest.take (rest.length - next.rest.length)) :: next.groups⟩ some).orElse
        (fun _ => (seqs [textIgnoreCase "prompt_block", .boundary W.word]).run ⟨some c, rest, []⟩ some) = _
  rw [run_textIgnoreCase, run_name promptBlock_endsInK]
  congr 1
  congr 1
  funext taken
  rw [run_name promptBlock_endsInK]
  rfl

theorem pattern_isSome (before : Option Char) (content : Text) :
    ((promptMarkerPattern W).run ⟨before, content, []⟩ some).isSome =
      (named W "end_prompt_block".toList content || named W "prompt_block".toList content) := by
  show Option.isSome ((Regex.seq (text "[") (seqs [optional (.group 1 (textIgnoreCase "end_")), textIgnoreCase "prompt_block",
    .boundary W.word])).run ⟨before, content, []⟩ some) = _
  rw [run_bracket]
  cases content with
  | nil => rfl
  | cons c rest =>
    by_cases hc : c = '['
    · subst hc
      dsimp only
      rw [decide_eq_true rfl, if_pos rfl, run_behind, named_closing, ← wordMatch_isSome (W := W) _ (some '[') rest []]
      cases takeName "end_".toList rest with
      | none =>
        show (Option.orElse none _).isSome = (false || _)
        rw [Option.orElse_none, Bool.false_or]
      | some taken =>
        show (Option.orElse (wordMatch W "prompt_block".toList _ taken.2 _) _).isSome =
          (named W "prompt_block".toList ('[' :: taken.2) || _)
        rw [← wordMatch_isSome (W := W) _ (taken.1.getLast?.or (some '[')) taken.2
          [(1, rest.take (rest.length - taken.2.length))]]
        cases wordMatch W "prompt_block".toList (taken.1.getLast?.or (some '[')) taken.2 _ with
        | none => rfl
        | some m => rfl
    · show Option.isSome (if decide (c = '[') = true then _ else none) = ((decide (c = '[') && _) || (decide (c = '[') && _))
      rw [decide_eq_false hc]
      rfl

theorem pattern_single : Single (promptMarkerPattern W) '[' where
  found before content m hm := by
    have hrun : (Regex.seq (text "[") (seqs [optional (.group 1 (textIgnoreCase "end_")), textIgnoreCase "prompt_block",
      .boundary W.word])).run ⟨before, content, []⟩ some = some m := hm
    rw [run_bracket] at hrun
    cases content with
    | nil => cases hrun
    | cons c rest =>
      have hname : ∀ n ∈ "prompt_block".toList, sameLetter n '[' = false := none_of_any (by decide)
      have hend : ∀ n ∈ "end_".toList, sameLetter n '[' = false := none_of_any (by decide)
      dsimp only at hrun
      split at hrun
      · rename_i hc
        obtain rfl := of_decide_eq_true hc
        rw [run_behind, Option.orElse_eq_or] at hrun
        obtain hlonger | ⟨-, hshorter⟩ := Option.or_eq_some_iff.mp hrun
        · obtain ⟨⟨first, middle⟩, htaken, hmatch⟩ := Option.bind_eq_some_iff.mp hlonger
          obtain ⟨found, hfound⟩ := wordMatch_found hmatch
          obtain ⟨hrest, -⟩ := takeName_eq_some.mp htaken
          obtain ⟨hmiddle, -⟩ := takeName_eq_some.mp hfound
          have hmiddle : middle = found ++ m.rest := hmiddle
          refine ⟨first ++ found, ?_, fun hmem => ?_⟩
          · rw [hrest, hmiddle, List.append_assoc]
          · obtain hfirst | hsecond := List.mem_append.mp hmem
            · exact takeName_avoids hend htaken hfirst
            · exact takeName_avoids hname hfound hsecond
        · obtain ⟨found, hfound⟩ := wordMatch_found hshorter
          obtain ⟨hrest, -⟩ := takeName_eq_some.mp hfound
          exact ⟨found, congrArg (List.cons '[') hrest, takeName_avoids hname hfound⟩
      · cases hrun
  anywhere before content := by
    rw [pattern_isSome]
    exact (pattern_isSome none content).symm

/-! ## Neutralized texts -/

def Clean (W : World) (content : Text) : Prop :=
  ∀ s, s <:+ content → named W "end_prompt_block".toList s = false ∧ named W "prompt_block".toList s = false

theorem neutralize_eq (content : Text) :
    neutralizePromptMarkers W content = hide (promptMarkerPattern W).begins '［' content := by
  unfold neutralizePromptMarkers
  rw [subWith_hide pattern_single 0 none content List.not_mem_nil, List.drop_zero]

theorem word_bracket : W.word '[' = false := by
  unfold World.word
  rw [W.bracket]
  decide

theorem word_space {c : Char} (h : PyStr.isSpace c = true) : W.word c = false := by
  unfold World.word
  rw [W.space c h, Bool.false_or, decide_eq_false_iff_not]
  rintro rfl
  exact absurd h (by decide)

theorem wordEnds_hidden {p : Text → Bool} (hp : ∀ b rest, p (b :: rest) = true → b = '[') {rest : Text}
    (h : wordEnds W (hide p '［' rest) = true) : wordEnds W rest = true := by
  cases rest with
  | nil => rfl
  | cons c rest =>
    show (!(W.word c)) = true
    have hhidden : (!(W.word (if p (c :: rest) then '［' else c))) = true := h
    by_cases hc : p (c :: rest) = true
    · rw [hp c rest hc, word_bracket]
      rfl
    · rw [if_neg hc] at hhidden
      exact hhidden

theorem named_hidden {p : Text → Bool} {name : Text} (hp : ∀ b rest, p (b :: rest) = true → b = '[')
    (hname : ∀ n ∈ name, sameLetter n '［' = false) {c : Char} {rest : Text}
    (h : named W name (c :: hide p '［' rest) = true) : named W name (c :: rest) = true := by
  obtain ⟨hc, hnamed⟩ := Bool.and_eq_true_iff.mp h
  obtain ⟨⟨found, behind⟩, htaken, hends⟩ := (Option.any_eq_true _ _).mp hnamed
  obtain ⟨after, hafter, rfl⟩ := takeName_hidden hname htaken
  refine Bool.and_eq_true_iff.mpr ⟨hc, ?_⟩
  rw [hafter]
  exact wordEnds_hidden hp hends

theorem clean_neutralize (content : Text) : Clean W (neutralizePromptMarkers W content) := by
  rw [neutralize_eq]
  have hbegins : ∀ s, (promptMarkerPattern W).begins s =
      (named W "end_prompt_block".toList s || named W "prompt_block".toList s) := pattern_isSome none
  have hfirst := fun b rest => pattern_single (W := W).begins_first b rest
  have hend : ∀ n ∈ "end_prompt_block".toList, sameLetter n '［' = false := none_of_any (by decide)
  have hname : ∀ n ∈ "prompt_block".toList, sameLetter n '［' = false := none_of_any (by decide)
  have hnone : count (promptMarkerPattern W).begins (hide (promptMarkerPattern W).begins '［' content) = 0 := by
    refine count_hide (fun rest => ?_) fun b rest hb => ?_
    · refine Bool.eq_false_iff.mpr fun hb => ?_
      exact absurd (hfirst '［' rest hb) (by decide)
    · rw [hbegins] at hb ⊢
      rw [Bool.or_eq_true] at hb ⊢
      exact hb.imp (named_hidden hfirst hend) (named_hidden hfirst hname)
  intro s hs
  cases s with
  | nil => exact ⟨rfl, rfl⟩
  | cons c rest =>
    have hhere := count_eq_zero.mp hnone (c :: rest) hs (List.cons_ne_nil c rest)
    rw [hbegins] at hhere
    exact Bool.or_eq_false_iff.mp hhere

theorem named_blanks {name s blanks : Text} (hblanks : ∀ c ∈ blanks, PyStr.isSpace c = true)
    (h : named W name s = true) : named W name (s ++ blanks) = true := by
  cases s with
  | nil => cases h
  | cons c rest =>
    obtain ⟨hc, hnamed⟩ := Bool.and_eq_true_iff.mp h
    obtain ⟨⟨found, behind⟩, htaken, hends⟩ := (Option.any_eq_true _ _).mp hnamed
    refine Bool.and_eq_true_iff.mpr ⟨hc, ?_⟩
    rw [show (rest.append blanks) = rest ++ blanks from rfl, takeName_longer htaken]
    show (!((behind ++ blanks).head?.any W.word)) = true
    cases behind with
    | nil =>
      cases blanks with
      | nil => rfl
      | cons d blanks =>
        show (!(W.word d)) = true
        rw [word_space (hblanks d List.mem_cons_self)]
        rfl
    | cons d behind => exact hends

theorem named_line {name s more : Text} (hname : ∀ n ∈ name, sameLetter n '\n' = false)
    (h : named W name (s ++ '\n' :: more) = true) (hs : s ≠ []) : named W name s = true := by
  obtain ⟨c, rest, rfl⟩ := List.exists_cons_of_ne_nil hs
  obtain ⟨hc, hnamed⟩ := Bool.and_eq_true_iff.mp h
  obtain ⟨⟨found, behind⟩, htaken, hends⟩ := (Option.any_eq_true _ _).mp hnamed
  obtain ⟨middle, hmiddle, rfl⟩ := takeName_shorter hname htaken
  refine Bool.and_eq_true_iff.mpr ⟨hc, ?_⟩
  rw [hmiddle]
  show (!(middle.head?.any W.word)) = true
  cases middle with
  | nil => rfl
  | cons d middle => exact hends

theorem strip_cut (content : Text) : ∃ front back, content = front ++ PyStr.stripChars content ++ back ∧
    (∀ c ∈ front, PyStr.isSpace c = true) ∧ ∀ c ∈ back, PyStr.isSpace c = true := by
  have hfront : content = content.takeWhile PyStr.isSpace ++ content.dropWhile PyStr.isSpace :=
    List.takeWhile_append_dropWhile.symm
  generalize hrest : content.dropWhile PyStr.isSpace = rest at hfront
  have hback : rest = (rest.reverse.dropWhile PyStr.isSpace).reverse ++ (rest.reverse.takeWhile PyStr.isSpace).reverse := by
    rw [← List.reverse_append, List.takeWhile_append_dropWhile, List.reverse_reverse]
  refine ⟨content.takeWhile PyStr.isSpace, (rest.reverse.takeWhile PyStr.isSpace).reverse, ?_, ?_, ?_⟩
  · unfold PyStr.stripChars
    rw [hrest, List.append_assoc, ← hback]
    exact hfront
  · exact fun c hc => List.mem_takeWhile_imp hc
  · exact fun c hc => List.mem_takeWhile_imp (List.mem_reverse.mp hc)

theorem Clean.strip {content : Text} (h : Clean W content) : Clean W (PyStr.stripChars content) := by
  obtain ⟨front, back, hcut, -, hback⟩ := strip_cut content
  intro s hs
  obtain ⟨before, hbefore⟩ := hs
  have hsuffix : s ++ back <:+ content := ⟨front ++ before, by
    rw [List.append_assoc, ← List.append_assoc before, hbefore, ← List.append_assoc]
    exact hcut.symm⟩
  obtain ⟨hend, hname⟩ := h (s ++ back) hsuffix
  constructor
  · exact Bool.eq_false_iff.mpr fun hnamed => Bool.eq_false_iff.mp hend (named_blanks hback hnamed)
  · exact Bool.eq_false_iff.mpr fun hnamed => Bool.eq_false_iff.mp hname (named_blanks hback hnamed)

end Prompt
