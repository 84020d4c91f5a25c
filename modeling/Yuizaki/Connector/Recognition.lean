import Yuizaki.Connector.Cq

/- Recognition of mentions and media (`_parse_bridge_message`).

   A segment has no bracket inside, so two of them never overlap and the pattern finds every
   one of a message (`found_iff`). A text whose brackets and ampersands are escaped has no
   bracket at all: no segment begins or ends in it, and putting its entities back one kind after
   another gives what the user has typed (`unescape_escapes`). `cq_read` is about every message:
   what is recognised in it is what is written in it, and escaped text among segments comes
   out as it was typed. -/
namespace Connector

/-! ## What is written -/

def IsKind (kind : List Char) : Prop := kind ≠ [] ∧ ∀ c ∈ kind, c ∉ [',', '[', ']']

/-- The parameters of a segment: none, or what follows a comma, without a bracket. -/
def IsParams (params : List Char) : Prop := ∀ c rest, params = c :: rest → c = ',' ∧ ∀ d ∈ rest, d ∉ ['[', ']']

def written (kind params : List Char) : List Char := "[CQ:".toList ++ kind ++ params ++ "]".toList

/-- A segment is written somewhere in the text. -/
structure Occurs (raw kind params : List Char) : Prop where
  isKind : IsKind kind
  isParams : IsParams params
  inside : written kind params <:+: raw

/-- The raw text is an escaped form of the text: its ampersands and brackets are escaped, its
commas may be. -/
inductive Escapes : List Char → List Char → Prop
  | nil : Escapes [] []
  | plain {c : Char} {text raw : List Char} (hc : c ∉ ['&', '[', ']']) (h : Escapes text raw) :
    Escapes (c :: text) (c :: raw)
  | ampersand {text raw : List Char} (h : Escapes text raw) : Escapes ('&' :: text) ("&amp;".toList ++ raw)
  | leftBracket {text raw : List Char} (h : Escapes text raw) : Escapes ('[' :: text) ("&#91;".toList ++ raw)
  | rightBracket {text raw : List Char} (h : Escapes text raw) : Escapes (']' :: text) ("&#93;".toList ++ raw)
  | comma {text raw : List Char} (h : Escapes text raw) : Escapes (',' :: text) ("&#44;".toList ++ raw)

/-! ## The pattern -/

section Pattern

variable {before : Option Char} {kind params rest : List Char} {groups : List (ℕ × List Char)}

def kindChar (c : Char) : Bool := c ∉ ",[]".toList

def paramChar (c : Char) : Bool := c ∉ "[]".toList

def paramPattern : Regex :=
  .seqs [.group 2 (.optional (.seq (.oneOf ",") (.many true (.noneOf "[]")))), .oneOf "]"]

def closing (at_ next : Regex.Position) : Option Regex.Position :=
  (Regex.seqs [.oneOf "]"]).run
    { next with groups := (2, at_.rest.take (at_.rest.length - next.rest.length)) :: next.groups } some

theorem closing_cons (at_ : Regex.Position) (c : Char) :
    closing at_ ⟨before, c :: rest, groups⟩ =
      if c = ']' then some ⟨some c, rest, (2, at_.rest.take (at_.rest.length - (rest.length + 1))) :: groups⟩
      else none := by
  show (if decide (c ∈ "]".toList) = true then _ else none) = _
  by_cases hc : c = ']'
  · rw [if_pos hc, hc]
    rfl
  · have hclose : decide (c ∈ "]".toList) = false := by simp [hc]
    rw [if_neg hc, hclose]
    rfl

theorem run_params_none {c : Char} (hc : c ≠ ',' ∧ c ≠ ']') :
    paramPattern.run ⟨before, c :: rest, groups⟩ some = none := by
  have hcomma : decide (c ∈ ",".toList) = false := by simp [hc.1]
  have hclose : decide (c ∈ "]".toList) = false := by simp [hc.2]
  simp only [paramPattern, Regex.seqs, Regex.optional, Regex.oneOf, List.foldr_cons, List.foldr_nil, Regex.run, hcomma,
    hclose, Bool.false_eq_true, ↓reduceIte, Option.orElse_eq_or, Option.or_none]

theorem take_span (p : Char → Bool) (c : Char) (text : List Char) :
    (c :: text).take ((c :: text).length - (text.dropWhile p).length) = c :: text.takeWhile p := by
  have hlength : (c :: text).length - (text.dropWhile p).length = (text.takeWhile p).length + 1 := by
    have hsplit := congrArg List.length (List.takeWhile_append_dropWhile (p := p) (l := text))
    rw [List.length_append] at hsplit
    show text.length + 1 - _ = _
    omega
  rw [hlength, List.take_succ_cons]
  exact congrArg (c :: ·) (List.prefix_iff_eq_take.mp (List.takeWhile_prefix p)).symm

theorem run_params_comma (text : List Char) :
    paramPattern.run ⟨before, ',' :: text, groups⟩ some =
      match text.dropWhile paramChar with
      | [] => none
      | d :: rest =>
        if d = ']' then some ⟨some ']', rest, (2, ',' :: text.takeWhile paramChar) :: groups⟩ else none := by
  have hsecond : closing ⟨before, ',' :: text, groups⟩ ⟨before, ',' :: text, groups⟩ = none := by
    rw [closing_cons, if_neg (by decide)]
  have hstop : ∀ before' c rest' groups', paramChar c = true →
      closing ⟨before, ',' :: text, groups⟩ ⟨before', c :: rest', groups'⟩ = none := by
    intro before' c rest' groups' hc
    rw [closing_cons, if_neg]
    rintro rfl
    exact absurd hc (by decide)
  have hfirst := @Regex.run_class (some ',') groups _ paramChar hstop text
  have hrun : paramPattern.run ⟨before, ',' :: text, groups⟩ some =
      ((if decide (',' ∈ ",".toList) = true then
          (Regex.many true (.char paramChar)).run ⟨some ',', text, groups⟩ (closing ⟨before, ',' :: text, groups⟩)
        else none).orElse fun _ => closing ⟨before, ',' :: text, groups⟩ ⟨before, ',' :: text, groups⟩) := rfl
  rw [hrun, if_pos (by decide), hfirst, hsecond, Option.orElse_eq_or, Option.or_none]
  cases hrest : text.dropWhile paramChar with
  | nil => rfl
  | cons d rest =>
    have htake := take_span paramChar ',' text
    rw [hrest] at htake
    rw [closing_cons]
    show (if d = ']' then
        some (⟨some d, rest, (2, (',' :: text).take ((',' :: text).length - (d :: rest).length)) :: groups⟩ :
          Regex.Position)
      else none) = _
    rw [htake]
    by_cases hd : d = ']'
    · simp only [hd, ↓reduceIte]
    · simp only [hd, ↓reduceIte]

theorem run_params_bracket (text : List Char) :
    paramPattern.run ⟨before, ']' :: text, groups⟩ some = some ⟨some ']', text, (2, []) :: groups⟩ := by
  have hrun : paramPattern.run ⟨before, ']' :: text, groups⟩ some =
      ((if decide (']' ∈ ",".toList) = true then
          (Regex.many true (.char paramChar)).run ⟨some ']', text, groups⟩ (closing ⟨before, ']' :: text, groups⟩)
        else none).orElse fun _ => closing ⟨before, ']' :: text, groups⟩ ⟨before, ']' :: text, groups⟩) := rfl
  rw [hrun, if_neg (by decide), closing_cons, if_pos rfl]
  show some (⟨some ']', text, (2, (']' :: text).take (text.length + 1 - (text.length + 1))) :: groups⟩ :
    Regex.Position) = _
  rw [Nat.sub_self]
  rfl

theorem run_kind (text : List Char) :
    (Regex.seqs [.group 1 (.some1 true (.noneOf ",[]")), paramPattern]).run ⟨before, text, groups⟩ some =
      if text.takeWhile kindChar = [] then none
      else paramPattern.run ⟨(text.takeWhile kindChar).getLast?, text.dropWhile kindChar,
        (1, text.takeWhile kindChar) :: groups⟩ some := by
  cases text with
  | nil => rfl
  | cons c rest =>
    have hrun : (Regex.seqs [.group 1 (.some1 true (.noneOf ",[]")), paramPattern]).run
        ⟨before, c :: rest, groups⟩ some =
          if kindChar c = true then
            (Regex.many true (.char kindChar)).run ⟨some c, rest, groups⟩ (fun next =>
              paramPattern.run { next with
                groups := (1, (c :: rest).take ((c :: rest).length - next.rest.length)) :: next.groups } some)
          else none := rfl
    rw [hrun]
    by_cases hc : kindChar c = true
    · have hnext := @Regex.run_class (some c) groups
        (fun next => paramPattern.run { next with
          groups := (1, (c :: rest).take ((c :: rest).length - next.rest.length)) :: next.groups } some)
        kindChar (fun before' d rest' groups' hd => run_params_none ⟨fun heq => ?_, fun heq => ?_⟩) rest
      · rw [if_pos hc, hnext, List.takeWhile_cons_of_pos hc, List.dropWhile_cons_of_pos hc, if_neg (List.cons_ne_nil _ _)]
        show paramPattern.run ⟨_, _, (1, (c :: rest).take ((c :: rest).length - (rest.dropWhile kindChar).length)) ::
          groups⟩ some = _
        rw [take_span, List.getLast?_cons]
        cases (rest.takeWhile kindChar).getLast? with
        | none => rfl
        | some d => rfl
      · rw [heq] at hd
        exact absurd hd (by decide)
      · rw [heq] at hd
        exact absurd hd (by decide)
    · rw [if_neg hc, List.takeWhile_cons_of_neg hc, if_pos rfl]

theorem kindChar_iff {c : Char} : kindChar c = true ↔ c ∉ [',', '[', ']'] := decide_eq_true_iff

theorem paramChar_iff {c : Char} : paramChar c = true ↔ c ∉ ['[', ']'] := decide_eq_true_iff

theorem run_cq (text : List Char) :
    cqPattern.run ⟨before, "[CQ:".toList ++ text, []⟩ some =
      if text.takeWhile kindChar = [] then none
      else paramPattern.run ⟨(text.takeWhile kindChar).getLast?, text.dropWhile kindChar,
        [(1, text.takeWhile kindChar)]⟩ some := by
  have hrun : cqPattern.run ⟨before, "[CQ:".toList ++ text, []⟩ some =
      (Regex.literal "[CQ:".toList).run ⟨before, "[CQ:".toList ++ text, []⟩
        (fun next => (Regex.seqs [.group 1 (.some1 true (.noneOf ",[]")), paramPattern]).run next some) := rfl
  rw [hrun, Regex.run_literal, run_kind]

theorem run_written (hkind : IsKind kind) (hparams : IsParams params) :
    cqPattern.run ⟨before, written kind params ++ rest, []⟩ some =
      some ⟨some ']', rest, [(2, params), (1, kind)]⟩ := by
  have hassoc : written kind params ++ rest = "[CQ:".toList ++ (kind ++ (params ++ ']' :: rest)) := by
    simp only [written, List.append_assoc]
    rfl
  have hall : ∀ c ∈ kind, kindChar c = true := fun c hc => kindChar_iff.mpr (hkind.2 c hc)
  have hstop : (params ++ ']' :: rest).takeWhile kindChar = [] ∧
      (params ++ ']' :: rest).dropWhile kindChar = params ++ ']' :: rest := by
    cases params with
    | nil => exact ⟨rfl, rfl⟩
    | cons c tail =>
      obtain ⟨rfl, -⟩ := hparams c tail rfl
      exact ⟨rfl, rfl⟩
  rw [hassoc, run_cq, List.takeWhile_append_of_pos hall, List.dropWhile_append_of_pos hall, hstop.1, hstop.2,
    List.append_nil, if_neg hkind.1]
  cases params with
  | nil => exact run_params_bracket rest
  | cons c tail =>
    obtain ⟨rfl, htail⟩ := hparams c tail rfl
    have hinside : ∀ d ∈ tail, paramChar d = true := fun d hd => paramChar_iff.mpr (htail d hd)
    have hend : (']' :: rest).takeWhile paramChar = [] ∧ (']' :: rest).dropWhile paramChar = ']' :: rest :=
      ⟨rfl, rfl⟩
    rw [List.cons_append, run_params_comma, List.takeWhile_append_of_pos hinside,
      List.dropWhile_append_of_pos hinside, hend.1, hend.2, List.append_nil]
    exact if_pos rfl

theorem run_params_found {text : List Char} {m : Regex.Position}
    (h : paramPattern.run ⟨before, text, groups⟩ some = some m) :
    ∃ params rest, IsParams params ∧ text = params ++ ']' :: rest ∧ m = ⟨some ']', rest, (2, params) :: groups⟩ := by
  cases text with
  | nil => cases h
  | cons c text =>
    by_cases hcomma : c = ','
    · rw [hcomma, run_params_comma] at h
      have hsplit := List.takeWhile_append_dropWhile (p := paramChar) (l := text)
      cases hrest : text.dropWhile paramChar with
      | nil =>
        rw [hrest] at h
        cases h
      | cons d rest =>
        rw [hrest] at h hsplit
        by_cases hd : d = ']'
        · refine ⟨',' :: text.takeWhile paramChar, rest, ?_, ?_, ?_⟩
          · intro e tail heq
            obtain ⟨rfl, rfl⟩ := List.cons.inj heq
            exact ⟨rfl, fun x hx => paramChar_iff.mp (List.mem_takeWhile_imp hx)⟩
          · rw [hcomma, List.cons_append, ← hd, hsplit]
          · exact (Option.some.inj ((if_pos hd).symm.trans h)).symm
        · exact absurd ((if_neg hd).symm.trans h) (by intro h; cases h)
    · by_cases hclose : c = ']'
      · rw [hclose, run_params_bracket] at h
        have hnone : IsParams [] := fun e tail heq => by cases heq
        exact ⟨[], text, hnone, congrArg (· :: text) hclose, (Option.some.inj h).symm⟩
      · rw [run_params_none ⟨hcomma, hclose⟩] at h
        cases h

theorem run_found {text : List Char} {m : Regex.Position} (h : cqPattern.run ⟨before, text, []⟩ some = some m) :
    ∃ kind params rest, IsKind kind ∧ IsParams params ∧ text = written kind params ++ rest ∧
      m = ⟨some ']', rest, [(2, params), (1, kind)]⟩ := by
  by_cases hprefix : "[CQ:".toList <+: text
  · obtain ⟨text, rfl⟩ := hprefix
    rw [run_cq] at h
    by_cases hempty : text.takeWhile kindChar = []
    · rw [if_pos hempty] at h
      cases h
    · rw [if_neg hempty] at h
      obtain ⟨params, rest, hparams, htext, hm⟩ := run_params_found h
      refine ⟨text.takeWhile kindChar, params, rest, ⟨hempty, fun c hc => ?_⟩, hparams, ?_, hm⟩
      · exact kindChar_iff.mp (List.mem_takeWhile_imp hc)
      · have hsplit := List.takeWhile_append_dropWhile (p := kindChar) (l := text)
        rw [htext] at hsplit
        simp only [written, List.append_assoc]
        exact congrArg ("[CQ:".toList ++ ·) hsplit.symm
  · have hrun : cqPattern.run ⟨before, text, []⟩ some = (Regex.literal "[CQ:".toList).run ⟨before, text, []⟩
        (fun next => (Regex.seqs [.group 1 (.some1 true (.noneOf ",[]")), paramPattern]).run next some) := rfl
    rw [hrun, Regex.run_literal_none hprefix] at h
    cases h

end Pattern

/-! ## All segments -/

def found (before : Option Char) (raw : List Char) : List (List Char × List Char) :=
  (cqPattern.pieces 0 before raw).2.map fun piece =>
    ((piece.1.groups.lookup 1).getD [], (piece.1.groups.lookup 2).getD [])

theorem written_ne (kind params : List Char) : written kind params ≠ [] := by
  simp [written]

theorem written_cons {kind params : List Char} (hkind : IsKind kind) (hparams : IsParams params) :
    ∃ tail, written kind params = '[' :: tail ∧ '[' ∉ tail := by
  refine ⟨"CQ:".toList ++ kind ++ params ++ "]".toList, rfl, fun hmem => ?_⟩
  simp only [List.mem_append] at hmem
  obtain ((hmem | hmem) | hmem) | hmem := hmem
  · exact absurd hmem (by decide)
  · exact hkind.2 _ hmem (by decide)
  · cases params with
    | nil => cases hmem
    | cons c rest =>
      obtain ⟨rfl, hrest⟩ := hparams c rest rfl
      obtain hmem | hmem := List.mem_cons.mp hmem
      · exact absurd hmem (by decide)
      · exact hrest _ hmem (by decide)
  · exact absurd hmem (by decide)

theorem written_inj {kind params kind' params' rest rest' : List Char} (hkind : IsKind kind)
    (hparams : IsParams params) (hkind' : IsKind kind') (hparams' : IsParams params')
    (h : written kind params ++ rest = written kind' params' ++ rest') :
    kind = kind' ∧ params = params' ∧ rest = rest' := by
  have hrun := @run_written none _ _ rest hkind hparams
  rw [h, run_written hkind' hparams'] at hrun
  injection hrun with hm
  injection hm with _ hrest hgroups
  injection hgroups with hp hgroups
  injection hgroups with hk
  exact ⟨(Prod.mk.inj hk).2.symm, (Prod.mk.inj hp).2.symm, hrest.symm⟩

theorem occurs_behind {kind params kind' params' before after rest : List Char} (hkind : IsKind kind)
    (hparams : IsParams params) (hkind' : IsKind kind') (hparams' : IsParams params') (hbefore : before ≠ [])
    (h : written kind params ++ rest = before ++ (written kind' params' ++ after)) :
    ∃ gap, rest = gap ++ (written kind' params' ++ after) := by
  obtain ⟨tail, htail, hbracket⟩ := written_cons hkind hparams
  obtain ⟨tail', htail', -⟩ := written_cons hkind' hparams'
  obtain ⟨gap, -, hrest⟩ | ⟨gap, hgap, hafter⟩ := List.append_eq_append_iff.mp h
  · exact ⟨gap, hrest⟩
  · cases gap with
    | nil => exact ⟨[], hafter.symm⟩
    | cons c gap =>
      -- the bracket of the second would be inside of the first
      obtain ⟨b, before, rfl⟩ := List.exists_cons_of_ne_nil hbefore
      rw [htail'] at hafter
      rw [htail] at hgap
      obtain rfl := (List.cons.inj hafter).1
      refine absurd ?_ hbracket
      rw [(List.cons.inj hgap).2]
      exact List.mem_append_right _ List.mem_cons_self

theorem found_iff (kind params : List Char) (before : Option Char) (raw : List Char) :
    (kind, params) ∈ found before raw ↔ Occurs raw kind params := by
  induction hn : raw.length using Nat.strong_induction_on generalizing before raw with
  | _ n ih =>
    subst hn
    cases raw with
    | nil =>
      refine iff_of_false (List.not_mem_nil) fun h => ?_
      exact written_ne kind params (List.infix_nil.mp h.inside)
    | cons c rest =>
      cases hrun : cqPattern.run ⟨before, c :: rest, []⟩ some with
      | none =>
        have hfound : found before (c :: rest) = found (some c) rest := by
          unfold found
          rw [Regex.pieces_pass hrun]
        rw [hfound, ih rest.length (Nat.lt_succ_self _) (some c) rest rfl]
        refine ⟨fun h => ⟨h.isKind, h.isParams, h.inside.trans (List.suffix_cons c rest).isInfix⟩, fun h => ?_⟩
        obtain hprefix | hinside := List.infix_cons_iff.mp h.inside
        · obtain ⟨after, hafter⟩ := hprefix
          rw [← hafter, run_written h.isKind h.isParams] at hrun
          cases hrun
        · exact ⟨h.isKind, h.isParams, hinside⟩
      | some m =>
        obtain ⟨kind', params', after, hkind', hparams', hraw, hm⟩ := run_found hrun
        rw [hraw] at hrun ⊢
        obtain ⟨before', hpieces⟩ := Regex.pieces_match (written_ne kind' params') (by rw [hm]) hrun
        have hfound : found before (written kind' params' ++ after) = (kind', params') :: found before' after := by
          unfold found
          rw [hpieces, List.map_cons, hm]
          rfl
        have hshort : after.length < (c :: rest).length := by
          rw [hraw, List.length_append]
          exact Nat.lt_add_of_pos_left (List.length_pos_iff.mpr (written_ne kind' params'))
        rw [hfound, List.mem_cons, ih after.length hshort before' after rfl]
        constructor
        · rintro (heq | h)
          · obtain ⟨rfl, rfl⟩ := Prod.mk.inj heq
            exact ⟨hkind', hparams', (List.prefix_append _ after).isInfix⟩
          · exact ⟨h.isKind, h.isParams, h.inside.trans (List.suffix_append _ after).isInfix⟩
        · intro h
          obtain ⟨front, back, hinside⟩ := h.inside
          by_cases hfront : front = []
          · rw [hfront, List.nil_append] at hinside
            obtain ⟨rfl, rfl, -⟩ := written_inj h.isKind h.isParams hkind' hparams' hinside
            exact Or.inl rfl
          · rw [List.append_assoc] at hinside
            obtain ⟨gap, hgap⟩ := occurs_behind hkind' hparams' h.isKind h.isParams hfront hinside.symm
            exact Or.inr ⟨h.isKind, h.isParams, gap, back, by rw [hgap, List.append_assoc]⟩

/-! ## Escaped text -/

section Escaped

variable {text raw text' raw' : List Char}

theorem Escapes.append (h : Escapes text raw) (h' : Escapes text' raw') : Escapes (text ++ text') (raw ++ raw') := by
  induction h with
  | nil => exact h'
  | plain hc _ ih => exact ih.plain hc
  | ampersand _ ih => exact ih.ampersand
  | leftBracket _ ih => exact ih.leftBracket
  | rightBracket _ ih => exact ih.rightBracket
  | comma _ ih => exact ih.comma

theorem Escapes.no_bracket (h : Escapes text raw) : '[' ∉ raw := by
  induction h with
  | nil => exact List.not_mem_nil
  | plain hc _ ih =>
    intro hmem
    obtain rfl | hmem := List.mem_cons.mp hmem
    · exact hc (by decide)
    · exact ih hmem
  | ampersand _ ih | leftBracket _ ih | rightBracket _ ih | comma _ ih =>
    intro hmem
    obtain hmem | hmem := List.mem_append.mp hmem
    · exact absurd hmem (by decide)
    · exact ih hmem

/-- The entities, in the order in which they are put back. -/
def entities : List (List Char) := ["&#44;".toList, "&#91;".toList, "&#93;".toList, "&amp;".toList]

/-- An entity, or a text without an ampersand. -/
def Word (word : List Char) : Prop := word ∈ entities ∨ '&' ∉ word

def putBack (old new word : List Char) : List Char := if word = old then new else word

theorem Word.putBack {old new word : List Char} (hnew : '&' ∉ new) (h : Word word) : Word (putBack old new word) := by
  unfold Connector.putBack
  split
  · exact Or.inr hnew
  · exact h

theorem Word.apart {old word : List Char} (hold : old ∈ entities) (h : Word word) :
    word = old ∨ ¬ PyStr.Hides old word := by
  have hentities : ∀ old ∈ entities, ∀ word ∈ entities, word = old ∨ ¬ PyStr.Hides old word := by decide
  have hfirst : ∀ old ∈ entities, old = '&' :: old.tail := by decide
  obtain hentity | hword := h
  · exact hentities old hold word hentity
  · rw [hfirst old hold]
    exact Or.inr (PyStr.not_hides hword)

theorem replace_words {old new : List Char} (hold : old ∈ entities) (words : List (List Char))
    (hwords : ∀ word ∈ words, Word word) :
    PyStr.replaceChars old new 0 words.flatten = (words.map (putBack old new)).flatten :=
  PyStr.replaceChars_flatten (fun h => by rw [h] at hold; exact absurd hold (by decide)) words
    fun word hword => (hwords word hword).apart hold

/-- What a word is after all of the entities were put back. -/
def decoded (word : List Char) : List Char :=
  putBack "&amp;".toList "&".toList (putBack "&#93;".toList "]".toList (putBack "&#91;".toList "[".toList
    (putBack "&#44;".toList ",".toList word)))

theorem unescape_words (words : List (List Char)) (hwords : ∀ word ∈ words, Word word) :
    unescape (String.ofList words.flatten) = String.ofList (words.map decoded).flatten := by
  have hkept (old new : List Char) (hnew : '&' ∉ new) (words : List (List Char)) (hwords : ∀ w ∈ words, Word w) :
      ∀ w ∈ words.map (putBack old new), Word w := by
    intro w hw
    obtain ⟨w', hw', rfl⟩ := List.mem_map.mp hw
    exact (hwords w' hw').putBack hnew
  have h₁ := hkept "&#44;".toList ",".toList (by decide) words hwords
  have h₂ := hkept "&#91;".toList "[".toList (by decide) _ h₁
  have h₃ := hkept "&#93;".toList "]".toList (by decide) _ h₂
  unfold unescape PyStr.replace
  simp only [String.toList_ofList]
  rw [replace_words (by decide) words hwords, replace_words (by decide) _ h₁, replace_words (by decide) _ h₂,
    replace_words (by decide) _ h₃]
  simp only [List.map_map]
  rfl

theorem decoded_plain {c : Char} (hc : c ∉ ['&', '[', ']']) : decoded [c] = [c] := by
  have hentities : ∀ entity ∈ entities, [c] ≠ entity := by
    intro entity hentity h
    rw [← h] at hentity
    simp [entities] at hentity
  simp only [entities, List.mem_cons, forall_eq_or_imp] at hentities
  obtain ⟨h₁, h₂, h₃, h₄, -⟩ := hentities
  simp only [decoded, putBack, h₁, h₂, h₃, h₄, ↓reduceIte]

theorem Escapes.words (h : Escapes text raw) : ∃ words : List (List Char), (∀ word ∈ words, Word word) ∧
    raw = words.flatten ∧ text = (words.map decoded).flatten := by
  have hcons {c : Char} {entity text raw : List Char} (hword : Word entity) (hc : decoded entity = [c])
      (h : ∃ words : List (List Char), (∀ word ∈ words, Word word) ∧ raw = words.flatten ∧
        text = (words.map decoded).flatten) :
      ∃ words : List (List Char), (∀ word ∈ words, Word word) ∧ entity ++ raw = words.flatten ∧
        c :: text = (words.map decoded).flatten := by
    obtain ⟨words, hwords, rfl, rfl⟩ := h
    refine ⟨entity :: words, List.forall_mem_cons.mpr ⟨hword, hwords⟩, rfl, ?_⟩
    rw [List.map_cons, List.flatten_cons, hc]
    rfl
  induction h with
  | nil => exact ⟨[], fun w hw => (nomatch hw), rfl, rfl⟩
  | @plain c _ _ hc _ ih =>
    have hword : Word [c] := Or.inr fun hmem => hc (by rw [← List.mem_singleton.mp hmem]; decide)
    exact hcons hword (decoded_plain hc) ih
  | ampersand _ ih => exact hcons (Or.inl (by decide)) (by decide) ih
  | leftBracket _ ih => exact hcons (Or.inl (by decide)) (by decide) ih
  | rightBracket _ ih => exact hcons (Or.inl (by decide)) (by decide) ih
  | comma _ ih => exact hcons (Or.inl (by decide)) (by decide) ih

theorem unescape_escapes (h : Escapes text raw) : unescape (String.ofList raw) = String.ofList text := by
  obtain ⟨words, hwords, rfl, rfl⟩ := h.words
  exact unescape_words words hwords

end Escaped

/-! ## Reading -/

section Reading

variable (host : BridgeHost) (selfId : String)

/-- What a segment adds to the text for the agent. -/
def partOf (segment : Json) : List String :=
  match segment.get "data", segment.get "type" with
  | .obj data, .str kind =>
    if kind = "text" then [host.orEmpty (Json.get (.obj data) "text")] else (media.lookup kind).toList
  | _, _ => []

def mentions (segment : Json) : Bool :=
  match segment.get "data", segment.get "type" with
  | .obj data, .str kind => kind = "at" ∧ selfId ≠ "" ∧ host.text (Json.get (.obj data) "qq") = selfId
  | _, _ => false

theorem readSegment_part (reading : Reading) (segment : Json) :
    (readSegment host selfId reading segment).parts = reading.parts ++ partOf host segment ∧
      (readSegment host selfId reading segment).mentioned = (reading.mentioned || mentions host selfId segment) := by
  have hmedia : media.lookup "at" = none ∧ media.lookup "reply" = none := by decide
  unfold readSegment partOf mentions
  generalize segment.get "data" = value
  generalize segment.get "type" = type
  split
  · rename_i data kind
    by_cases hat : kind = "at"
    · subst hat
      simp [hmedia.1]
    · by_cases hreply : kind = "reply"
      · subst hreply
        by_cases hid : host.text (Json.get (.obj data) "id") = ""
        · simp [hid, hmedia.2]
        · simp [hid, hmedia.2]
      · by_cases htext : kind = "text"
        · subst htext
          simp
        · cases hlabel : media.lookup kind with
          | none => simp [hat, hreply, htext, hlabel]
          | some label => simp [hat, hreply, htext, hlabel]
  · simp

theorem readSegments_all (segments : List Json) :
    (readSegments host selfId segments).parts = segments.flatMap (partOf host) ∧
      (readSegments host selfId segments).mentioned = segments.any (mentions host selfId) := by
  have hfold : ∀ (segments : List Json) (reading : Reading),
      (segments.foldl (readSegment host selfId) reading).parts = reading.parts ++ segments.flatMap (partOf host) ∧
        (segments.foldl (readSegment host selfId) reading).mentioned =
          (reading.mentioned || segments.any (mentions host selfId)) := by
    intro segments
    induction segments with
    | nil => exact fun reading => ⟨(List.append_nil _).symm, (Bool.or_false _).symm⟩
    | cons segment segments ih =>
      intro reading
      obtain ⟨hparts, hmentioned⟩ := readSegment_part host selfId reading segment
      obtain ⟨hrest, hany⟩ := ih (readSegment host selfId reading segment)
      rw [List.foldl_cons, hrest, hany, hparts, hmentioned, List.flatMap_cons, List.any_cons, List.append_assoc,
        Bool.or_assoc]
      exact ⟨rfl, rfl⟩
  exact hfold segments _

theorem partOf_text (text : List Char) : partOf host (textSegment text) = [unescape (String.ofList text)] := rfl

theorem mentions_text (text : List Char) : mentions host selfId (textSegment text) = false := rfl

theorem mentions_cq (kind params : List Char) : mentions host selfId (cqSegment kind params) = true ↔
    kind = "at".toList ∧ selfId ≠ "" ∧ host.text (Json.get (.obj (parameters params)) "qq") = selfId := by
  refine decide_eq_true_iff.trans (and_congr_left' ?_)
  rw [← String.toList_inj, String.toList_ofList]

theorem mem_segments {raw : String} {segment : Json} : segment ∈ segments raw →
    (∃ text, segment = textSegment text) ∨ ∃ kind params, Occurs raw.toList kind params ∧
      segment = cqSegment kind params := by
  intro hsegment
  obtain rfl | hsegment := List.mem_cons.mp hsegment
  · exact Or.inl ⟨_, rfl⟩
  · obtain ⟨piece, hpiece, hsegment⟩ := List.mem_flatMap.mp hsegment
    obtain rfl | hsegment := List.mem_cons.mp hsegment
    · refine Or.inr ⟨_, _, (found_iff _ _ none _).mp ?_, rfl⟩
      exact List.mem_map.mpr ⟨piece, hpiece, rfl⟩
    · exact Or.inl ⟨_, List.mem_singleton.mp hsegment⟩

theorem cqSegment_mem {raw : String} {kind params : List Char} (h : Occurs raw.toList kind params) :
    cqSegment kind params ∈ segments raw := by
  obtain ⟨piece, hpiece, heq⟩ := List.mem_map.mp ((found_iff kind params none raw.toList).mpr h)
  obtain ⟨rfl, rfl⟩ := Prod.mk.inj heq
  exact List.mem_cons_of_mem _ (List.mem_flatMap.mpr ⟨piece, hpiece, List.mem_cons_self⟩)

end Reading

/-! ## Messages -/

/-- A piece of a message: escaped text, or a segment. -/
inductive Piece where
  | text (text raw : List Char)
  | segment (kind params : List Char)

/-- The piece is written as it should be. -/
def Piece.WellFormed : Piece → Prop
  | .text typed raw => Escapes typed raw
  | .segment kind params => IsKind kind ∧ IsParams params

def Piece.raw : Piece → List Char
  | .text _ raw => raw
  | .segment kind params => written kind params

/-- What the agent is shown of the piece. -/
def Piece.shown (host : BridgeHost) : Piece → List Char
  | .text typed _ => typed
  | .segment kind params => (String.join (partOf host (cqSegment kind params))).toList

def segmentsOf (pieces : List Piece) : List (List Char × List Char) :=
  pieces.filterMap fun
    | .text _ _ => none
    | .segment kind params => some (kind, params)

/-- What the agent is shown of segments and the texts behind them. -/
def shownOf (host : BridgeHost) (found : List (Regex.Position × List Char)) : List Char :=
  found.flatMap fun piece =>
    (String.join (partOf host (matchSegment piece.1))).toList ++ (unescape (String.ofList piece.2)).toList

theorem pieces_text {text : List Char} (h : '[' ∉ text) (before : Option Char) (rest : List Char) :
    ∃ before', cqPattern.pieces 0 before (text ++ rest) =
      (text ++ (cqPattern.pieces 0 before' rest).1, (cqPattern.pieces 0 before' rest).2) := by
  induction text generalizing before with
  | nil => exact ⟨before, rfl⟩
  | cons c text ih =>
    obtain ⟨hc, htext⟩ := List.ne_and_not_mem_of_not_mem_cons h
    obtain ⟨before', hnext⟩ := ih htext (some c)
    refine ⟨before', ?_⟩
    have hrun : cqPattern.run ⟨before, c :: (text ++ rest), []⟩ some = none := by
      cases hrun : cqPattern.run ⟨before, c :: (text ++ rest), []⟩ some with
      | none => rfl
      | some m =>
        obtain ⟨kind, params, after, -, -, hraw, -⟩ := run_found hrun
        exact absurd (List.cons.inj hraw).1.symm hc
    rw [List.cons_append, Regex.pieces_pass hrun, hnext, List.cons_append]

theorem pieces_found (host : BridgeHost) (pieces : List Piece) (h : ∀ p ∈ pieces, p.WellFormed)
    (before : Option Char) :
    ∃ text, Escapes text (cqPattern.pieces 0 before (pieces.flatMap Piece.raw)).1 ∧
      text ++ shownOf host (cqPattern.pieces 0 before (pieces.flatMap Piece.raw)).2 =
        pieces.flatMap (Piece.shown host) ∧
      found before (pieces.flatMap Piece.raw) = segmentsOf pieces := by
  induction pieces generalizing before with
  | nil => exact ⟨[], .nil, rfl, rfl⟩
  | cons piece pieces ih =>
    obtain ⟨hpiece, hpieces⟩ := List.forall_mem_cons.mp h
    cases piece with
    | text text raw =>
      obtain ⟨before', hfound⟩ := pieces_text hpiece.no_bracket before (pieces.flatMap Piece.raw)
      obtain ⟨text', htext', hshown, hsegments⟩ := ih hpieces before'
      refine ⟨text ++ text', ?_, ?_, ?_⟩
      · rw [List.flatMap_cons]
        show Escapes _ (cqPattern.pieces 0 before (raw ++ _)).1
        rw [hfound]
        exact hpiece.append htext'
      · rw [List.flatMap_cons, List.flatMap_cons, ← hshown, List.append_assoc]
        show text ++ (text' ++ shownOf host (cqPattern.pieces 0 before (raw ++ _)).2) = _
        rw [hfound]
        rfl
      · rw [List.flatMap_cons]
        show (cqPattern.pieces 0 before (raw ++ _)).2.map _ = segmentsOf pieces
        rw [hfound]
        exact hsegments
    | segment kind params =>
      have hrun := @run_written before _ _ (pieces.flatMap Piece.raw) hpiece.1 hpiece.2
      obtain ⟨before', hfound⟩ := Regex.pieces_match (written_ne kind params) (by rfl) hrun
      obtain ⟨text', htext', hshown, hsegments⟩ := ih hpieces before'
      refine ⟨[], ?_, ?_, ?_⟩
      · rw [List.flatMap_cons]
        show Escapes _ (cqPattern.pieces 0 before (written kind params ++ _)).1
        rw [hfound]
        exact .nil
      · rw [List.flatMap_cons, List.flatMap_cons, ← hshown]
        show shownOf host (cqPattern.pieces 0 before (written kind params ++ _)).2 = _
        rw [hfound]
        unfold shownOf
        rw [List.flatMap_cons, unescape_escapes htext', String.toList_ofList, List.append_assoc]
        rfl
      · rw [List.flatMap_cons]
        show (cqPattern.pieces 0 before (written kind params ++ _)).2.map _ = (kind, params) :: segmentsOf pieces
        rw [hfound, List.map_cons]
        exact congrArg ((kind, params) :: ·) hsegments

/-- The parameters of a segment name the account. -/
def Names (host : BridgeHost) (selfId : String) (params : List Char) : Prop :=
  selfId ≠ "" ∧ host.text (Json.get (.obj (parameters params)) "qq") = selfId

structure CqRead (host : BridgeHost) (selfId raw : String) : Prop where
  mention : (readSegments host selfId (segments raw)).mentioned = true ↔
    ∃ params, Occurs raw.toList "at".toList params ∧ Names host selfId params
  item : ∀ kind label, media.lookup kind = some label →
    ((∃ params, cqSegment kind.toList params ∈ segments raw) ↔ ∃ params, Occurs raw.toList kind.toList params)
  parts : (readSegments host selfId (segments raw)).parts = (segments raw).flatMap (partOf host)
  among : ∀ pieces : List Piece, (∀ p ∈ pieces, p.WellFormed) → raw.toList = pieces.flatMap Piece.raw →
    (String.join (readSegments host selfId (segments raw)).parts).toList = pieces.flatMap (Piece.shown host) ∧
      ∀ kind params, Occurs raw.toList kind params ↔ Piece.segment kind params ∈ pieces
  escaped : ∀ text, Escapes text raw.toList → (readSegments host selfId (segments raw)).mentioned = false ∧
    segments raw = [textSegment raw.toList] ∧
      (readSegments host selfId (segments raw)).parts = [String.ofList text]
  delivered : ∀ config payload m, rawMessage payload = .str raw → host.text (payload.get "self_id") = selfId →
    parseBridgeMessage host config payload = some m →
      withoutPrefix config.prefixes (PyStr.textPrefix 4000 (PyStr.strip
        (String.join (readSegments host selfId (segments raw)).parts))) = some m.text ∧
        (groupOf host payload ≠ "" → config.mentionRequired = true →
          (readSegments host selfId (segments raw)).mentioned = true)

theorem mem_segmentsOf {pieces : List Piece} {kind params : List Char} :
    (kind, params) ∈ segmentsOf pieces ↔ Piece.segment kind params ∈ pieces := by
  unfold segmentsOf
  rw [List.mem_filterMap]
  constructor
  · rintro ⟨piece, hpiece, heq⟩
    cases piece with
    | text text raw => cases heq
    | segment kind' params' =>
      obtain ⟨rfl, rfl⟩ := Prod.mk.inj (Option.some.inj heq)
      exact hpiece
  · exact fun h => ⟨_, h, rfl⟩

theorem toList_join (parts : List String) : (String.join parts).toList = parts.flatMap String.toList := by
  induction parts with
  | nil => rfl
  | cons part parts ih => rw [String.join_cons, String.toList_append, ih, List.flatMap_cons]

theorem join_segments (host : BridgeHost) (raw : String) :
    (String.join ((segments raw).flatMap (partOf host))).toList =
      (unescape (String.ofList (cqPattern.pieces 0 none raw.toList).1)).toList ++
        shownOf host (cqPattern.pieces 0 none raw.toList).2 := by
  unfold segments shownOf
  rw [List.flatMap_cons, partOf_text, toList_join, List.flatMap_append, List.flatMap_assoc, List.flatMap_assoc]
  simp only [List.flatMap_cons, List.flatMap_nil, List.append_nil, partOf_text, toList_join]

theorem mention_iff (host : BridgeHost) (selfId raw : String) :
    (segments raw).any (mentions host selfId) = true ↔
      ∃ params, Occurs raw.toList "at".toList params ∧ Names host selfId params := by
  rw [List.any_eq_true]
  constructor
  · intro ⟨segment, hsegment, hmentions⟩
    obtain ⟨text, rfl⟩ | ⟨kind, params, hoccurs, rfl⟩ := mem_segments hsegment
    · rw [mentions_text] at hmentions
      cases hmentions
    · obtain ⟨rfl, hnames⟩ := (mentions_cq host selfId kind params).mp hmentions
      exact ⟨params, hoccurs, hnames⟩
  · intro ⟨params, hoccurs, hnames⟩
    exact ⟨_, cqSegment_mem hoccurs, (mentions_cq host selfId _ params).mpr ⟨rfl, hnames⟩⟩

theorem item_iff {raw kind label : String} (hlabel : media.lookup kind = some label) :
    (∃ params, cqSegment kind.toList params ∈ segments raw) ↔ ∃ params, Occurs raw.toList kind.toList params := by
  constructor
  · rintro ⟨params, hsegment⟩
    obtain ⟨text, htext⟩ | ⟨kind', params', hoccurs, hcq⟩ := mem_segments hsegment
    · have htype := congrArg (fun segment => segment.get "type") htext
      obtain rfl : kind = "text" := by simpa [cqSegment, textSegment, Json.get] using htype
      have hnone : media.lookup "text" = none := by decide
      rw [hnone] at hlabel
      cases hlabel
    · have htype := congrArg (fun segment => segment.get "type") hcq
      obtain rfl : kind = String.ofList kind' := by simpa [cqSegment, Json.get] using htype
      rw [String.toList_ofList]
      exact ⟨params', hoccurs⟩
  · rintro ⟨params, hoccurs⟩
    exact ⟨params, cqSegment_mem hoccurs⟩

theorem segments_escaped {text : List Char} {raw : String} (h : Escapes text raw.toList) :
    segments raw = [textSegment raw.toList] := by
  obtain ⟨before', hfound⟩ := pieces_text h.no_bracket none []
  rw [List.append_nil] at hfound
  unfold segments
  rw [hfound]
  show [textSegment (raw.toList ++ [])] = _
  rw [List.append_nil]

theorem parseBridgeMessage_text {host : BridgeHost} {config : QqFilter} {payload : Json} {m : ConnectorMessage}
    (h : parseBridgeMessage host config payload = some m) :
    withoutPrefix config.prefixes
        (readMessage host (host.text (payload.get "self_id")) (rawMessage payload)).2 = some m.text ∧
      (groupOf host payload ≠ "" → config.mentionRequired = true →
        (readMessage host (host.text (payload.get "self_id")) (rawMessage payload)).1.mentioned = true) := by
  unfold parseBridgeMessage at h
  dsimp only at h
  obtain ⟨-, h⟩ := Option.ite_none_left_eq_some.mp h
  obtain ⟨hgate, h⟩ := Option.ite_none_left_eq_some.mp h
  cases htext : withoutPrefix config.prefixes
      (readMessage host (host.text (payload.get "self_id")) (rawMessage payload)).2 with
  | none =>
    rw [htext] at h
    cases h
  | some text =>
    rw [htext] at h
    obtain ⟨-, h⟩ := Option.ite_none_left_eq_some.mp h
    rw [← Option.some.inj h]
    refine ⟨rfl, fun hgroup hrequired => ?_⟩
    by_contra hmentioned
    exact hgate ⟨hgroup, hrequired, by rw [Bool.eq_false_iff.mpr hmentioned]; rfl⟩

/-- Every message is read as it is written. -/
theorem cq_read (host : BridgeHost) (selfId raw : String) : CqRead host selfId raw := by
  obtain ⟨hparts, hmentioned⟩ := readSegments_all host selfId (segments raw)
  refine
    { mention := ?_
      item := fun kind label hlabel => item_iff hlabel
      parts := hparts
      among := fun pieces hpieces hraw => ?_
      escaped := fun text hescapes => ?_
      delivered := fun config payload m hmessage hself hparse => ?_ }
  · rw [hmentioned]
    exact mention_iff host selfId raw
  · obtain ⟨text, htext, hshown, hsegments⟩ := pieces_found host pieces hpieces none
    rw [← hraw] at htext hshown hsegments
    refine ⟨?_, fun kind params => ?_⟩
    · rw [hparts, join_segments, unescape_escapes htext, String.toList_ofList]
      exact hshown
    · rw [← found_iff kind params none, hsegments]
      exact mem_segmentsOf
  · have hsegments := segments_escaped hescapes
    refine ⟨?_, hsegments, ?_⟩
    · rw [hmentioned, hsegments, List.any_cons, mentions_text]
      rfl
    · rw [hparts, hsegments, List.flatMap_cons, partOf_text, unescape_escapes hescapes]
      rfl
  · have hmessage' := parseBridgeMessage_text hparse
    rw [hmessage, hself] at hmessage'
    exact hmessage'

end Connector
