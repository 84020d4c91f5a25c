import Yuizaki.Prompt.Framing

/- The messages of compiled blocks.

   A message has one opening and one closing marker, its first and its last line, whatever its
   block holds (`render_framed`), and the message of a data block closes its tag once
   (`render_closed`). The names in the headers are the program's own, without brackets
   (`Plain`). -/
namespace Prompt

open Regex Occurs

variable {W : World}

/-! ## Headers -/

def Plain (name : String) : Prop := '[' ∉ name.toList ∧ '<' ∉ name.toList

instance (name : String) : Decidable (Plain name) := inferInstanceAs (Decidable (_ ∧ _))

/-- The names in the header of a block have no brackets. -/
def PromptBlock.Plain (block : PromptBlock) : Prop :=
  Prompt.Plain block.blockId ∧ Prompt.Plain block.source ∧ Prompt.Plain block.trust ∧ Prompt.Plain block.authority

theorem plain_chars {name : String} {cs : List Char} (h : name = String.ofList cs) (hcs : '[' ∉ cs ∧ '<' ∉ cs) : Plain name := by
  unfold Plain
  rw [h, String.toList_ofList]
  exact hcs

theorem Plain.append {a b : String} (ha : Plain a) (hb : Plain b) : Plain (a ++ b) := by
  unfold Plain
  rw [String.toList_append, List.mem_append, List.mem_append, not_or, not_or]
  exact ⟨⟨ha.1, hb.1⟩, ha.2, hb.2⟩

theorem plain_number (n : ℤ) : Plain (toString n) := by
  have hdigits : ∀ m : ℕ, Plain (toString m) := by
    intro m
    have hdigit : ∀ c ∈ (toString m).toList, c.isDigit = true := by
      intro c hc
      rw [show toString m = Nat.repr m from rfl, Nat.toList_repr] at hc
      exact Nat.isDigit_of_mem_toDigits (by decide) (by decide) hc
    exact ⟨fun h => absurd (hdigit _ h) (by decide), fun h => absurd (hdigit _ h) (by decide)⟩
  cases n with
  | ofNat m => exact hdigits m
  | negSucc m => exact Plain.append (a := "-") (by decide) (hdigits (m + 1))

def PromptBlock.headerRest (block : PromptBlock) : String :=
  "id=" ++ block.blockId ++ " source=" ++ block.source ++ " trust=" ++ block.trust ++
    " authority=" ++ block.authority ++ " order=" ++ toString block.order ++ "]"

def PromptBlock.footerRest (block : PromptBlock) : String := "id=" ++ block.blockId ++ "]"

theorem PromptBlock.header_eq (block : PromptBlock) :
    block.header = '[' :: ("PROMPT_BLOCK".toList ++ ' ' :: block.headerRest.toList) := by
  unfold PromptBlock.header PromptBlock.headerRest
  simp only [String.toList_append]
  rfl

theorem PromptBlock.footer_eq (block : PromptBlock) :
    block.footer = '[' :: ("END_PROMPT_BLOCK".toList ++ ' ' :: block.footerRest.toList) := by
  unfold PromptBlock.footer PromptBlock.footerRest
  simp only [String.toList_append]
  rfl

theorem PromptBlock.Plain.header {block : PromptBlock} (h : block.Plain) : Prompt.Plain block.headerRest := by
  obtain ⟨hid, hsource, htrust, hauthority⟩ := h
  have hfirst := ((Plain.append (a := "id=") (by decide) hid).append (b := " source=") (by decide)).append hsource
  have hsecond := ((hfirst.append (b := " trust=") (by decide)).append htrust).append (b := " authority=") (by decide)
  exact (((hsecond.append hauthority).append (b := " order=") (by decide)).append (plain_number block.order)).append
    (b := "]") (by decide)

theorem PromptBlock.Plain.footer {block : PromptBlock} (h : block.Plain) : Prompt.Plain block.footerRest :=
  ((Plain.append (a := "id=") (by decide) h.1).append (b := "]") (by decide))

/-! ## Markers -/

theorem named_first {name : Text} (b : Char) (rest : Text) (h : named W name (b :: rest) = true) : b = '[' :=
  of_decide_eq_true (Bool.and_eq_true_iff.mp h).1

theorem named_here {name found : Text} (hletters : List.Forall₂ (fun n c => sameLetter n c = true) name found)
    (rest : Text) : named W name ('[' :: (found ++ ' ' :: rest)) = true := by
  refine Bool.and_eq_true_iff.mpr ⟨rfl, ?_⟩
  rw [takeName_eq_some.mpr ⟨rfl, hletters⟩]
  show (!(W.word ' ')) = true
  rw [word_space (by decide)]
  rfl

theorem count_message {name : Text} {first body last : Text} (hname : ∀ n ∈ name, sameLetter n '\n' = false)
    (hclean : ∀ s, s <:+ body → named W name s = false) (hfirst : '[' ∉ first) (hlast : '[' ∉ last) :
    count (named W name) ('[' :: first ++ '\n' :: body ++ '\n' :: '[' :: last) =
      (if named W name ('[' :: (first ++ ('\n' :: (body ++ '\n' :: '[' :: last)))) then 1 else 0) +
        if named W name ('[' :: last) then 1 else 0 := by
  have hend : count (named W name) last = 0 := by
    have hopens (b : Char) (rest : Text) : named W name (b :: rest) = true → b = '[' := named_first b rest
    have hnone := count_append_first (l := last) (m := []) hopens hlast
    rw [List.append_nil] at hnone
    exact hnone
  have hline : ∀ rest : Text, named W name ('\n' :: rest) = false := fun rest =>
    Bool.eq_false_iff.mpr fun h => absurd (named_first _ _ h) (by decide)
  have hbody : count (named W name) (body ++ '\n' :: '[' :: last) = count (named W name) ('\n' :: '[' :: last) := by
    refine count_append fun s hs hne => Bool.eq_false_iff.mpr fun h => ?_
    exact Bool.eq_false_iff.mp (hclean s hs) (named_line hname h hne)
  have hrest : count (named W name) (first ++ ('\n' :: (body ++ '\n' :: '[' :: last))) =
      if named W name ('[' :: last) then 1 else 0 := by
    rw [count_append_first (fun b rest => named_first b rest) hfirst, count_cons_neg (hline _), hbody, count_cons_neg (hline _)]
    show (if named W name ('[' :: last) then 1 else 0) + count (named W name) last = _
    rw [hend, Nat.add_zero]
  rw [List.append_assoc, List.cons_append, List.cons_append]
  show (if named W name ('[' :: (first ++ ('\n' :: (body ++ '\n' :: '[' :: last)))) then 1 else 0) + count (named W name) _ = _
  rw [hrest]

/-- The message of a block: its first and its last line are its only markers. -/
structure Framed (W : World) (block : PromptBlock) (content : Text) : Prop where
  opened : count (openingMarker W).begins content = 1
  closed : count (closingMarker W).begins content = 1
  starts : block.header <+: content ∧ (openingMarker W).begins content = true
  ends : block.footer <:+ content ∧ (closingMarker W).begins block.footer = true

theorem render_framed (block : PromptBlock) (h : block.Plain) : Framed W block (block.render W) := by
  have hopening : (openingMarker W).begins = named W "prompt_block".toList :=
    funext (begins_marker promptBlock_endsInK)
  have hclosing : (closingMarker W).begins = named W "end_prompt_block".toList :=
    funext (begins_marker endPromptBlock_endsInK)
  have hclean := (clean_neutralize (W := W) block.content).strip
  have hfirst : '[' ∉ "PROMPT_BLOCK".toList ++ ' ' :: block.headerRest.toList := by
    rw [List.mem_append, List.mem_cons, not_or, not_or]
    exact ⟨by decide, by decide, h.header.1⟩
  have hlast : '[' ∉ "END_PROMPT_BLOCK".toList ++ ' ' :: block.footerRest.toList := by
    rw [List.mem_append, List.mem_cons, not_or, not_or]
    exact ⟨by decide, by decide, h.footer.1⟩
  have hletters : List.Forall₂ (fun n c => sameLetter n c = true) "prompt_block".toList "PROMPT_BLOCK".toList := by decide
  have hends : List.Forall₂ (fun n c => sameLetter n c = true) "end_prompt_block".toList "END_PROMPT_BLOCK".toList := by decide
  have hrender : block.render W = '[' :: ("PROMPT_BLOCK".toList ++ ' ' :: block.headerRest.toList) ++
      '\n' :: PyStr.stripChars (neutralizePromptMarkers W block.content) ++
        '\n' :: '[' :: ("END_PROMPT_BLOCK".toList ++ ' ' :: block.footerRest.toList) := by
    unfold PromptBlock.render
    rw [block.header_eq, block.footer_eq]
  refine ⟨?_, ?_, ⟨?_, ?_⟩, ?_, ?_⟩
  · rw [hopening, hrender, count_message (none_of_any (by decide)) (fun s hs => (hclean s hs).2) hfirst hlast,
      List.append_assoc, List.cons_append, named_here hletters]
    rfl
  · rw [hclosing, hrender, count_message (none_of_any (by decide)) (fun s hs => (hclean s hs).1) hfirst hlast, named_here hends]
    rfl
  · exact ⟨_, (List.append_assoc _ _ _).symm⟩
  · rw [hopening, hrender, List.append_assoc, List.cons_append, List.append_assoc, List.cons_append, named_here hletters]
  · refine ⟨block.header ++ '\n' :: PyStr.stripChars (neutralizePromptMarkers W block.content) ++ ['\n'], ?_⟩
    rw [List.append_assoc]
    rfl
  · rw [hclosing, block.footer_eq, named_here hends]

/-! ## Tags -/

theorem pattern_first (b : Char) (rest : Text) (h : (promptMarkerPattern W).begins (b :: rest) = true) : b = '[' :=
  pattern_single.begins_first b rest h

theorem count_tag_none {content rest : Text} (h : '<' ∉ content) :
    count closingTag.isPrefixOf (content ++ rest) = count closingTag.isPrefixOf rest := by
  refine count_append_first (fun b after hb => ?_) h
  have hword : ('<' == b && ("/untrusted_text>".toList).isPrefixOf after) = true := hb
  exact (beq_iff_eq.mp (Bool.and_eq_true_iff.mp hword).1).symm

theorem mem_escape (content : Text) : '<' ∉ escape content := by
  intro h
  obtain ⟨c, -, hc⟩ := List.mem_flatMap.mp h
  unfold escapeChar at hc
  split at hc
  · exact absurd hc (by decide)
  · split at hc
    · exact absurd hc (by decide)
    · split at hc
      · exact absurd hc (by decide)
      · rename_i hother _
        exact hother (List.mem_singleton.mp hc).symm

set_option maxRecDepth 2000 in
theorem dataHeader_plain {guidance : String} (hguidance : '<' ∉ guidance.toList) : '<' ∉ dataHeader guidance := by
  unfold dataHeader
  rw [List.mem_append, not_or]
  refine ⟨(plain_chars rfl (by decide +kernel)).2, ?_⟩
  split
  · exact List.not_mem_nil
  · rw [String.toList_append, List.mem_append, not_or]
    exact ⟨(plain_chars rfl (by decide +kernel)).2, hguidance⟩

theorem contextDataBlock_closed {source guidance : String} {content : Value} (hsource : '<' ∉ source.toList)
    (hguidance : '<' ∉ guidance.toList) (hsome : contextDataBlock W source content guidance ≠ []) :
    count closingTag.isPrefixOf (contextDataBlock W source content guidance) = 1 := by
  have hheader := dataHeader_plain hguidance
  unfold contextDataBlock at hsome ⊢
  dsimp only at hsome ⊢
  by_cases hnone : neutralizePromptMarkers W (W.cleanText content 12000) = []
  · rw [if_pos hnone] at hsome
    exact absurd rfl hsome
  · rw [if_neg hnone]
    generalize neutralizePromptMarkers W (W.cleanText content 12000) = data
    have hopening : ("\n<untrusted_text source=\"" ++ source ++ "\">\n").toList =
        '\n' :: '<' :: ("untrusted_text source=\"".toList ++ (source.toList ++ "\">\n".toList)) := by
      rw [String.toList_append, String.toList_append, List.append_assoc]
      rfl
    have hrest : '<' ∉ "untrusted_text source=\"".toList ++ (source.toList ++ "\">\n".toList) := by
      rw [List.mem_append, List.mem_append, not_or, not_or]
      exact ⟨by decide, hsource, by decide⟩
    have hfalse : ∀ after : Text, closingTag.isPrefixOf ('<' :: ("untrusted_text source=\"".toList ++ after)) = false :=
      fun after => rfl
    rw [List.append_assoc, List.append_assoc, count_tag_none hheader, hopening, List.cons_append,
      count_cons_neg (by rfl), List.cons_append, List.append_assoc, count_cons_neg (hfalse _), ← List.append_assoc,
      count_tag_none hrest, count_tag_none (mem_escape data), count_cons_neg (by rfl)]
    decide

theorem count_tag_zero {content : Text} (h : '<' ∉ content) : count closingTag.isPrefixOf content = 0 := by
  have hnone := @count_tag_none content [] h
  rw [List.append_nil] at hnone
  exact hnone

theorem count_tag_strip (content : Text) :
    count closingTag.isPrefixOf (PyStr.stripChars content) = count closingTag.isPrefixOf content := by
  obtain ⟨front, back, hcut, hfront, hback⟩ := strip_cut content
  have hnone : ∀ blanks : Text, (∀ c ∈ blanks, PyStr.isSpace c = true) → '<' ∉ blanks := fun blanks hblanks hmem =>
    absurd (hblanks '<' hmem) (by decide)
  have hstripped : count closingTag.isPrefixOf (PyStr.stripChars content ++ back) =
      count closingTag.isPrefixOf (PyStr.stripChars content) := by
    cases back with
    | nil => rw [List.append_nil]
    | cons c back =>
      have hc : c ∉ closingTag := by
        have htag : ∀ d ∈ closingTag, PyStr.isSpace d = false := none_of_any (by decide)
        intro hmem
        have hspace := hback c List.mem_cons_self
        rw [htag c hmem] at hspace
        cases hspace
      rw [count_word_append hc, count_tag_zero (hnone _ hback), Nat.add_zero]
  conv_rhs => rw [hcut]
  rw [List.append_assoc, count_tag_none (hnone _ hfront), hstripped]

theorem render_closed {block : PromptBlock} {source guidance : String} {content : Value} (h : block.Plain)
    (hsource : '<' ∉ source.toList) (hguidance : '<' ∉ guidance.toList)
    (hcontent : block.content = contextDataBlock W source content guidance) (hsome : block.content ≠ []) :
    count closingTag.isPrefixOf (block.render W) = 1 := by
  have hheader : '<' ∉ block.header := by
    rw [block.header_eq, List.mem_cons, List.mem_append, List.mem_cons, not_or, not_or, not_or]
    exact ⟨by decide, by decide, by decide, h.header.2⟩
  have hfooter : '<' ∉ '\n' :: block.footer := by
    rw [block.footer_eq, List.mem_cons, List.mem_cons, List.mem_append, List.mem_cons, not_or, not_or, not_or, not_or]
    exact ⟨by decide, by decide, by decide, by decide, h.footer.2⟩
  have hneutral : count closingTag.isPrefixOf (neutralizePromptMarkers W block.content) =
      count closingTag.isPrefixOf block.content := by
    rw [neutralize_eq]
    exact count_word_hide pattern_first (by decide) (by decide) block.content
  unfold PromptBlock.render
  rw [List.append_assoc, count_tag_none hheader, List.cons_append, count_cons_neg (by rfl),
    count_word_append (by decide), count_tag_zero hfooter, Nat.add_zero, count_tag_strip, hneutral, hcontent]
  rw [hcontent] at hsome
  exact contextDataBlock_closed hsource hguidance hsome

/-! ## Order -/

theorem before_total (a b : PromptBlock) : a.before b ∨ b.before a := by
  unfold PromptBlock.before
  obtain hlt | heq | hgt := Int.lt_trichotomy a.order b.order
  · exact Or.inl (Or.inl hlt)
  · obtain hle | hle := String.le_total a.blockId b.blockId
    · exact Or.inl (Or.inr ⟨heq, hle⟩)
    · exact Or.inr (Or.inr ⟨heq.symm, hle⟩)
  · exact Or.inr (Or.inl hgt)

theorem before_trans {a b c : PromptBlock} (hab : a.before b) (hbc : b.before c) : a.before c := by
  unfold PromptBlock.before at hab hbc ⊢
  obtain hab | ⟨hab, hid⟩ := hab
  · obtain hbc | ⟨hbc, -⟩ := hbc
    · exact Or.inl (by omega)
    · exact Or.inl (by omega)
  · obtain hbc | ⟨hbc, hid'⟩ := hbc
    · exact Or.inl (by omega)
    · exact Or.inr ⟨by omega, String.le_trans hid hid'⟩

/-- The blocks with some content, in their order. -/
def orderedBlocks (blocks : List PromptBlock) : List PromptBlock :=
  (blocks.insertionSort PromptBlock.before).filter PromptBlock.hasContent

theorem ordered_sorted (blocks : List PromptBlock) : (orderedBlocks blocks).Pairwise PromptBlock.before := by
  have : Std.Total PromptBlock.before := ⟨before_total⟩
  have : IsTrans PromptBlock PromptBlock.before := ⟨fun _ _ _ hab hbc => before_trans hab hbc⟩
  exact (List.pairwise_insertionSort PromptBlock.before blocks).filter _

theorem mem_ordered {blocks : List PromptBlock} {block : PromptBlock} :
    block ∈ orderedBlocks blocks ↔ block ∈ blocks ∧ block.hasContent = true := by
  unfold orderedBlocks
  rw [List.mem_filter, List.mem_insertionSort]

end Prompt
