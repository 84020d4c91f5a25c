import Yuizaki.Lib.Fallible
import Yuizaki.Prompt.Compiled
import Yuizaki.Prompt.Selection

/- `_world_book_prompt` computes the section that a world book should have, where nothing
   disturbs it, and no other text is that section. -/
namespace Prompt

open PySlice Fallible

variable {B : Book} {worldBook : Members} {messages : List Members} {haystack : Text}

/-! ## Matching -/

theorem entryProbabilityAllows_ok {entry : Members} (h : ¬ TooLargeFloat B (field entry "probability")) :
    entryProbabilityAllows B entry haystack =
      .ok (rollAllows B entry haystack (clampFloat B (field entry "probability") 100 0 100)) := by
  unfold entryProbabilityAllows
  rw [asFloat_ok h]
  rfl

theorem entryProbabilityAllows_overflow {entry : Members} (h : TooLargeFloat B (field entry "probability")) :
    entryProbabilityAllows B entry haystack = .error .overflowError := by
  unfold entryProbabilityAllows
  rw [asFloat_overflow h]
  rfl

theorem worldEntryMatches_eq (entry : Members) : worldEntryMatches B entry haystack =
    if keysAllow B entry haystack then entryProbabilityAllows B entry haystack else pure false := by
  have hallow : keysAllow B entry haystack = (isTrue (field entry "constant") ||
      decide (boundedWorldBookKeys B entry "keys" = []) ||
        ((boundedWorldBookKeys B entry "keys").any (fun key => entryKeyMatches B haystack key
            (isTrue (field entry "caseSensitive")) (isTrue (field entry "matchWholeWords"))) &&
          (!(isTrue (field entry "selective") && !(boundedWorldBookKeys B entry "secondaryKeys").isEmpty) ||
            (boundedWorldBookKeys B entry "secondaryKeys").any fun key => entryKeyMatches B haystack key
              (isTrue (field entry "caseSensitive")) (isTrue (field entry "matchWholeWords"))))) := rfl
  rw [hallow]
  unfold worldEntryMatches
  dsimp only
  cases isTrue (field entry "constant") with
  | true => rfl
  | false =>
    rw [if_neg Bool.false_ne_true, Bool.false_or]
    by_cases hkeys : boundedWorldBookKeys B entry "keys" = []
    · rw [if_pos hkeys, decide_eq_true hkeys, Bool.true_or, if_pos rfl]
    · rw [if_neg hkeys, decide_eq_false hkeys, Bool.false_or]
      generalize (boundedWorldBookKeys B entry "keys").any _ = primary
      generalize (isTrue (field entry "selective") && !(boundedWorldBookKeys B entry "secondaryKeys").isEmpty) = asked
      generalize (boundedWorldBookKeys B entry "secondaryKeys").any _ = secondary
      cases primary with
      | false => rfl
      | true =>
        cases asked with
        | false => rfl
        | true =>
          cases secondary with
          | false => rfl
          | true => rfl

theorem scanEntries_ok (scanned : ℕ) (raws : List Value)
    (h : ∀ entry ∈ ((raws.map asDict).filter (usable B)).take (200 - scanned), keysAllow B entry haystack = true →
      ¬ TooLargeFloat B (field entry "probability")) :
    scanEntries B haystack scanned raws = .ok ((((raws.map asDict).filter (usable B)).take (200 - scanned)).filter fun entry =>
      entryMatches B entry haystack) := by
  induction raws generalizing scanned with
  | nil =>
    rw [List.map_nil, List.filter_nil, List.take_nil]
    rfl
  | cons raw rest ih =>
    unfold scanEntries
    by_cases hfull : 200 ≤ scanned
    · rw [if_pos hfull, Nat.sub_eq_zero_of_le hfull, List.take_zero]
      rfl
    · rw [if_neg hfull]
      rw [List.map_cons] at h ⊢
      cases husable : usable B (asDict raw) with
      | false =>
        rw [List.filter_cons_of_neg (by rw [husable]; decide)] at h ⊢
        exact ih scanned h
      | true =>
        have hroom : 200 - scanned = (200 - (scanned + 1)) + 1 := by omega
        rw [List.filter_cons_of_pos husable, hroom, List.take_succ_cons] at h ⊢
        rw [List.forall_mem_cons] at h
        obtain ⟨hfirst, hrest⟩ := h
        have hmatch : worldEntryMatches B (asDict raw) haystack = .ok (entryMatches B (asDict raw) haystack) := by
          rw [worldEntryMatches_eq]
          unfold entryMatches
          cases hkeys : keysAllow B (asDict raw) haystack with
          | false => rfl
          | true =>
            rw [if_pos rfl, entryProbabilityAllows_ok (hfirst hkeys)]
            rfl
        rw [hmatch, ih (scanned + 1) hrest, Bool.not_true, if_neg Bool.false_ne_true, List.filter_cons]
        rfl

theorem scanEntries_overflow (scanned : ℕ) (raws : List Value) {entry : Members}
    (hentry : entry ∈ ((raws.map asDict).filter (usable B)).take (200 - scanned)) (hkeys : keysAllow B entry haystack = true)
    (hover : TooLargeFloat B (field entry "probability")) :
    scanEntries B haystack scanned raws = .error .overflowError := by
  induction raws generalizing scanned with
  | nil =>
    rw [List.map_nil, List.filter_nil, List.take_nil] at hentry
    cases hentry
  | cons raw rest ih =>
    unfold scanEntries
    by_cases hfull : 200 ≤ scanned
    · rw [Nat.sub_eq_zero_of_le hfull, List.take_zero] at hentry
      cases hentry
    · rw [if_neg hfull]
      rw [List.map_cons] at hentry
      cases husable : usable B (asDict raw) with
      | false =>
        rw [List.filter_cons_of_neg (by rw [husable]; decide)] at hentry
        exact ih scanned hentry
      | true =>
        have hroom : 200 - scanned = (200 - (scanned + 1)) + 1 := by omega
        rw [List.filter_cons_of_pos husable, hroom, List.take_succ_cons, List.mem_cons] at hentry
        rw [Bool.not_true, if_neg Bool.false_ne_true]
        have hraises : worldEntryMatches B (asDict raw) haystack = .error .overflowError ∨
            ∃ matched, worldEntryMatches B (asDict raw) haystack = .ok matched := by
          rw [worldEntryMatches_eq]
          split
          · by_cases hlarge : TooLargeFloat B (field (asDict raw) "probability")
            · exact Or.inl (entryProbabilityAllows_overflow hlarge)
            · exact Or.inr ⟨_, entryProbabilityAllows_ok hlarge⟩
          · exact Or.inr ⟨false, rfl⟩
        obtain hraises | ⟨matched, hmatched⟩ := hraises
        · rw [hraises]
          rfl
        · obtain rfl | hentry := hentry
          · rw [worldEntryMatches_eq, if_pos hkeys, entryProbabilityAllows_overflow hover] at hmatched
            cases hmatched
          · rw [hmatched, ih (scanned + 1) hentry]
            rfl

/-! ## Sorting -/

theorem priority_ok {entry : Members} (hpriority : ¬ TooLargeInt B (field entry "priority"))
    (horder : ¬ TooLargeInt B (field entry "insertionOrder")) : priority B entry = .ok (entryKey B entry) := by
  unfold priority
  rw [intOrZero_ok hpriority, intOrZero_ok horder]
  rfl

theorem priority_overflow {entry : Members}
    (h : TooLargeInt B (field entry "priority") ∨ TooLargeInt B (field entry "insertionOrder")) :
    priority B entry = .error .overflowError := by
  unfold priority
  by_cases hpriority : TooLargeInt B (field entry "priority")
  · rw [intOrZero_overflow hpriority]
    rfl
  · rw [intOrZero_ok hpriority, intOrZero_overflow (h.resolve_left hpriority)]
    rfl

theorem entryKey_total (a b : EntryKey) : a.le b ∨ b.le a := by
  unfold EntryKey.le
  have htitle := String.le_total a.title b.title
  grind

theorem entryKey_trans {a b c : EntryKey} (hab : a.le b) (hbc : b.le c) : a.le c := by
  unfold EntryKey.le at hab hbc ⊢
  have htitle : a.title ≤ b.title → b.title ≤ c.title → a.title ≤ c.title := String.le_trans
  grind

theorem sortEntries_ok {entries : List Members} (hpriority : ∀ entry ∈ entries, ¬ TooLargeInt B (field entry "priority"))
    (horder : ∀ entry ∈ entries, ¬ TooLargeInt B (field entry "insertionOrder")) :
    sortEntries B entries = .ok (entries.insertionSort (entryBefore B)) := by
  have hpairs : entries.mapM (keyed B) = .ok (entries.map fun entry => (entryKey B entry, entry)) := by
    induction entries with
    | nil => rfl
    | cons entry rest ih =>
      rw [List.forall_mem_cons] at hpriority horder
      have hkeyed : keyed B entry = .ok (entryKey B entry, entry) := by
        unfold keyed
        rw [priority_ok hpriority.1 horder.1]
        rfl
      rw [List.mapM_cons, hkeyed, ih hpriority.2 horder.2]
      rfl
  unfold sortEntries
  rw [hpairs]
  show Except.ok (((entries.map fun entry => (entryKey B entry, entry)).insertionSort fun a b => a.1.le b.1).map Prod.snd) = _
  rw [← List.map_insertionSort (r := entryBefore B) (s := fun a b => a.1.le b.1) (fun entry => (entryKey B entry, entry)) entries
    (fun _ _ _ _ => Iff.rfl), List.map_map]
  exact congrArg Except.ok (List.map_id _)

theorem sortEntries_overflow {entries : List Members} {entry : Members} (hentry : entry ∈ entries)
    (h : TooLargeInt B (field entry "priority") ∨ TooLargeInt B (field entry "insertionOrder")) :
    sortEntries B entries = .error .overflowError := by
  have hpairs : entries.mapM (keyed B) = .error .overflowError := by
    induction entries with
    | nil => cases hentry
    | cons other rest ih =>
      rw [List.mapM_cons]
      by_cases hother : TooLargeInt B (field other "priority") ∨ TooLargeInt B (field other "insertionOrder")
      · have hkeyed : keyed B other = .error .overflowError := by
          unfold keyed
          rw [priority_overflow hother]
          rfl
        rw [hkeyed]
        rfl
      · have hkeyed : keyed B other = .ok (entryKey B other, other) := by
          unfold keyed
          rw [priority_ok (fun hp => hother (Or.inl hp)) (fun hp => hother (Or.inr hp))]
          rfl
        obtain rfl | hentry := List.mem_cons.mp hentry
        · exact absurd h hother
        · rw [hkeyed, ih hentry]
          rfl
  unfold sortEntries
  rw [hpairs]
  rfl

/-! ## Filling -/

theorem firstLine_length (budget : ℕ) (entry : Members) : (firstLine B budget entry).length ≤ budget := by
  unfold firstLine
  split
  · exact (List.rdropWhile_prefix _ _).length_le.trans (List.length_take_le _ _)
  · omega

theorem fillLine_rest {budget used : ℕ} {lines : List Text} (hlines : lines ≠ []) (hused : used ≤ budget)
    (entries : List Members) :
    (entries.foldl (fillLine B budget) (lines, used)).1 = lines ++
      (Greedy.fill (fun entry => (entryBlock B entry).length + 2) (budget - used) entries).map (entryBlock B) := by
  induction entries generalizing lines used with
  | nil => exact (List.append_nil lines).symm
  | cons entry rest ih =>
    rw [List.foldl_cons]
    unfold Greedy.fill
    have hstep : fillLine B budget (lines, used) entry =
        if (entryBlock B entry).length + 2 ≤ budget - used then
          (lines ++ [entryBlock B entry], used + ((entryBlock B entry).length + 2)) else (lines, used) := by
      unfold fillLine
      dsimp only
      rw [if_neg hlines]
      by_cases hfits : (entryBlock B entry).length + 2 ≤ budget - used
      · rw [if_neg (fun h => by omega), if_neg (fun h => hlines h.1), if_pos hfits]
      · rw [if_pos ⟨hlines, by omega⟩, if_neg hfits]
    rw [hstep]
    split
    · rename_i hfits
      rw [ih (List.append_ne_nil_of_left_ne_nil hlines _) (by omega), List.map_cons, List.append_assoc, Nat.sub_add_eq]
      rfl
    · exact ih hlines hused

theorem fillLine_all (budget : ℕ) (entries : List Members) :
    (entries.foldl (fillLine B budget) ([], 0)).1 = linesOf B budget (choose B budget entries) := by
  cases entries with
  | nil => rfl
  | cons first rest =>
    have hstep : fillLine B budget ([], 0) first = ([firstLine B budget first], (firstLine B budget first).length) := by
      unfold fillLine firstLine
      dsimp only
      rw [if_pos rfl, if_neg (fun h => h.1 rfl), Nat.add_zero, Nat.zero_add, Nat.zero_add, PySlice.sliceTo_natCast]
      by_cases hlarge : budget < (entryBlock B first).length
      · rw [if_pos ⟨rfl, by omega⟩, if_pos hlarge, List.nil_append]
      · rw [if_neg (fun h => by omega), if_neg hlarge, List.nil_append]
    rw [List.foldl_cons, hstep, fillLine_rest (List.cons_ne_nil _ _) (firstLine_length budget first)]
    rfl

theorem joinWith_cons (separator first : Text) (rest : List Text) :
    joinWith separator (first :: rest) = first ++ rest.flatMap fun line => separator ++ line := by
  unfold joinWith
  induction rest generalizing first with
  | nil =>
    show [first].flatten = first ++ []
    rw [List.flatten_singleton, List.append_nil]
  | cons line rest ih =>
    have hstep : separator.intercalate (first :: line :: rest) = first ++ (separator ++ separator.intercalate (line :: rest)) :=
      rfl
    rw [hstep, ih line, List.flatMap_cons, List.append_assoc]

theorem joined_length (budget : ℕ) (entries : List Members) :
    (joinWith "\n\n".toList (linesOf B budget (choose B budget entries))).length ≤ budget := by
  cases entries with
  | nil => exact Nat.zero_le _
  | cons first rest =>
    have hfirst := firstLine_length (B := B) budget first
    have hcost := Greedy.cost_fill (fun entry => (entryBlock B entry).length + 2)
      (budget - (firstLine B budget first).length) rest
    show (joinWith "\n\n".toList (firstLine B budget first :: (Greedy.fill _ _ rest).map (entryBlock B))).length ≤ budget
    generalize Greedy.fill _ _ rest = others at hcost
    have hothers : ((others.map (entryBlock B)).flatMap fun line => "\n\n".toList ++ line).length =
        (others.map fun entry => (entryBlock B entry).length + 2).sum := by
      rw [List.length_flatMap, List.map_map]
      rfl
    rw [joinWith_cons, List.length_append, hothers]
    omega

/-! ## Blanks -/

/-- A text that neither begins nor ends with a blank. -/
structure Tight (content : Text) : Prop where
  first : ∀ c ∈ content.head?, PyStr.isSpace c = false
  last : ∀ c ∈ content.getLast?, PyStr.isSpace c = false

theorem Tight.strip {content : Text} (h : Tight content) : PyStr.stripChars content = content := by
  have hdrop : ∀ text : Text, (∀ c ∈ text.head?, PyStr.isSpace c = false) → text.dropWhile PyStr.isSpace = text := by
    intro text htext
    cases text with
    | nil => rfl
    | cons c rest =>
      rw [List.dropWhile_cons_of_neg]
      rw [htext c rfl]
      exact Bool.false_ne_true
  unfold PyStr.stripChars
  rw [hdrop content h.first, hdrop content.reverse, List.reverse_reverse]
  intro c hc
  rw [List.head?_reverse] at hc
  exact h.last c hc

theorem strip_last (content : Text) : ∀ c ∈ (PyStr.stripChars content).getLast?, PyStr.isSpace c = false := by
  intro c hc
  unfold PyStr.stripChars at hc
  rw [List.getLast?_reverse] at hc
  have hnot := List.head?_dropWhile_not PyStr.isSpace (content.dropWhile PyStr.isSpace).reverse
  rw [Option.mem_def.mp hc] at hnot
  exact hnot

theorem entryBlock_tight {entry : Members} (h : usable B entry = true) : Tight (entryBlock B entry) := by
  have hcontent : entryContent B entry ≠ [] := by
    intro hnil
    unfold usable at h
    rw [hnil, List.isEmpty_nil, Bool.not_true, Bool.and_false] at h
    cases h
  constructor
  · intro c hc
    obtain rfl : '[' = c := Option.some.inj hc
    decide
  · intro c hc
    have hlast : (entryBlock B entry).getLast? = (entryContent B entry).getLast? :=
      List.getLast?_append_of_ne_nil _ hcontent
    rw [hlast] at hc
    exact strip_last _ c hc

theorem firstLine_tight {budget : ℕ} (hbudget : 0 < budget) {entry : Members} (h : usable B entry = true) :
    firstLine B budget entry ≠ [] ∧ Tight (firstLine B budget entry) := by
  unfold firstLine
  split
  · obtain ⟨budget, rfl⟩ := Nat.exists_eq_add_of_lt hbudget
    have hbracket : ((entryBlock B entry).take (0 + budget + 1)).head? = some '[' := rfl
    have hmem : '[' ∈ (entryBlock B entry).take (0 + budget + 1) := List.mem_of_mem_head? hbracket
    have hne : ((entryBlock B entry).take (0 + budget + 1)).rdropWhile PyStr.isSpace ≠ [] := by
      intro hnil
      exact absurd (List.rdropWhile_eq_nil_iff.mp hnil '[' hmem) (by decide)
    refine ⟨hne, fun c hc => ?_, fun c hc => ?_⟩
    · obtain ⟨rest, hrest⟩ := List.rdropWhile_prefix PyStr.isSpace ((entryBlock B entry).take (0 + budget + 1))
      have hhead : ((entryBlock B entry).take (0 + budget + 1)).head? = some c := by
        rw [← hrest, List.head?_append_of_ne_nil _ hne]
        exact hc
      obtain rfl := Option.some.inj (hbracket.symm.trans hhead)
      decide
    · have hnot := List.rdropWhile_last_not PyStr.isSpace ((entryBlock B entry).take (0 + budget + 1)) hne
      rw [List.getLast?_eq_some_getLast hne] at hc
      rw [← Option.some.inj hc]
      exact Bool.eq_false_iff.mpr hnot
  · exact ⟨List.cons_ne_nil _ _, entryBlock_tight h⟩

theorem joinWith_tight {separator first : Text} {rest : List Text} (hne : first ≠ []) (hfirst : Tight first)
    (hrest : ∀ line ∈ rest, line ≠ [] ∧ Tight line) : Tight (joinWith separator (first :: rest)) := by
  rw [joinWith_cons]
  constructor
  · intro c hc
    rw [List.head?_append_of_ne_nil _ hne] at hc
    exact hfirst.first c hc
  · obtain rfl | ⟨init, last, rfl⟩ := rest.eq_nil_or_concat
    · rw [List.flatMap_nil, List.append_nil]
      exact hfirst.last
    · obtain ⟨hlast, htight⟩ := hrest last (by simp)
      intro c hc
      rw [List.concat_eq_append, List.flatMap_append, List.flatMap_singleton, ← List.append_assoc, ← List.append_assoc,
        List.getLast?_append_of_ne_nil _ hlast] at hc
      exact htight.last c hc

/-! ## The section -/

theorem usable_of_matched {entry : Members} (h : entry ∈ matchedEntries B worldBook messages) : usable B entry = true := by
  have hscanned : entry ∈ scannedEntries B worldBook := (List.mem_filter.mp h).1
  exact (List.mem_filter.mp (List.mem_of_mem_take hscanned)).2

theorem mem_sorted {entry : Members} (h : entry ∈ sliceTo (mostEntries B worldBook)
    ((matchedEntries B worldBook messages).insertionSort (entryBefore B))) : entry ∈ matchedEntries B worldBook messages := by
  unfold sliceTo at h
  exact (List.mem_insertionSort _).mp (List.mem_of_mem_take h)

theorem choose_sublist (budget : ℕ) (entries : List Members) : (choose B budget entries).Sublist entries := by
  cases entries with
  | nil => exact List.Sublist.refl []
  | cons first rest => exact (Greedy.fill_sublist _ _ rest).cons_cons first

theorem budgetOf_pos : 0 < budgetOf B worldBook := by
  unfold budgetOf
  omega

theorem chosenText_tight (h : matchedEntries B worldBook messages ≠ []) :
    chosenText B worldBook messages ≠ [] ∧ Tight (chosenText B worldBook messages) := by
  have hmost : 1 ≤ mostEntries B worldBook := Int.le_max_left 1 _
  have hsome : sliceTo (mostEntries B worldBook) ((matchedEntries B worldBook messages).insertionSort (entryBefore B)) ≠ [] := by
    unfold sliceTo
    rw [if_neg (by omega)]
    intro hnil
    obtain hzero | hnone := List.take_eq_nil_iff.mp hnil
    · omega
    · have hlength := List.length_insertionSort (entryBefore B) (matchedEntries B worldBook messages)
      rw [hnone] at hlength
      exact h (List.length_eq_zero_iff.mp hlength.symm)
  unfold chosenText chosenEntries
  have husable : ∀ entry ∈ sliceTo (mostEntries B worldBook)
      ((matchedEntries B worldBook messages).insertionSort (entryBefore B)), usable B entry = true :=
    fun entry hentry => usable_of_matched (mem_sorted hentry)
  generalize sliceTo (mostEntries B worldBook) _ = entries at hsome husable
  obtain ⟨first, rest, rfl⟩ := List.exists_cons_of_ne_nil hsome
  obtain ⟨hne, htight⟩ := firstLine_tight (show 0 < budgetOf B worldBook from budgetOf_pos) (husable first List.mem_cons_self)
  refine ⟨?_, joinWith_tight hne htight fun line hline => ?_⟩
  · show joinWith "\n\n".toList (firstLine B _ first :: _) ≠ []
    rw [joinWith_cons]
    exact List.append_ne_nil_of_left_ne_nil hne _
  · obtain ⟨entry, hentry, rfl⟩ := List.mem_map.mp hline
    have hmem := (Greedy.fill_sublist _ _ rest).subset hentry
    exact ⟨List.cons_ne_nil _ _, entryBlock_tight (husable entry (List.mem_cons_of_mem first hmem))⟩

/-! ## Cuts -/

theorem escape_append (a b : Text) : escape (a ++ b) = escape a ++ escape b := List.flatMap_append

theorem length_escapeChar (c : Char) : 1 ≤ (escapeChar c).length := by
  unfold escapeChar
  split
  · decide
  · split
    · decide
    · split
      · decide
      · exact Nat.le_refl 1

theorem length_escape (content : Text) : content.length ≤ (escape content).length := by
  induction content with
  | nil => exact Nat.zero_le _
  | cons c rest ih =>
    have hfirst := length_escapeChar c
    show rest.length + 1 ≤ (escapeChar c ++ escape rest).length
    rw [List.length_append]
    omega

theorem length_neutralized {W : World} (content : Text) :
    (escape (neutralizePromptMarkers W content)).length = (escape content).length := by
  rw [neutralize_eq]
  induction content with
  | nil => rfl
  | cons c rest ih =>
    have hchar : (escapeChar (if (promptMarkerPattern W).begins (c :: rest) then '［' else c)).length = (escapeChar c).length := by
      split
      · rename_i hbegins
        rw [pattern_first c rest hbegins]
        decide
      · rfl
    show (escapeChar (if (promptMarkerPattern W).begins (c :: rest) then '［' else c) ++
      escape (Occurs.hide (promptMarkerPattern W).begins '［' rest)).length = (escapeChar c ++ escape rest).length
    rw [List.length_append, List.length_append, hchar, ih]

theorem cleanText_str (W : World) (content : Text) (limit : ℕ) :
    W.cleanText (.str content) limit = PyStr.stripChars ((PyStr.stripChars content).take limit) := by
  unfold World.cleanText World.strOr
  rw [PySlice.sliceTo_natCast]

theorem contextDataBlock_whole {W : World} {source guidance : String} {content : Text} (hne : content ≠ [])
    (htight : Tight content) (hshort : content.length ≤ 12000) :
    contextDataBlock W source (.str content) guidance = wholeBlock W source content guidance := by
  have hclean : W.cleanText (.str content) ((12000 : ℕ) : ℤ) = content := by
    rw [cleanText_str, htight.strip, List.take_of_length_le hshort, htight.strip]
  have hdata : neutralizePromptMarkers W content ≠ [] := by
    intro hnil
    have hlength := Occurs.length_hide (p := (promptMarkerPattern W).begins) (x := '［') (l := content)
    rw [← neutralize_eq, hnil] at hlength
    exact hne (List.length_eq_zero_iff.mp hlength.symm)
  unfold contextDataBlock wholeBlock
  dsimp only
  rw [show W.cleanText (.str content) 12000 = content from hclean, if_neg hdata]

theorem contextDataBlock_cut {W : World} {source guidance : String} {content : Text} (htight : Tight content)
    (hlong : 12000 < content.length) :
    contextDataBlock W source (.str content) guidance ≠ wholeBlock W source content guidance := by
  intro heq
  have hclean : W.cleanText (.str content) ((12000 : ℕ) : ℤ) = PyStr.stripChars (content.take 12000) := by
    rw [cleanText_str, htight.strip]
  have hlength := congrArg List.length heq
  unfold contextDataBlock wholeBlock at hlength
  dsimp only at hlength
  rw [show W.cleanText (.str content) 12000 = _ from hclean] at hlength
  split at hlength
  · simp only [List.length_append, List.length_cons, List.length_nil] at hlength
    omega
  · simp only [List.length_append, length_neutralized] at hlength
    have hparts : (escape content).length = (escape (content.take 12000)).length + (escape (content.drop 12000)).length := by
      rw [← List.length_append, ← escape_append, List.take_append_drop]
    have hrest := length_escape (content.drop 12000)
    rw [List.length_drop] at hrest
    obtain ⟨front, back, hcut, -, -⟩ := strip_cut (content.take 12000)
    have hless : (escape (PyStr.stripChars (content.take 12000))).length ≤ (escape (content.take 12000)).length := by
      conv_rhs => rw [hcut, escape_append, escape_append, List.length_append, List.length_append]
      omega
    omega

/-! ## Runs -/

theorem worldBookPrompt_ok {profile : Value} (henabled : isTrue (field (worldBookOf profile) "enabled") = true)
    (h : NoOverflow B (worldBookOf profile) messages) : worldBookPrompt B profile messages =
      .ok (if matchedEntries B (worldBookOf profile) messages = [] then []
        else contextDataBlock B.world "world_book" (.str (chosenText B (worldBookOf profile) messages)) worldBookGuidance) := by
  have hscan := @scanEntries_ok B (recentText B (worldBookOf profile) messages) 0
    (asList (field (worldBookOf profile) "entries")) h.probability
  have hsort := sortEntries_ok h.priority h.insertionOrder
  unfold worldBookPrompt
  dsimp only
  rw [show asDict (field (asDict profile) "worldBook") = worldBookOf profile from rfl, henabled, Bool.not_true,
    if_neg Bool.false_ne_true, asInt_ok h.scanDepth, asInt_ok h.maxEntries, asInt_ok h.budgetTokens]
  show (scanEntries B (recentText B (worldBookOf profile) messages) 0 _ >>= fun entries => _) = _
  rw [hscan]
  show (if matchedEntries B (worldBookOf profile) messages = [] then _ else sortEntries B (matchedEntries B (worldBookOf profile) messages) >>= _) = _
  split
  · rfl
  · rw [hsort]
    have hbudget : max 512 (clampInt B (field (worldBookOf profile) "budgetTokens") 1200 128 32000 * 4) =
        ((budgetOf B (worldBookOf profile) : ℕ) : ℤ) := by
      unfold budgetOf
      omega
    show Except.ok (contextDataBlock B.world "world_book" (.str (joinWith "\n\n".toList
      ((sliceTo (mostEntries B (worldBookOf profile)) _).foldl (fillLine B (max 512 _)) ([], 0)).1)) worldBookGuidance) = _
    rw [hbudget, fillLine_all]
    rfl

theorem worldBookPrompt_overflow {profile : Value} (henabled : isTrue (field (worldBookOf profile) "enabled") = true)
    (h : ¬ NoOverflow B (worldBookOf profile) messages) : worldBookPrompt B profile messages = .error .overflowError := by
  unfold worldBookPrompt
  dsimp only
  rw [show asDict (field (asDict profile) "worldBook") = worldBookOf profile from rfl, henabled, Bool.not_true,
    if_neg Bool.false_ne_true]
  by_cases hdepth : TooLarge B (field (worldBookOf profile) "scanDepth")
  · rw [asInt_overflow hdepth]
    rfl
  · by_cases hmost : TooLarge B (field (worldBookOf profile) "maxEntries")
    · rw [asInt_ok hdepth, asInt_overflow hmost]
      rfl
    · by_cases hbudget : TooLarge B (field (worldBookOf profile) "budgetTokens")
      · rw [asInt_ok hdepth, asInt_ok hmost, asInt_overflow hbudget]
        rfl
      · rw [asInt_ok hdepth, asInt_ok hmost, asInt_ok hbudget]
        show (scanEntries B (recentText B (worldBookOf profile) messages) 0 _ >>= fun entries => _) = _
        by_cases hscan : ∀ entry ∈ scannedEntries B (worldBookOf profile),
            keysAllow B entry (recentText B (worldBookOf profile) messages) = true → ¬ TooLargeFloat B (field entry "probability")
        · rw [scanEntries_ok 0 _ hscan]
          show (if matchedEntries B (worldBookOf profile) messages = [] then _
            else sortEntries B (matchedEntries B (worldBookOf profile) messages) >>= _) = _
          have hkey : ∃ entry ∈ matchedEntries B (worldBookOf profile) messages,
              TooLargeInt B (field entry "priority") ∨ TooLargeInt B (field entry "insertionOrder") := by
            by_contra hnone
            refine h ⟨hdepth, hmost, hbudget, hscan, fun entry hentry hover => ?_, fun entry hentry hover => ?_⟩
            · exact hnone ⟨entry, hentry, Or.inl hover⟩
            · exact hnone ⟨entry, hentry, Or.inr hover⟩
          obtain ⟨entry, hentry, hover⟩ := hkey
          rw [if_neg (List.ne_nil_of_mem hentry), sortEntries_overflow hentry hover]
          rfl
        · simp only [not_forall, not_not] at hscan
          obtain ⟨entry, hentry, hkeys, hover⟩ := hscan
          rw [scanEntries_overflow 0 _ hentry hkeys hover]
          rfl

theorem chosen_selected (B : Book) (worldBook : Members) (messages : List Members) :
    ((chosenEntries B worldBook messages).length : ℤ) ≤ mostEntries B worldBook ∧
      (chosenEntries B worldBook messages).Subperm (matchedEntries B worldBook messages) ∧
      (chosenEntries B worldBook messages).Pairwise (entryBefore B) ∧
      (chosenText B worldBook messages).length ≤ budgetOf B worldBook := by
  have hsub := choose_sublist (B := B) (budgetOf B worldBook)
    (sliceTo (mostEntries B worldBook) ((matchedEntries B worldBook messages).insertionSort (entryBefore B)))
  have hcut : (sliceTo (mostEntries B worldBook)
      ((matchedEntries B worldBook messages).insertionSort (entryBefore B))).Sublist
        ((matchedEntries B worldBook messages).insertionSort (entryBefore B)) := List.take_sublist _ _
  have hsorted : ((matchedEntries B worldBook messages).insertionSort (entryBefore B)).Pairwise (entryBefore B) := by
    have : Std.Total (entryBefore B) := ⟨fun a b => entryKey_total _ _⟩
    have : IsTrans Members (entryBefore B) := ⟨fun _ _ _ hab hbc => entryKey_trans hab hbc⟩
    exact List.pairwise_insertionSort _ _
  refine ⟨?_, ?_, hsorted.sublist (hsub.trans hcut), joined_length _ _⟩
  · have hmost : 0 ≤ mostEntries B worldBook := le_trans (by decide) (Int.le_max_left 1 _)
    have hlength := length_sliceTo hmost ((matchedEntries B worldBook messages).insertionSort (entryBefore B))
    have hfewer := hsub.length_le
    show ((choose B _ _).length : ℤ) ≤ _
    omega
  · exact (hsub.trans hcut).subperm.trans (List.perm_insertionSort _ _).subperm

/-- The section of a world book is built without an error, and is what it should be, just where the
world book is turned off, or no number overflows and the chosen entries are short enough. -/
theorem section_selected (B : Book) (profile : Value) (messages : List Members) :
    (∃ content, worldBookPrompt B profile messages = .ok content ∧ Selected B (worldBookOf profile) messages content) ↔
      (isTrue (field (worldBookOf profile) "enabled") = true → Undisturbed B (worldBookOf profile) messages) := by
  obtain ⟨hfew, hmatched, hordered, hwithin⟩ := chosen_selected B (worldBookOf profile) messages
  constructor
  · rintro ⟨content, hok, hselected⟩ henabled
    have hnumbers : NoOverflow B (worldBookOf profile) messages := by
      by_contra hover
      rw [worldBookPrompt_overflow henabled hover] at hok
      cases hok
    refine ⟨hnumbers, ?_⟩
    rw [worldBookPrompt_ok henabled hnumbers] at hok
    have hcontent := Except.ok.inj hok
    by_cases hsome : matchedEntries B (worldBookOf profile) messages = []
    · have hnone : chosenEntries B (worldBookOf profile) messages = [] := by
        have hlength := hmatched.length_le
        rw [hsome, List.length_nil] at hlength
        exact List.length_eq_zero_iff.mp (Nat.le_zero.mp hlength)
      unfold chosenText
      rw [hnone]
      exact Nat.zero_le _
    · rw [if_neg hsome] at hcontent
      by_contra hlong
      obtain ⟨-, htight⟩ := chosenText_tight hsome
      have hwhole := hselected.whole henabled hsome
      rw [← hcontent] at hwhole
      exact contextDataBlock_cut htight (Nat.lt_of_not_le hlong) hwhole
  · intro h
    by_cases henabled : isTrue (field (worldBookOf profile) "enabled") = true
    · obtain ⟨hnumbers, hshort⟩ := h henabled
      refine ⟨_, worldBookPrompt_ok henabled hnumbers, ⟨fun hoff => ?_, fun hnone => if_pos hnone, hfew, hmatched, hordered,
        hwithin, fun _ hsome => ?_⟩⟩
      · rw [henabled] at hoff
        cases hoff
      · obtain ⟨hne, htight⟩ := chosenText_tight hsome
        rw [if_neg hsome, contextDataBlock_whole hne htight hshort]
    · have hoff : isTrue (field (worldBookOf profile) "enabled") = false := Bool.eq_false_iff.mpr henabled
      have hempty : worldBookPrompt B profile messages = .ok [] := by
        unfold worldBookPrompt
        dsimp only
        rw [show asDict (field (asDict profile) "worldBook") = worldBookOf profile from rfl, hoff, Bool.not_false, if_pos rfl]
        rfl
      exact ⟨[], hempty, fun _ => rfl, fun _ => rfl, hfew, hmatched, hordered, hwithin,
        fun hon => absurd hon henabled⟩

/-! ## An overflow -/

theorem space_alphanum {c : Char} (h : PyStr.isSpace c = true) : c.isAlphanum = false := by
  refine Bool.eq_false_iff.mpr fun hword => ?_
  simp only [PyStr.isSpace, Bool.or_eq_true, Bool.and_eq_true, decide_eq_true_eq, beq_iff_eq] at h
  have hranges : ((decide (c.val ≥ 'A'.val ∧ c.val ≤ 'Z'.val) || decide (c.val ≥ 'a'.val) && decide (c.val ≤ 'z'.val)) ||
      decide (c.val ≥ '0'.val) && decide (c.val ≤ '9'.val)) = true := hword
  simp only [Bool.or_eq_true, Bool.and_eq_true, decide_eq_true_eq, UInt32.le_iff_toNat_le, ge_iff_le] at hranges
  have hvalue : c.toNat = c.val.toNat := rfl
  have hupper : 'A'.val.toNat = 65 ∧ 'Z'.val.toNat = 90 := ⟨rfl, rfl⟩
  have hlower : 'a'.val.toNat = 97 ∧ 'z'.val.toNat = 122 := ⟨rfl, rfl⟩
  have hdigit : '0'.val.toNat = 48 ∧ '9'.val.toNat = 57 := ⟨rfl, rfl⟩
  omega

/-- A world of ASCII letters and digits. -/
def plainWorld : World where
  isAlnum c := c.isAlphanum || c = Char.ofNat 0x212A
  letter c h := by
    unfold Char.isAlphanum
    rw [h]
    rfl
  kelvin := by decide
  space c h := by
    rw [space_alphanum h, Bool.false_or, decide_eq_false_iff_not]
    rintro rfl
    exact absurd h (by decide)
  bracket := by decide
  str _ := []

def plainBook : Book where
  world := plainWorld
  engine := none
  lower content := content.map Char.toLower
  roll _ := 0
  numerals := ⟨fun n => some n, fun _ => none, fun _ => none⟩

/-- A profile whose world book is to scan infinitely many messages. -/
def endlessProfile : Value :=
  .dict [("worldBook".toList, .dict [("enabled".toList, .bool true), ("scanDepth".toList, .float (.infinite false))])]

/-- The number is not caught. -/
theorem endless_raised : ¬ ∀ (B : Book) (profile : Value) (messages : List Members), ∃ content,
    worldBookPrompt B profile messages = .ok content ∧ Selected B (worldBookOf profile) messages content := by
  intro h
  obtain ⟨content, hok, -⟩ := h plainBook endlessProfile []
  have hraised : worldBookPrompt plainBook endlessProfile [] = .error .overflowError := rfl
  rw [hraised] at hok
  cases hok

end Prompt
