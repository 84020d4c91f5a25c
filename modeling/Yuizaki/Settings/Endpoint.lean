import Yuizaki.Settings.Runtime
import Mathlib.Data.List.Find
import Mathlib.Data.List.Infix

/- When the normalization of an endpoint is stable.

   `normalize_llm_base_url` drops the paths `/messages`, `/chat/completions` and `/models` from
   the end of a URL, each at most once and in this order. Read from the right, a URL has layers
   of such paths around a root (`Layered`). All of them are dropped where they stand in the
   order of the code; otherwise the result still ends with a path, and the next normalization
   drops it (`baseUrl_stable_iff`). What is dropped says nothing about the provider, so the
   provider is stable in every case. -/
namespace Settings

/-! ## Texts in lower case -/

/-- What the code relies on of `str.lower()`: slashes and blanks stay, and what is between them is
put in lower case on its own; nothing else becomes a slash; and the words of the paths come from
words of the same length. -/
structure LowersText (wide : String → String) : Prop where
  around : ∀ (a b : String) (c : Char), c = '/' ∨ PyStr.isSpace c = true →
    PyStr.lower wide (a ++ String.singleton c ++ b) = PyStr.lower wide a ++ String.singleton c ++ PyStr.lower wide b
  slash : ∀ s : String, '/' ∈ (PyStr.lower wide s).toList → '/' ∈ s.toList
  words : ∀ s : String, PyStr.lower wide s ∈ ["messages", "chat", "completions", "models"] →
    s.length = (PyStr.lower wide s).length

/-- `str.lower()` on characters. -/
def lowerChars (wide : String → String) (cs : List Char) : List Char := (PyStr.lower wide (String.ofList cs)).toList

/-- A text that no slash, no blank and no path can hide: it tells providers apart. -/
structure Telling (pat : List Char) : Prop where
  slash : '/' ∉ pat
  blank : ∀ c ∈ pat, PyStr.isSpace c = false
  words : ∀ word ∈ ["messages", "chat", "completions", "models"], ¬ pat <:+: word.toList
  nonempty : pat ≠ []

section Characters

variable {α : Type} {c : α} {x y w z pat : List α}

theorem cut_last (hw : c ∉ w) (hz : c ∉ z) (h : x ++ c :: w = y ++ c :: z) : x = y ∧ w = z := by
  obtain ⟨m, hy, hm⟩ | ⟨m, hx, hm⟩ := List.append_eq_append_iff.mp h
  · cases m with
    | nil => exact ⟨(List.append_nil x ▸ hy).symm, (List.cons.inj hm).2⟩
    | cons d m =>
      refine absurd ?_ hw
      rw [(List.cons.inj hm).2]
      exact List.mem_append_right _ List.mem_cons_self
  · cases m with
    | nil => exact ⟨List.append_nil y ▸ hx, (List.cons.inj hm).2.symm⟩
    | cons d m =>
      refine absurd ?_ hz
      rw [(List.cons.inj hm).2]
      exact List.mem_append_right _ List.mem_cons_self

theorem infix_around (hc : c ∉ pat) : pat <:+: x ++ c :: y ↔ pat <:+: x ∨ pat <:+: y := by
  have hstarts {l : List α} (hl : l <+: c :: y) (hcl : c ∉ l) : l = [] := by
    obtain hnil | ⟨t, ht, -⟩ := List.prefix_cons_iff.mp hl
    · exact hnil
    · exact absurd (ht ▸ List.mem_cons_self) hcl
  constructor
  · intro h
    obtain h | h | ⟨l, m, hpat, hl, hm⟩ := List.infix_append_iff.mp h
    · exact .inl h
    · obtain h | h := List.infix_cons_iff.mp h
      · exact .inl (hstarts h hc ▸ List.nil_infix)
      · exact .inr h
    · -- what reaches over the left side would begin with the character
      have hnil : m = [] := hstarts hm fun hcm => hc (hpat ▸ List.mem_append_right l hcm)
      rw [hpat, hnil, List.append_nil]
      exact .inl hl.isInfix
  · intro h
    obtain h | h := h
    · exact h.trans (List.prefix_append _ _).isInfix
    · exact h.trans ((List.suffix_cons c y).trans (List.suffix_append x _)).isInfix

theorem last_occurrence (h : c ∈ x) : ∃ a v, x = a ++ c :: v ∧ c ∉ v := by
  obtain ⟨v, a, hreverse, hnot⟩ := List.eq_append_cons_of_mem (List.mem_reverse.mpr h)
  refine ⟨a.reverse, v.reverse, ?_, fun hmem => hnot (List.mem_reverse.mp hmem)⟩
  calc x = (v ++ c :: a).reverse := by rw [← hreverse, List.reverse_reverse]
    _ = a.reverse ++ c :: v.reverse := by
      rw [List.reverse_append, List.reverse_cons, List.append_assoc, List.singleton_append]

end Characters

section Lower

variable {wide : String → String} {cs a b pat : List Char}

theorem lowerChars_nil : lowerChars wide [] = [] := rfl

theorem lowerChars_around (laws : LowersText wide) {c : Char} (hc : c = '/' ∨ PyStr.isSpace c = true) :
    lowerChars wide (a ++ c :: b) = lowerChars wide a ++ c :: lowerChars wide b := by
  have hsplit : String.ofList (a ++ c :: b) = String.ofList a ++ String.singleton c ++ String.ofList b := by
    apply String.toList_injective
    rw [String.toList_append, String.toList_append, String.toList_ofList, String.toList_ofList, String.toList_ofList,
      String.toList_singleton, List.append_assoc]
    rfl
  unfold lowerChars
  rw [hsplit, laws.around _ _ c hc, String.toList_append, String.toList_append, String.toList_singleton,
    List.append_assoc]
  rfl

theorem lowerChars_slash (laws : LowersText wide) (h : '/' ∉ cs) : '/' ∉ lowerChars wide cs := by
  intro hmem
  have hslash := laws.slash _ hmem
  rw [String.toList_ofList] at hslash
  exact h hslash

theorem Telling.not_mem (h : Telling pat) {c : Char} (hc : c = '/' ∨ PyStr.isSpace c = true) : c ∉ pat := by
  intro hmem
  obtain rfl | hspace := hc
  · exact h.slash hmem
  · rw [h.blank c hmem] at hspace
    exact Bool.false_ne_true hspace

theorem telling_after (laws : LowersText wide) (hpat : Telling pat) {w : List Char}
    (hw : ∀ c ∈ w, c = '/' ∨ PyStr.isSpace c = true) :
    pat <:+: lowerChars wide (cs ++ w) ↔ pat <:+: lowerChars wide cs := by
  induction w generalizing cs with
  | nil => rw [List.append_nil]
  | cons c w ih =>
    have hc := hw c List.mem_cons_self
    have hnil : ¬ pat <:+: lowerChars wide [] := fun h => hpat.nonempty (List.infix_nil.mp h)
    have hrest : pat <:+: lowerChars wide w ↔ False :=
      (@ih [] fun d hd => hw d (List.mem_cons_of_mem c hd)).trans (iff_false_intro hnil)
    rw [lowerChars_around laws hc, infix_around (hpat.not_mem hc), hrest, or_false]

theorem telling_before (laws : LowersText wide) (hpat : Telling pat) {w : List Char}
    (hw : ∀ c ∈ w, PyStr.isSpace c = true) : pat <:+: lowerChars wide (w ++ cs) ↔ pat <:+: lowerChars wide cs := by
  induction w with
  | nil => rw [List.nil_append]
  | cons c w ih =>
    have hc : c = '/' ∨ PyStr.isSpace c = true := .inr (hw c List.mem_cons_self)
    have hsplit : lowerChars wide (c :: (w ++ cs)) = [] ++ c :: lowerChars wide (w ++ cs) := by
      rw [← List.nil_append (c :: (w ++ cs)), lowerChars_around laws hc, lowerChars_nil]
    have hnil : ¬ pat <:+: ([] : List Char) := fun h => hpat.nonempty (List.infix_nil.mp h)
    rw [List.cons_append, hsplit, infix_around (hpat.not_mem hc), or_iff_right hnil]
    exact ih fun d hd => hw d (List.mem_cons_of_mem c hd)

end Lower

/-! ## Paths -/

/-- An endpoint that ends with a path, in upper or lower case. -/
def EndsWith (wide : String → String) (e path : String) : Prop :=
  PyStr.endsWithAny (PyStr.lower wide e) [path] = true

instance {wide : String → String} {e path : String} : Decidable (EndsWith wide e path) :=
  inferInstanceAs (Decidable (PyStr.endsWithAny (PyStr.lower wide e) [path] = true))

section Paths

variable {wide : String → String} {e path : String} {cs before w : List Char}

theorem endsWith_iff : EndsWith wide e path ↔ path.toList <:+ lowerChars wide e.toList := by
  unfold EndsWith PyStr.endsWithAny lowerChars
  rw [List.any_cons, List.any_nil, Bool.or_false, List.isSuffixOf_iff_suffix, String.ofList_toList]

theorem suffix_word (laws : LowersText wide) (hw : '/' ∉ w) (h : before ++ '/' :: w <:+ lowerChars wide cs) :
    ∃ a v, cs = a ++ '/' :: v ∧ lowerChars wide v = w ∧ before <:+ lowerChars wide a := by
  obtain ⟨front, hfront⟩ := h
  have hmem : '/' ∈ cs := by
    by_contra hnot
    refine lowerChars_slash laws hnot ?_
    rw [← hfront]
    exact List.mem_append_right _ (List.mem_append_right _ List.mem_cons_self)
  obtain ⟨a, v, rfl, hv⟩ := last_occurrence hmem
  rw [lowerChars_around laws (.inl rfl), ← List.append_assoc] at hfront
  obtain ⟨hbefore, hword⟩ := cut_last hw (lowerChars_slash laws hv) hfront
  exact ⟨a, v, rfl, hword.symm, front, hbefore⟩

theorem word_silent (laws : LowersText wide) {word : String} (hword : word ∈ ["messages", "chat", "completions", "models"])
    (h : lowerChars wide cs = word.toList) :
    cs.length = word.length ∧ ∀ pat, Telling pat → ¬ pat <:+: lowerChars wide cs := by
  have hlower : PyStr.lower wide (String.ofList cs) = word := String.toList_injective h
  refine ⟨?_, fun pat hpat => h ▸ hpat.words word hword⟩
  have hlength := laws.words (String.ofList cs) (hlower ▸ hword)
  rw [hlower, String.length_ofList] at hlength
  exact hlength

theorem endsWith_path (laws : LowersText wide) (hpath : path ∈ endpointSuffixes) (h : EndsWith wide e path) :
    ∃ a v, e.toList = a ++ v ∧ v.length = path.length ∧
      ∀ pat, Telling pat → (pat <:+: lowerChars wide e.toList ↔ pat <:+: lowerChars wide a) := by
  have hends := endsWith_iff.mp h
  have hone (word : String) (hword : word ∈ ["messages", "chat", "completions", "models"]) (hplain : '/' ∉ word.toList)
      (hsuffix : [] ++ '/' :: word.toList <:+ lowerChars wide e.toList) :
      ∃ a v, e.toList = a ++ v ∧ v.length = word.length + 1 ∧
        ∀ pat, Telling pat → (pat <:+: lowerChars wide e.toList ↔ pat <:+: lowerChars wide a) := by
    obtain ⟨a, v, he, hv, -⟩ := suffix_word laws hplain hsuffix
    obtain ⟨hlength, hsilent⟩ := word_silent laws hword hv
    refine ⟨a, '/' :: v, he, by rw [List.length_cons, hlength], fun pat hpat => ?_⟩
    rw [he, lowerChars_around laws (.inl rfl), infix_around hpat.slash, or_iff_left (hsilent pat hpat)]
  have hcases : path = "/messages" ∨ path = "/chat/completions" ∨ path = "/models" := by
    simpa [endpointSuffixes] using hpath
  obtain rfl | rfl | rfl := hcases
  · exact hone "messages" (by decide) (by decide) hends
  · have hplain : '/' ∉ "completions".toList := by decide
    obtain ⟨a, v, he, hv, hbefore⟩ := @suffix_word wide e.toList "/chat".toList _ laws hplain hends
    have hplain' : '/' ∉ "chat".toList := by decide
    obtain ⟨b, u, ha, hu, -⟩ := @suffix_word wide a [] _ laws hplain' hbefore
    obtain ⟨hlength, hsilent⟩ := word_silent laws (by decide) hv
    obtain ⟨hlength', hsilent'⟩ := word_silent laws (by decide) hu
    refine ⟨b, '/' :: u ++ '/' :: v, ?_, ?_, fun pat hpat => ?_⟩
    · rw [he, ha, List.append_assoc]
    · rw [List.length_append, List.length_cons, List.length_cons, hlength, hlength']
      decide
    · rw [he, ha, lowerChars_around laws (.inl rfl), infix_around hpat.slash, or_iff_left (hsilent pat hpat),
        lowerChars_around laws (.inl rfl), infix_around hpat.slash, or_iff_left (hsilent' pat hpat)]
  · exact hone "models" (by decide) (by decide) hends

theorem endsWith_unique {other : String} (hpath : path ∈ endpointSuffixes) (hother : other ∈ endpointSuffixes)
    (h : EndsWith wide e path) (h' : EndsWith wide e other) : path = other := by
  have hapart : ∀ p ∈ endpointSuffixes, ∀ q ∈ endpointSuffixes, p.toList <:+ q.toList → p = q := by decide
  obtain hsuffix | hsuffix := List.suffix_or_suffix_of_suffix (endsWith_iff.mp h) (endsWith_iff.mp h')
  · exact hapart path hpath other hother hsuffix
  · exact (hapart other hother path hpath hsuffix).symm

/-! ## What is dropped -/

theorem slash_of_trailing {c : Char} (h : c ∈ cs.rtakeWhile (fun c => c ∈ "/".toList)) : c = '/' := by
  have hslash := List.mem_rtakeWhile_imp h
  exact List.mem_singleton.mp (of_decide_eq_true hslash)

theorem dropSuffix_of_not (h : ¬ EndsWith wide e path) : dropSuffix wide e path = e := if_neg h

theorem dropSuffix_of_ends (laws : LowersText wide) (hpath : path ∈ endpointSuffixes) (h : EndsWith wide e path) :
    ∃ a w, dropSuffix wide e path = String.ofList a ∧ (∀ c ∈ w, c = '/') ∧ (a ++ w).length < e.length ∧
      ∀ pat, Telling pat → (pat <:+: lowerChars wide e.toList ↔ pat <:+: lowerChars wide (a ++ w)) := by
  obtain ⟨b, v, he, hlength, hsilent⟩ := endsWith_path laws hpath h
  have hlong : ∀ p ∈ endpointSuffixes, 0 < p.length := by decide
  have hpositive := hlong path hpath
  have htotal : e.length = b.length + path.length := by
    rw [← String.length_toList, he, List.length_append, hlength]
  have htake : PyStr.textPrefix (e.length - path.length) e = String.ofList b := by
    unfold PyStr.textPrefix
    rw [he, htotal, Nat.add_sub_cancel, List.take_left]
  have hparts : b.rdropWhile (fun c => c ∈ "/".toList) ++ b.rtakeWhile (fun c => c ∈ "/".toList) = b :=
    List.rdropWhile_append_rtakeWhile
  have hdrop : dropSuffix wide e path = PyStr.rstripOf "/" (PyStr.textPrefix (e.length - path.length) e) := if_pos h
  refine ⟨b.rdropWhile (fun c => c ∈ "/".toList), b.rtakeWhile (fun c => c ∈ "/".toList), ?_, fun c hc => ?_, ?_,
    fun pat hpat => ?_⟩
  · apply String.toList_injective
    rw [hdrop, htake, PyStr.toList_rstripOf]
    simp only [String.toList_ofList]
  · exact slash_of_trailing hc
  · rw [hparts]
    omega
  · rw [hparts]
    exact hsilent pat hpat

theorem length_dropSuffix_lt (laws : LowersText wide) (hpath : path ∈ endpointSuffixes) (h : EndsWith wide e path) :
    (dropSuffix wide e path).length < e.length := by
  obtain ⟨a, w, hdrop, -, hlength, -⟩ := dropSuffix_of_ends laws hpath h
  rw [hdrop, String.length_ofList]
  rw [List.length_append] at hlength
  omega

theorem length_dropSuffix_le (laws : LowersText wide) (hpath : path ∈ endpointSuffixes) :
    (dropSuffix wide e path).length ≤ e.length := by
  by_cases h : EndsWith wide e path
  · exact (length_dropSuffix_lt laws hpath h).le
  · rw [dropSuffix_of_not h]

theorem dropSuffix_silent (laws : LowersText wide) (hpath : path ∈ endpointSuffixes) {pat : List Char} (hpat : Telling pat) :
    pat <:+: lowerChars wide (dropSuffix wide e path).toList ↔ pat <:+: lowerChars wide e.toList := by
  by_cases h : EndsWith wide e path
  · obtain ⟨a, w, hdrop, hw, -, hsilent⟩ := dropSuffix_of_ends laws hpath h
    rw [hdrop, String.toList_ofList, hsilent pat hpat, telling_after laws hpat fun c hc => .inl (hw c hc)]
  · rw [dropSuffix_of_not h]

/-- The endpoint of a base URL, without its paths. -/
def endpointOf (wide : String → String) (baseUrl : String) : String :=
  endpointSuffixes.foldl (dropSuffix wide) (PyStr.rstripOf "/" (PyStr.strip baseUrl))

theorem foldl_dropSuffix (laws : LowersText wide) {paths : List String} (hpaths : ∀ p ∈ paths, p ∈ endpointSuffixes) :
    (paths.foldl (dropSuffix wide) e).length ≤ e.length ∧
      ((∃ p ∈ paths, EndsWith wide e p) → (paths.foldl (dropSuffix wide) e).length < e.length) ∧
      ((∀ p ∈ paths, ¬ EndsWith wide e p) → paths.foldl (dropSuffix wide) e = e) ∧
      ∀ pat, Telling pat → (pat <:+: lowerChars wide (paths.foldl (dropSuffix wide) e).toList ↔
        pat <:+: lowerChars wide e.toList) := by
  induction paths generalizing e with
  | nil => exact ⟨le_rfl, fun ⟨p, hp, _⟩ => absurd hp List.not_mem_nil, fun _ => rfl, fun _ _ => Iff.rfl⟩
  | cons q paths ih =>
    have hq := hpaths q List.mem_cons_self
    obtain ⟨hle, hlt, hsame, hsilent⟩ := @ih (dropSuffix wide e q) fun p hp => hpaths p (List.mem_cons_of_mem q hp)
    have hfirst : (dropSuffix wide e q).length ≤ e.length := length_dropSuffix_le laws hq
    refine ⟨hle.trans hfirst, fun ⟨p, hp, hends⟩ => ?_, fun hnone => ?_, fun pat hpat => ?_⟩
    · by_cases hqends : EndsWith wide e q
      · exact hle.trans_lt (length_dropSuffix_lt laws hq hqends)
      · obtain rfl | hp := List.mem_cons.mp hp
        · exact absurd hends hqends
        · rw [dropSuffix_of_not hqends] at hlt
          rw [List.foldl_cons, dropSuffix_of_not hqends]
          exact hlt ⟨p, hp, hends⟩
    · have hqends := hnone q List.mem_cons_self
      rw [dropSuffix_of_not hqends] at hsame
      rw [List.foldl_cons, dropSuffix_of_not hqends]
      exact hsame fun p hp => hnone p (List.mem_cons_of_mem q hp)
    · exact (hsilent pat hpat).trans (dropSuffix_silent laws hq hpat)

end Paths

/-! ## The provider -/

section Provider

variable {wide : String → String} {s t provider : String}

theorem hosts_telling : ∀ host ∈ providerHosts, Telling host.1.toList := by
  have hall : ∀ host ∈ providerHosts, '/' ∉ host.1.toList ∧ ('.' ∈ host.1.toList ∨ ':' ∈ host.1.toList) ∧
      host.1.toList.any PyStr.isSpace = false ∧ host.1.toList ≠ [] := by
    decide +kernel
  have hwords : ∀ word ∈ ["messages", "chat", "completions", "models"], '.' ∉ word.toList ∧ ':' ∉ word.toList := by
    decide +kernel
  intro host hhost
  obtain ⟨hslash, hmark, hblank, hnonempty⟩ := hall host hhost
  refine ⟨hslash, fun c hc => Bool.eq_false_iff.mpr (List.any_eq_false.mp hblank c hc), fun word hword hinside => ?_,
    hnonempty⟩
  obtain ⟨hdot, hcolon⟩ := hwords word hword
  exact hmark.elim (fun h => hdot (hinside.subset h)) fun h => hcolon (hinside.subset h)

theorem strip_silent (laws : LowersText wide) {pat : List Char} (hpat : Telling pat) :
    pat <:+: lowerChars wide (PyStr.strip s).toList ↔ pat <:+: lowerChars wide s.toList := by
  obtain ⟨before, after, hs, hbefore, hafter⟩ := PyStr.strip_parts s
  rw [hs, telling_after laws hpat fun c hc => .inr (hafter c hc), telling_before laws hpat hbefore]

theorem infer_silent (laws : LowersText wide) (h : ∀ pat, Telling pat →
    (pat <:+: lowerChars wide s.toList ↔ pat <:+: lowerChars wide t.toList)) :
    inferLlmProvider wide s = inferLlmProvider wide t := by
  have hhosts : ∀ host ∈ providerHosts, PyStr.contains (PyStr.lower wide (PyStr.strip s)) host.1 =
      PyStr.contains (PyStr.lower wide (PyStr.strip t)) host.1 := by
    intro host hhost
    have hpat := hosts_telling host hhost
    have hfound (text : String) : PyStr.contains (PyStr.lower wide (PyStr.strip text)) host.1 = true ↔
        host.1.toList <:+: lowerChars wide text.toList := by
      rw [PyStr.contains_iff, ← strip_silent laws hpat, lowerChars, String.ofList_toList]
    rw [Bool.eq_iff_iff, hfound s, hfound t]
    exact h _ hpat
  have hfind : providerHosts.find? (fun host => PyStr.contains (PyStr.lower wide (PyStr.strip s)) host.1) =
      providerHosts.find? (fun host => PyStr.contains (PyStr.lower wide (PyStr.strip t)) host.1) :=
    List.find?_congr hhosts
  unfold inferLlmProvider
  dsimp only
  rw [hfind]

theorem normalizeLlmProvider_mem (provider baseUrl : String) : normalizeLlmProvider wide provider baseUrl ∈ llmProviderValues := by
  unfold normalizeLlmProvider
  dsimp only
  split
  · assumption
  · unfold inferLlmProvider
    dsimp only
    have hhosts : ∀ host ∈ providerHosts, host.2 ∈ llmProviderValues := by decide
    split
    · rename_i host hfind
      exact hhosts host (List.mem_of_find?_eq_some hfind)
    · decide

theorem normalizeLlmProvider_known (h : provider ∈ llmProviderValues) (baseUrl : String) :
    normalizeLlmProvider wide provider baseUrl = provider := by
  have hplain : ∀ p ∈ llmProviderValues, p.toList.all (fun c => c.toNat < 128) = true ∧
      (providerAliases.lookup (PyStr.lowerAscii (PyStr.strip p))).getD (PyStr.lowerAscii (PyStr.strip p)) = p ∧
      PyStr.strip p = p := by
    decide +kernel
  obtain ⟨hascii, hname, hstrip⟩ := hplain provider h
  have hlower : PyStr.lower wide (PyStr.strip provider) = PyStr.lowerAscii (PyStr.strip provider) := by
    unfold PyStr.lower
    rw [hstrip, if_pos hascii]
  unfold normalizeLlmProvider
  dsimp only
  rw [hlower, hname, if_pos h]

theorem normalizeLlmProvider_silent (h : inferLlmProvider wide s = inferLlmProvider wide t) (provider : String) :
    normalizeLlmProvider wide provider s = normalizeLlmProvider wide provider t := by
  unfold normalizeLlmProvider
  rw [h]

theorem infer_endpoint (laws : LowersText wide) (baseUrl : String) :
    inferLlmProvider wide (endpointOf wide baseUrl) = inferLlmProvider wide baseUrl ∧
      inferLlmProvider wide (PyStr.rstripOf "/" (PyStr.strip baseUrl)) = inferLlmProvider wide baseUrl := by
  have hslashes {pat : List Char} (hpat : Telling pat) :
      pat <:+: lowerChars wide (PyStr.rstripOf "/" (PyStr.strip baseUrl)).toList ↔ pat <:+: lowerChars wide baseUrl.toList := by
    have hparts : (PyStr.strip baseUrl).toList.rdropWhile (fun c => c ∈ "/".toList) ++
        (PyStr.strip baseUrl).toList.rtakeWhile (fun c => c ∈ "/".toList) = (PyStr.strip baseUrl).toList :=
      List.rdropWhile_append_rtakeWhile
    have hslash : ∀ c ∈ (PyStr.strip baseUrl).toList.rtakeWhile (fun c => c ∈ "/".toList), c = '/' ∨ PyStr.isSpace c = true :=
      fun c hc => .inl (slash_of_trailing hc)
    have hafter := @telling_after wide ((PyStr.strip baseUrl).toList.rdropWhile (fun c => c ∈ "/".toList)) pat laws hpat _ hslash
    rw [hparts] at hafter
    rw [PyStr.toList_rstripOf]
    exact hafter.symm.trans (strip_silent laws hpat)
  obtain ⟨-, -, -, hsilent⟩ := @foldl_dropSuffix wide (PyStr.rstripOf "/" (PyStr.strip baseUrl)) laws endpointSuffixes
    fun _ hp => hp
  exact ⟨infer_silent laws fun pat hpat => (hsilent pat hpat).trans (hslashes hpat),
    infer_silent laws fun _ hpat => hslashes hpat⟩

theorem normalizeLlmBaseUrl_eq (baseUrl provider : String) : normalizeLlmBaseUrl wide baseUrl provider =
    if endpointOf wide baseUrl = "" then (defaultProviderBaseUrls.lookup
      (normalizeLlmProvider wide provider (PyStr.rstripOf "/" (PyStr.strip baseUrl)))).getD ""
    else endpointOf wide baseUrl := rfl

/-- **The provider is stable**: it is the same for a base URL and for what it is normalized to. -/
theorem provider_stable (laws : LowersText wide) (baseUrl provider : String) :
    normalizeLlmProvider wide provider (normalizeLlmBaseUrl wide baseUrl provider) =
      normalizeLlmProvider wide provider baseUrl := by
  obtain ⟨hendpoint, hslashes⟩ := infer_endpoint laws baseUrl
  by_cases hempty : endpointOf wide baseUrl = ""
  · have hcustom : inferLlmProvider wide baseUrl = "custom" := by
      rw [← hendpoint, hempty]
      rfl
    rw [normalizeLlmBaseUrl_eq, if_pos hempty, normalizeLlmProvider_silent hslashes]
    -- a provider that the name does not say is `custom`, which has no default
    unfold normalizeLlmProvider
    dsimp only
    split
    · rfl
    · rw [hcustom]
      rfl
  · rw [normalizeLlmBaseUrl_eq, if_neg hempty]
    exact normalizeLlmProvider_silent hendpoint provider

end Provider

/-! ## Layers -/

/-- The paths at the end of an endpoint, the last one first, and what is left without them and
the slashes before them. -/
inductive Layered (wide : String → String) : String → List String → String → Prop
  | root {e : String} (hnone : ∀ p ∈ endpointSuffixes, ¬ EndsWith wide e p) : Layered wide e [] e
  | layer {e path : String} {stack : List String} {root : String} (hpath : path ∈ endpointSuffixes)
    (hends : EndsWith wide e path) (hrest : Layered wide (dropSuffix wide e path) stack root) :
    Layered wide e (path :: stack) root

/-- A base URL whose paths stand in the order in which they are dropped, with no blank before them. -/
def Settled (wide : String → String) (baseUrl : String) : Prop :=
  ∃ stack root, Layered wide (PyStr.rstripOf "/" (PyStr.strip baseUrl)) stack root ∧
    stack.Sublist endpointSuffixes ∧ PyStr.strip root = root

section Layers

variable {wide : String → String} {e root : String} {stack paths : List String}

theorem layered_exists (laws : LowersText wide) (e : String) : ∃ stack root, Layered wide e stack root := by
  induction hlength : e.length using Nat.strong_induction_on generalizing e with
  | _ n ih =>
    by_cases h : ∃ p ∈ endpointSuffixes, EndsWith wide e p
    · obtain ⟨path, hpath, hends⟩ := h
      have hshorter : (dropSuffix wide e path).length < n := hlength ▸ length_dropSuffix_lt laws hpath hends
      obtain ⟨stack, root, hrest⟩ := ih _ hshorter (dropSuffix wide e path) rfl
      exact ⟨path :: stack, root, .layer hpath hends hrest⟩
    · exact ⟨[], e, .root fun p hp hends => h ⟨p, hp, hends⟩⟩

theorem Layered.bare (h : Layered wide e stack root) : ∀ p ∈ endpointSuffixes, ¬ EndsWith wide root p := by
  induction h with
  | root hnone => exact hnone
  | layer _ _ _ ih => exact ih

theorem Layered.foldl (h : Layered wide e stack root) (hpaths : ∀ p ∈ paths, p ∈ endpointSuffixes) :
    (stack.Sublist paths → paths.foldl (dropSuffix wide) e = root) ∧
      (¬ stack.Sublist paths → ∃ p ∈ endpointSuffixes, EndsWith wide (paths.foldl (dropSuffix wide) e) p) := by
  induction paths generalizing e stack with
  | nil =>
    cases h with
    | root hnone => exact ⟨fun _ => rfl, fun hnot => absurd (List.Sublist.refl []) hnot⟩
    | layer hpath hends hrest =>
      exact ⟨fun hsub => absurd (List.sublist_nil.mp hsub) (List.cons_ne_nil _ _), fun _ => ⟨_, hpath, hends⟩⟩
  | cons q paths ih =>
    have hq := hpaths q List.mem_cons_self
    have hothers : ∀ p ∈ paths, p ∈ endpointSuffixes := fun p hp => hpaths p (List.mem_cons_of_mem q hp)
    by_cases hqends : EndsWith wide e q
    · cases h with
      | root hnone => exact absurd hqends (hnone q hq)
      | layer hpath hends hrest =>
        obtain rfl := endsWith_unique hpath hq hends hqends
        rw [List.cons_sublist_cons]
        exact ih hrest hothers
    · have hskip : stack.Sublist (q :: paths) ↔ stack.Sublist paths := by
        refine ⟨fun hsub => ?_, fun hsub => hsub.cons q⟩
        obtain hsub | ⟨rest, hstack, -⟩ := List.sublist_cons_iff.mp hsub
        · exact hsub
        · rw [hstack] at h
          cases h with
          | layer _ hends _ => exact absurd hends hqends
      rw [hskip, List.foldl_cons, dropSuffix_of_not hqends]
      exact ih h hothers

end Layers

/-! ## The base URL -/

section BaseUrl

variable {wide : String → String} {e provider : String}

theorem endpointOf_bare (baseUrl : String) : PyStr.rstripOf "/" (endpointOf wide baseUrl) = endpointOf wide baseUrl := by
  have hfold (paths : List String) (e : String) (hbare : PyStr.rstripOf "/" e = e) :
      PyStr.rstripOf "/" (paths.foldl (dropSuffix wide) e) = paths.foldl (dropSuffix wide) e := by
    induction paths generalizing e with
    | nil => exact hbare
    | cons path paths ih =>
      refine ih _ ?_
      unfold dropSuffix
      split
      · exact PyStr.rstripOf_rstripOf _ _
      · exact hbare
  exact hfold endpointSuffixes _ (PyStr.rstripOf_rstripOf _ _)

theorem default_settled (name : String) :
    PyStr.strip ((defaultProviderBaseUrls.lookup name).getD "") = (defaultProviderBaseUrls.lookup name).getD "" ∧
      PyStr.rstripOf "/" ((defaultProviderBaseUrls.lookup name).getD "") = (defaultProviderBaseUrls.lookup name).getD "" ∧
      ∀ p ∈ endpointSuffixes, ¬ EndsWith wide ((defaultProviderBaseUrls.lookup name).getD "") p := by
  have hall : ∀ url ∈ "" :: defaultProviderBaseUrls.map Prod.snd, url.toList.all (fun c => c.toNat < 128) = true ∧
      PyStr.strip url = url ∧ PyStr.rstripOf "/" url = url ∧
      ∀ p ∈ endpointSuffixes, PyStr.endsWithAny (PyStr.lowerAscii url) [p] = false := by
    decide +kernel
  have hmem : (defaultProviderBaseUrls.lookup name).getD "" ∈ "" :: defaultProviderBaseUrls.map Prod.snd := by
    cases hlookup : defaultProviderBaseUrls.lookup name with
    | none => exact List.mem_cons_self
    | some url =>
      obtain ⟨before, after, hentries, -⟩ := List.lookup_eq_some_iff.mp hlookup
      refine List.mem_cons_of_mem _ (List.mem_map.mpr ⟨(name, url), ?_, rfl⟩)
      rw [hentries]
      exact List.mem_append_right _ List.mem_cons_self
  obtain ⟨hascii, hstrip, hslash, hpaths⟩ := hall _ hmem
  refine ⟨hstrip, hslash, fun p hp hends => ?_⟩
  have hlower : PyStr.lower wide ((defaultProviderBaseUrls.lookup name).getD "") =
      PyStr.lowerAscii ((defaultProviderBaseUrls.lookup name).getD "") := if_pos hascii
  rw [EndsWith, hlower, hpaths p hp] at hends
  exact Bool.false_ne_true hends

theorem endpointOf_self (laws : LowersText wide) (hstrip : PyStr.strip e = e) (hslash : PyStr.rstripOf "/" e = e)
    (hpaths : ∀ p ∈ endpointSuffixes, ¬ EndsWith wide e p) : endpointOf wide e = e := by
  obtain ⟨-, -, hsame, -⟩ := @foldl_dropSuffix wide e laws endpointSuffixes fun _ hp => hp
  rw [endpointOf, hstrip, hslash]
  exact hsame hpaths

theorem normalize_endpoint_iff (laws : LowersText wide) (hne : e ≠ "") (hslash : PyStr.rstripOf "/" e = e) :
    normalizeLlmBaseUrl wide e provider = e ↔
      PyStr.strip e = e ∧ ∀ p ∈ endpointSuffixes, ¬ EndsWith wide e p := by
  constructor
  · intro h
    rw [normalizeLlmBaseUrl_eq] at h
    by_cases hempty : endpointOf wide e = ""
    · rw [if_pos hempty] at h
      obtain ⟨hstrip, -, hpaths⟩ := @default_settled wide
        (normalizeLlmProvider wide provider (PyStr.rstripOf "/" (PyStr.strip e)))
      rw [h] at hstrip hpaths
      exact ⟨hstrip, hpaths⟩
    · rw [if_neg hempty] at h
      obtain ⟨hle, hlt, -, -⟩ := @foldl_dropSuffix wide (PyStr.rstripOf "/" (PyStr.strip e)) laws endpointSuffixes
        fun _ hp => hp
      have hsame : endpointSuffixes.foldl (dropSuffix wide) (PyStr.rstripOf "/" (PyStr.strip e)) = e := h
      rw [hsame] at hle hlt
      have hshort := PyStr.length_rstripOf_le "/" (PyStr.strip e)
      have hstrip : PyStr.strip e = e := PyStr.strip_of_length (by omega)
      rw [hstrip, hslash] at hlt
      exact ⟨hstrip, fun p hp hends => absurd (hlt ⟨p, hp, hends⟩) (lt_irrefl _)⟩
  · intro h
    rw [normalizeLlmBaseUrl_eq, endpointOf_self laws h.1 hslash h.2, if_neg hne]

/-- **When the normalization of a base URL is stable.** -/
theorem baseUrl_stable_iff (laws : LowersText wide) (baseUrl provider : String) :
    normalizeLlmBaseUrl wide (normalizeLlmBaseUrl wide baseUrl provider) provider =
      normalizeLlmBaseUrl wide baseUrl provider ↔ Settled wide baseUrl := by
  obtain ⟨-, hslashes⟩ := infer_endpoint laws baseUrl
  obtain ⟨stack, root, hlayers⟩ := layered_exists laws (PyStr.rstripOf "/" (PyStr.strip baseUrl))
  obtain ⟨hroot, hpath⟩ := hlayers.foldl fun p (hp : p ∈ endpointSuffixes) => hp
  have hsettled (hnone : ∀ p ∈ endpointSuffixes, ¬ EndsWith wide (endpointOf wide baseUrl) p)
      (hstrip : PyStr.strip (endpointOf wide baseUrl) = endpointOf wide baseUrl) : Settled wide baseUrl := by
    have hsub : stack.Sublist endpointSuffixes := by
      by_contra hnot
      obtain ⟨p, hp, hends⟩ := hpath hnot
      exact hnone p hp hends
    have hleft : endpointOf wide baseUrl = root := hroot hsub
    rw [hleft] at hstrip
    exact ⟨stack, root, hlayers, hsub, hstrip⟩
  by_cases hempty : endpointOf wide baseUrl = ""
  · -- a default is normalized to itself, for the provider is the same
    refine iff_of_true ?_ (hsettled (fun p hp hends => ?_) (by rw [hempty]; rfl))
    · have hprovider := provider_stable laws baseUrl provider
      rw [normalizeLlmBaseUrl_eq baseUrl provider, if_pos hempty, normalizeLlmProvider_silent hslashes] at hprovider ⊢
      obtain ⟨hstrip, hslash, hpaths⟩ := @default_settled wide (normalizeLlmProvider wide provider baseUrl)
      rw [normalizeLlmBaseUrl_eq, endpointOf_self laws hstrip hslash hpaths]
      split
      · rw [hstrip, hslash, hprovider]
      · rfl
    · rw [hempty] at hends
      have hsuffix := endsWith_iff.mp hends
      rw [String.toList_empty, lowerChars_nil] at hsuffix
      have hlong : ∀ p ∈ endpointSuffixes, p.toList ≠ [] := by decide
      exact hlong p hp (List.suffix_nil.mp hsuffix)
  · rw [normalizeLlmBaseUrl_eq baseUrl provider, if_neg hempty,
      normalize_endpoint_iff laws hempty (endpointOf_bare baseUrl)]
    refine ⟨fun h => hsettled h.2 h.1, fun h => ?_⟩
    obtain ⟨stack, root, hlayers, hsub, hstrip⟩ := h
    have hleft : endpointOf wide baseUrl = root := (hlayers.foldl fun p hp => hp).1 hsub
    rw [hleft]
    exact ⟨hstrip, hlayers.bare⟩

theorem normalizeLlmBaseUrl_provider (laws : LowersText wide) (baseUrl provider : String) :
    normalizeLlmBaseUrl wide baseUrl (normalizeLlmProvider wide provider baseUrl) =
      normalizeLlmBaseUrl wide baseUrl provider := by
  obtain ⟨-, hslashes⟩ := infer_endpoint laws baseUrl
  rw [normalizeLlmBaseUrl_eq, normalizeLlmBaseUrl_eq, normalizeLlmProvider_known (normalizeLlmProvider_mem provider baseUrl),
    normalizeLlmProvider_silent hslashes]

theorem normalizeLlmBaseUrl_again (laws : LowersText wide) (baseUrl provider : String) :
    normalizeLlmBaseUrl wide (normalizeLlmBaseUrl wide baseUrl provider) (normalizeLlmProvider wide provider baseUrl) =
      normalizeLlmBaseUrl wide (normalizeLlmBaseUrl wide baseUrl provider) provider := by
  rw [← provider_stable laws baseUrl provider, normalizeLlmBaseUrl_provider laws]

end BaseUrl

/-! ## Connections -/

/-- The fields of the connections of the language model: the provider, the base URL and the key. -/
def connectionFields : List (String × String × String) :=
  [("provider", "base_url", "api_key"), ("vision_provider", "vision_base_url", "vision_api_key")]

/-- A base URL and a provider whose normalization is stable: the same settings, once they are
normalized, are read and applied again as the same connection. -/
structure StableConnection (world : World) (baseUrl provider : String) : Prop where
  sameUrl : normalizeLlmBaseUrl world.lower (normalizeLlmBaseUrl world.lower baseUrl provider) provider =
    normalizeLlmBaseUrl world.lower baseUrl provider
  sameProvider : normalizeLlmProvider world.lower provider (normalizeLlmBaseUrl world.lower baseUrl provider) =
    normalizeLlmProvider world.lower provider baseUrl
  reloaded : ∀ fields ∈ connectionFields, ∀ model : List (String × Json),
    model.lookup fields.1 = some (.str (normalizeLlmProvider world.lower provider baseUrl)) →
    model.lookup fields.2.1 = some (.str (normalizeLlmBaseUrl world.lower baseUrl provider)) →
    (finishConnection fields.1 fields.2.1 fields.2.2 world model).lookup fields.1 = model.lookup fields.1 ∧
      (finishConnection fields.1 fields.2.1 fields.2.2 world model).lookup fields.2.1 = model.lookup fields.2.1
  reapplied : ∀ fields ∈ connectionFields, ∀ (config : RuntimeConfig) (updates : Json),
    config.text "llm" fields.1 = normalizeLlmProvider world.lower provider baseUrl →
    config.text "llm" fields.2.1 = normalizeLlmBaseUrl world.lower baseUrl provider →
    updates.get fields.1 = .str provider → updates.get fields.2.1 = .str baseUrl →
    nextConnection world config updates fields.1 fields.2.1 = liveConnection world config fields.1 fields.2.1

section Connections

variable {world : World} {baseUrl provider : String}

theorem reapplied_connection (laws : LowersText world.lower) {config : RuntimeConfig} {updates : Json}
    {providerField baseUrlField : String}
    (hprovider : config.text "llm" providerField = normalizeLlmProvider world.lower provider baseUrl)
    (hurl : config.text "llm" baseUrlField = normalizeLlmBaseUrl world.lower baseUrl provider)
    (hgiven : updates.get providerField = .str provider) (hbase : updates.get baseUrlField = .str baseUrl) :
    nextConnection world config updates providerField baseUrlField =
        (normalizeLlmProvider world.lower provider baseUrl, normalizeLlmBaseUrl world.lower baseUrl provider) ∧
      liveConnection world config providerField baseUrlField = (normalizeLlmProvider world.lower provider baseUrl,
        normalizeLlmBaseUrl world.lower (normalizeLlmBaseUrl world.lower baseUrl provider) provider) := by
  have hmem : normalizeLlmProvider world.lower provider baseUrl ∈ llmProviderValues := normalizeLlmProvider_mem provider baseUrl
  have hknown := @normalizeLlmProvider_known world.lower _ hmem
  have hnext : nextConnection world config updates providerField baseUrlField =
      (normalizeLlmProvider world.lower provider baseUrl,
        normalizeLlmBaseUrl world.lower baseUrl (normalizeLlmProvider world.lower provider baseUrl)) := by
    unfold nextConnection
    dsimp only
    rw [hgiven, hbase, hprovider, if_neg (show ¬ Json.str baseUrl = .null from fun h => nomatch h)]
    -- a provider that is not given is the one that the configuration has
    split
    · rfl
    · show (normalizeLlmProvider world.lower _ baseUrl, normalizeLlmBaseUrl world.lower baseUrl
        (normalizeLlmProvider world.lower _ baseUrl)) = _
      rw [hknown]
  constructor
  · rw [hnext, normalizeLlmBaseUrl_provider laws]
  · unfold liveConnection
    dsimp only
    rw [hprovider, hurl, normalizeLlmBaseUrl_again laws, hknown]

theorem finishConnection_lookup {providerField baseUrlField credential q v : String}
    (hfields : providerField ≠ baseUrlField) (hcredential : credential ≠ providerField)
    (hcredential' : credential ≠ baseUrlField) {model : List (String × Json)}
    (hprovider : model.lookup providerField = some (.str q)) (hurl : model.lookup baseUrlField = some (.str v))
    (hknown : normalizeLlmProvider world.lower q v = q) (hnamed : textOr q "custom" = q) :
    (finishConnection providerField baseUrlField credential world model).lookup providerField = some (.str q) ∧
      (finishConnection providerField baseUrlField credential world model).lookup baseUrlField =
        some (.str (normalizeLlmBaseUrl world.lower v q)) := by
  have hurl' : (Json.setEntry model providerField (.str q)).lookup baseUrlField = some (.str v) := by
    rw [Json.lookup_setEntry, if_neg hfields.symm, hurl]
  have hprovider' : (Json.setEntry model providerField (.str q)).lookup providerField = some (.str q) := by
    rw [Json.lookup_setEntry, if_pos rfl]
  have hknown' : normalizeLlmProvider world.lower q (textOf ((some (Json.str v)).getD .null)) = q := hknown
  have hnamed' : textOr (textOf ((some (Json.str q)).getD .null)) "custom" = q := hnamed
  have hread (w : String) : (Json.setEntry (Json.setEntry model providerField (.str q)) baseUrlField (.str w)).lookup
      providerField = some (.str q) := by
    rw [Json.lookup_setEntry, if_neg hfields, hprovider']
  have hread' (w : String) : (Json.setEntry (Json.setEntry model providerField (.str q)) baseUrlField (.str w)).lookup
      baseUrlField = some (.str w) := by
    rw [Json.lookup_setEntry, if_pos rfl]
  unfold finishConnection
  rw [hprovider, hurl]
  dsimp only
  rw [hknown', hurl']
  dsimp only
  rw [hprovider', hnamed', hread]
  by_cases hkeyless : textOf ((some (Json.str q)).getD .null) ∈ keylessLlmProviders
  · rw [if_pos hkeyless, Json.lookup_setEntry, if_neg hcredential.symm, hread, Json.lookup_setEntry,
      if_neg hcredential'.symm, hread']
    exact ⟨rfl, rfl⟩
  · rw [if_neg hkeyless, hread, hread']
    exact ⟨rfl, rfl⟩

theorem reloaded_connection (laws : LowersText world.lower) {providerField baseUrlField credential : String}
    (hfields : providerField ≠ baseUrlField) (hcredential : credential ≠ providerField)
    (hcredential' : credential ≠ baseUrlField) {model : List (String × Json)}
    (hprovider : model.lookup providerField = some (.str (normalizeLlmProvider world.lower provider baseUrl)))
    (hurl : model.lookup baseUrlField = some (.str (normalizeLlmBaseUrl world.lower baseUrl provider))) :
    (finishConnection providerField baseUrlField credential world model).lookup providerField =
        some (.str (normalizeLlmProvider world.lower provider baseUrl)) ∧
      (finishConnection providerField baseUrlField credential world model).lookup baseUrlField =
        some (.str (normalizeLlmBaseUrl world.lower (normalizeLlmBaseUrl world.lower baseUrl provider) provider)) := by
  have hmem : normalizeLlmProvider world.lower provider baseUrl ∈ llmProviderValues := normalizeLlmProvider_mem provider baseUrl
  have hall : ∀ p ∈ llmProviderValues, textOr p "custom" = p := by decide +kernel
  have hlookups := @finishConnection_lookup world providerField baseUrlField credential _ _ hfields hcredential hcredential'
    model hprovider hurl (normalizeLlmProvider_known hmem _) (hall _ hmem)
  rw [normalizeLlmBaseUrl_again laws] at hlookups
  exact hlookups

/-- **When a connection is stable**: the provider always is, and with the base URL the saved settings are. -/
theorem connection_stable_iff (laws : LowersText world.lower) (baseUrl provider : String) :
    StableConnection world baseUrl provider ↔ Settled world.lower baseUrl := by
  constructor
  · intro h
    exact (baseUrl_stable_iff laws baseUrl provider).mp h.sameUrl
  · intro h
    have hurl := (baseUrl_stable_iff laws baseUrl provider).mpr h
    have hapart : ∀ fields ∈ connectionFields, fields.1 ≠ fields.2.1 ∧ fields.2.2 ≠ fields.1 ∧ fields.2.2 ≠ fields.2.1 := by
      decide
    refine ⟨hurl, provider_stable laws baseUrl provider, fun fields hfields model hp hu => ?_,
      fun fields hfields config updates hp hu hgiven hbase => ?_⟩
    · obtain ⟨hne, hcredential, hcredential'⟩ := hapart fields hfields
      obtain ⟨hprovider, hbase⟩ := reloaded_connection laws hne hcredential hcredential' hp hu
      rw [hprovider, hbase, hurl, hp, hu]
      exact ⟨rfl, rfl⟩
    · obtain ⟨hnext, hlive⟩ := reapplied_connection laws hp hu hgiven hbase
      rw [hnext, hlive, hurl]

end Connections

/-! ## A gateway -/

theorem ascii_lowersText : LowersText PyStr.lowerAscii := by
  have hlower (s : String) : PyStr.lower PyStr.lowerAscii s = PyStr.lowerAscii s := by
    unfold PyStr.lower
    split <;> rfl
  refine ⟨fun a b c hc => ?_, fun s hs => ?_, fun s _ => ?_⟩
  · have hkept : c.toLower = c := by
      obtain rfl | hspace := hc
      · rfl
      · apply Char.toNat_inj.mp
        rw [PyStr.toNat_toLower, if_neg]
        intro hletter
        unfold PyStr.isSpace at hspace
        simp at hspace
        omega
    apply String.toList_injective
    rw [hlower, hlower, hlower, PyStr.lowerAscii, PyStr.lowerAscii, PyStr.lowerAscii]
    simp [hkept]
  · rw [hlower, PyStr.lowerAscii, String.toList_ofList] at hs
    obtain ⟨c, hc, hslash⟩ := List.mem_map.mp hs
    have hnat := PyStr.toNat_toLower c
    rw [hslash] at hnat
    have hcode : '/'.toNat = 47 := rfl
    rw [hcode] at hnat
    have hsame : c.toNat = '/'.toNat := by
      split at hnat <;> omega
    exact Char.toNat_inj.mp hsame ▸ hc
  · rw [hlower, PyStr.lowerAscii, String.length_ofList, List.length_map, String.length_toList]

/-- A host whose lower case is that of ASCII. -/
def asciiWorld : World :=
  { plainWorld with lower := PyStr.lowerAscii }

/-- A base URL with one path is stable. -/
theorem connection_stable_gateway :
    StableConnection asciiWorld "https://gateway.example/v1/chat/completions" "custom" := by
  have hdrop : dropSuffix PyStr.lowerAscii "https://gateway.example/v1/chat/completions" "/chat/completions" =
      "https://gateway.example/v1" := by
    decide +kernel
  have hroot : Layered PyStr.lowerAscii "https://gateway.example/v1" [] "https://gateway.example/v1" :=
    .root (by decide +kernel)
  have hlayers : Layered PyStr.lowerAscii "https://gateway.example/v1/chat/completions" ["/chat/completions"]
      "https://gateway.example/v1" :=
    .layer (by decide) (by decide +kernel) (hdrop ▸ hroot)
  have hbare : PyStr.rstripOf "/" (PyStr.strip "https://gateway.example/v1/chat/completions") =
      "https://gateway.example/v1/chat/completions" := by
    decide +kernel
  exact (connection_stable_iff ascii_lowersText _ _).mpr
    ⟨["/chat/completions"], _, hbare ▸ hlayers, by decide, by decide +kernel⟩

/-- The configuration after a base URL with two paths was applied. -/
def gatewayConfig : RuntimeConfig where
  entries := [(("llm", "provider"), .str "custom"), (("llm", "base_url"), .str "https://gateway.example/v1/messages"),
    (("llm", "api_key"), .str "sk-live")]
  nodup := by decide

def gatewayUpdates : Json :=
  .obj [("provider", .str "custom"), ("base_url", .str "https://gateway.example/v1/messages/models")]

/-- **A base URL that is not stable**: of two paths the first one in the order of the code is left, and the same
settings, applied again, drop the key. -/
theorem stacked_paths_unstable :
    normalizeLlmBaseUrl asciiWorld.lower "https://gateway.example/v1/messages/models" "custom" =
        gatewayConfig.text "llm" "base_url" ∧
      ¬ StableConnection asciiWorld "https://gateway.example/v1/messages/models" "custom" ∧
      nextCredential asciiWorld gatewayConfig gatewayUpdates "provider" "base_url" "api_key" false = some "" := by
  have hfirst : normalizeLlmBaseUrl PyStr.lowerAscii "https://gateway.example/v1/messages/models" "custom" =
      "https://gateway.example/v1/messages" := by
    decide +kernel
  have hsecond : normalizeLlmBaseUrl PyStr.lowerAscii "https://gateway.example/v1/messages" "custom" =
      "https://gateway.example/v1" := by
    decide +kernel
  refine ⟨hfirst.trans (by decide +kernel), fun h => ?_, by decide +kernel⟩
  have hagain : normalizeLlmBaseUrl PyStr.lowerAscii (normalizeLlmBaseUrl PyStr.lowerAscii
      "https://gateway.example/v1/messages/models" "custom") "custom" =
        normalizeLlmBaseUrl PyStr.lowerAscii "https://gateway.example/v1/messages/models" "custom" := h.sameUrl
  rw [hfirst, hsecond] at hagain
  exact absurd hagain (by decide +kernel)

end Settings
