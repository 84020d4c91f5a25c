import Mathlib.Data.List.Basic
import Mathlib.Data.List.DropRight
import Mathlib.Data.List.Infix

/- Python's string operations.

   `str.strip()` removes leading and trailing characters for which `str.isspace`
   holds (`isSpace` lists those code points); slices, `in` and `join` work on code
   points, which are the characters of a `String`. -/
namespace PyStr

/-- The code points of `str.isspace`. -/
def isSpace (c : Char) : Bool :=
  let n := c.toNat
  (9 ≤ n && n ≤ 13) || (28 ≤ n && n ≤ 32) || n == 0x85 || n == 0xA0 || n == 0x1680 ||
    (0x2000 ≤ n && n ≤ 0x200A) || n == 0x2028 || n == 0x2029 || n == 0x202F ||
    n == 0x205F || n == 0x3000

/-- `strip` on the characters. -/
def stripChars (cs : List Char) : List Char :=
  ((cs.dropWhile isSpace).reverse.dropWhile isSpace).reverse

/-- `str.strip()`. -/
def strip (s : String) : String := String.ofList (stripChars s.toList)

/-- `str.rstrip(chars)`. -/
def rstripOf (chars s : String) : String :=
  String.ofList ((s.toList.reverse.dropWhile (fun c => c ∈ chars.toList)).reverse)

/-- `str.strip(chars)`. -/
def stripOf (chars s : String) : String :=
  rstripOf chars (String.ofList (s.toList.dropWhile (fun c => c ∈ chars.toList)))

/-- `str.lower()` on ASCII letters, every other character left alone. -/
def lowerAscii (s : String) : String := String.ofList (s.toList.map Char.toLower)

/-- `str.lower()`: ASCII text by its letters, any other text by a given table. -/
def lower (wide : String → String) (s : String) : String :=
  if s.toList.all (fun c => c.toNat < 128) then lowerAscii s else wide s

/-- `value[:n]` on text. -/
def textPrefix (n : ℕ) (value : String) : String := String.ofList (value.toList.take n)

/-- `text.replace(c, d)` on single characters. -/
def replaceChar (c d : Char) (text : String) : String :=
  String.ofList (text.toList.map (fun x => if x = c then d else x))

/-- `needle in text`. -/
def contains (text needle : String) : Bool := text.toList.tails.any needle.toList.isPrefixOf

/-- `text.endswith(suffixes)`. -/
def endsWithAny (text : String) (suffixes : List String) : Bool :=
  suffixes.any (fun suffix => suffix.toList.isSuffixOf text.toList)

/-! ## Blank strings -/

theorem stripChars_eq_nil {cs : List Char} : stripChars cs = [] ↔ ∀ c ∈ cs, isSpace c = true := by
  have hleft : cs.dropWhile isSpace = [] ↔ ∀ c ∈ cs, isSpace c = true := List.dropWhile_eq_nil_iff
  have hboth : stripChars cs = (cs.dropWhile isSpace).rdropWhile isSpace := rfl
  rw [hboth, List.rdropWhile_eq_nil_iff, ← hleft]
  refine ⟨fun hall => ?_, fun hnil c hc => by rw [hnil] at hc; cases hc⟩
  by_contra hne
  have hhead := List.head_dropWhile_not isSpace hne
  rw [hall _ (List.head_mem hne)] at hhead
  cases hhead

theorem stripChars_stripChars (cs : List Char) : stripChars (stripChars cs) = stripChars cs := by
  have hboth (cs : List Char) : stripChars cs = (cs.dropWhile isSpace).rdropWhile isSpace := rfl
  rcases List.eq_nil_or_concat' (stripChars cs) with hnil | ⟨init, c, hlast⟩
  · rw [hnil]
    rfl
  -- what is left begins as the text without its leading blanks, and ends with no blank
  have hne : stripChars cs ≠ [] := by rw [hlast]; exact List.append_ne_nil_of_right_ne_nil _ (by simp)
  have hprefix : stripChars cs <+: cs.dropWhile isSpace := List.rdropWhile_prefix isSpace _
  have hrest : cs.dropWhile isSpace ≠ [] := fun hnil => by
    rw [hnil] at hprefix
    exact hne (List.prefix_nil.mp hprefix)
  have hhead : (stripChars cs).head hne = (cs.dropWhile isSpace).head hrest := hprefix.head hne
  have hfirst : (stripChars cs).dropWhile isSpace = stripChars cs := by
    rw [List.dropWhile_eq_self_iff]
    intro hpos hspace
    have hbegin : (stripChars cs)[0] = (stripChars cs).head hne :=
      (List.head_eq_getElem hne).symm
    rw [hbegin, hhead, List.head_dropWhile_not isSpace hrest] at hspace
    cases hspace
  rw [hboth (stripChars cs), hfirst, hboth cs]
  exact List.rdropWhile_idempotent isSpace _

theorem strip_strip (s : String) : strip (strip s) = strip s := by
  unfold strip
  rw [String.toList_ofList, stripChars_stripChars]

theorem strip_strip_ne {s : String} (h : strip s ≠ "") : strip (strip s) ≠ "" := by
  rw [strip_strip]
  exact h

/-! ## What is stripped -/

theorem toList_rstripOf (chars s : String) :
    (rstripOf chars s).toList = s.toList.rdropWhile (fun c => c ∈ chars.toList) := by
  unfold rstripOf
  rw [String.toList_ofList]
  rfl

theorem rstripOf_rstripOf (chars s : String) : rstripOf chars (rstripOf chars s) = rstripOf chars s := by
  apply String.toList_injective
  rw [toList_rstripOf, toList_rstripOf, List.rdropWhile_idempotent]

theorem length_rstripOf_le (chars s : String) : (rstripOf chars s).length ≤ s.length := by
  rw [← String.length_toList, toList_rstripOf, ← String.length_toList]
  exact (List.rdropWhile_prefix _ _).length_le

theorem strip_parts (s : String) : ∃ before after, s.toList = before ++ (strip s).toList ++ after ∧
    (∀ c ∈ before, isSpace c = true) ∧ ∀ c ∈ after, isSpace c = true := by
  have hright : (s.toList.dropWhile isSpace).rdropWhile isSpace ++
      (s.toList.dropWhile isSpace).rtakeWhile isSpace = s.toList.dropWhile isSpace :=
    List.rdropWhile_append_rtakeWhile
  refine ⟨s.toList.takeWhile isSpace, (s.toList.dropWhile isSpace).rtakeWhile isSpace, ?_,
    fun c hc => List.mem_takeWhile_imp hc, fun c hc => List.mem_rtakeWhile_imp hc⟩
  have hstrip : (strip s).toList = (s.toList.dropWhile isSpace).rdropWhile isSpace := by
    unfold strip
    rw [String.toList_ofList]
    rfl
  rw [hstrip, List.append_assoc, hright, List.takeWhile_append_dropWhile]

theorem strip_of_length {s : String} (h : s.length ≤ (strip s).length) : strip s = s := by
  obtain ⟨before, after, hs, -, -⟩ := strip_parts s
  have hlength : s.length = before.length + (strip s).length + after.length := by
    rw [← String.length_toList, hs, List.length_append, List.length_append, String.length_toList]
  have hbefore : before = [] := List.length_eq_zero_iff.mp (by omega)
  have hafter : after = [] := List.length_eq_zero_iff.mp (by omega)
  apply String.toList_injective
  rw [hs, hbefore, hafter, List.nil_append, List.append_nil]

/-! ## Parts -/

theorem contains_iff {text needle : String} : contains text needle = true ↔ needle.toList <:+: text.toList := by
  unfold contains
  rw [List.any_eq_true]
  constructor
  · intro h
    obtain ⟨tail, htail, hprefix⟩ := h
    exact (List.isPrefixOf_iff_prefix.mp hprefix).isInfix.trans ((List.mem_tails _ _).mp htail).isInfix
  · intro h
    obtain ⟨before, after, heq⟩ := h
    refine ⟨needle.toList ++ after, ?_, ?_⟩
    · rw [List.mem_tails, ← heq, List.append_assoc]
      exact List.suffix_append _ _
    · rw [List.isPrefixOf_iff_prefix]
      exact List.prefix_append _ _

/-! ## Lower case -/

theorem toNat_toLower (c : Char) :
    c.toLower.toNat = if 65 ≤ c.toNat ∧ c.toNat ≤ 90 then c.toNat + 32 else c.toNat := by
  unfold Char.toLower
  split
  · rename_i h
    have hlow : 65 ≤ c.toNat := UInt32.le_iff_toNat_le.mp h.1
    have hhigh : c.val.toNat ≤ 90 := UInt32.le_iff_toNat_le.mp h.2
    rw [if_pos ⟨hlow, hhigh⟩]
    show (c.val + 32).toNat = c.val.toNat + 32
    rw [UInt32.toNat_add]
    show (c.val.toNat + 32) % 2 ^ 32 = _
    omega
  · rename_i h
    refine (if_neg (fun hupper => h ?_)).symm
    exact ⟨UInt32.le_iff_toNat_le.mpr hupper.1, UInt32.le_iff_toNat_le.mpr hupper.2⟩

theorem toLower_toLower (c : Char) : c.toLower.toLower = c.toLower := by
  apply Char.toNat_inj.mp
  rw [toNat_toLower c.toLower, toNat_toLower]
  by_cases h : 65 ≤ c.toNat ∧ c.toNat ≤ 90
  · rw [if_pos h, if_neg (by omega)]
  · rw [if_neg h, if_neg h]

theorem isSpace_toLower (c : Char) : isSpace c.toLower = isSpace c := by
  have hletter (n : ℕ) (hlow : 65 ≤ n) (hhigh : n ≤ 122) :
      ((9 ≤ n && n ≤ 13) || (28 ≤ n && n ≤ 32) || n == 0x85 || n == 0xA0 || n == 0x1680 ||
        (0x2000 ≤ n && n ≤ 0x200A) || n == 0x2028 || n == 0x2029 || n == 0x202F ||
        n == 0x205F || n == 0x3000) = false := by
    simp
    omega
  unfold isSpace
  rw [toNat_toLower]
  split
  · dsimp only
    rw [hletter _ (by omega) (by omega), hletter _ (by omega) (by omega)]
  · rfl

theorem stripChars_map {f : Char → Char} (h : ∀ c, isSpace (f c) = isSpace c) (cs : List Char) :
    stripChars (cs.map f) = (stripChars cs).map f := by
  have hblank : isSpace ∘ f = isSpace := funext h
  unfold stripChars
  rw [List.dropWhile_map, hblank, ← List.map_reverse, List.dropWhile_map, hblank, List.map_reverse]

section Ascii

theorem lower_lower (s : String) : lower id (lower id s) = lower id s := by
  unfold lower
  split
  · rename_i hascii
    have hlow : (lowerAscii s).toList.all (fun c => decide (c.toNat < 128)) = true := by
      rw [lowerAscii, String.toList_ofList, List.all_map, List.all_eq_true]
      intro c hc
      have hbound := of_decide_eq_true (List.all_eq_true.mp hascii c hc)
      refine decide_eq_true ?_
      rw [toNat_toLower]
      split <;> omega
    rw [if_pos hlow]
    unfold lowerAscii
    rw [String.toList_ofList, List.map_map]
    have htwice : Char.toLower ∘ Char.toLower = Char.toLower := funext toLower_toLower
    rw [htwice]
  · rename_i hwide
    exact if_neg hwide

theorem strip_lower (s : String) : strip (lower id (strip s)) = lower id (strip s) := by
  unfold lower
  split
  · unfold strip lowerAscii
    rw [String.toList_ofList, String.toList_ofList, stripChars_map isSpace_toLower,
      stripChars_stripChars]
  · exact strip_strip s

theorem lower_ne {s : String} (h : s ≠ "") : lower id s ≠ "" := by
  unfold lower
  split
  · intro hnil
    have hchars := congrArg String.toList hnil
    rw [lowerAscii, String.toList_ofList] at hchars
    have hempty : s.toList = [] := List.map_eq_nil_iff.mp hchars
    exact h (String.toList_eq_nil_iff.mp hempty)
  · exact h

end Ascii

end PyStr
