import Mathlib.Data.List.DropRight
import Mathlib.Data.List.Forall2
import Yuizaki.Lib.Dict
import Yuizaki.Lib.Fallible
import Yuizaki.Lib.Fresh
import Yuizaki.Lib.Json
import Yuizaki.Lib.PyText
import Mathlib.Algebra.Group.Nat.Defs

/- The names under which a model sees the registered tools (`_openai_safe_tool_name` and
   `_build_openai_tools` in `modules/agent/tool_loop.py`).

   A name is put in the letters, digits, `_` and `-` that the interface takes and cut to 64
   characters. Where another tool has it already, a digest of the registered name comes
   behind it, and then a counter until the name is free; the name makes room for both. The
   digest needs the name in UTF-8, and a name with a lone surrogate has none. -/
namespace Tool

open Fallible

/-- A name of the interface: its characters, all of them ASCII. -/
abbrev ModelName := List Char

/-- The first eight hexadecimal digits of a SHA-1. -/
structure Digest where
  hex : List Char
  sized : hex.length = 8
  digits : ∀ c ∈ hex, c ∈ "0123456789abcdef".toList

/-- What the interface is told about a tool. -/
structure ListedTool where
  name : PyText
  description : String
  parameters : Json

/-- A list of tools: Python has no list longer than `sys.maxsize`. -/
structure ToolList where
  tools : List ListedTool
  sized : tools.length ≤ 2 ^ 63 - 1

def openaiToolNameMaxLength : ℤ := 64

/-- A character of `[A-Za-z0-9_-]`. -/
def safeChar (c : Char) : Bool := c.isAlphanum ∨ c = '_' ∨ c = '-'

/-- A code point of `[A-Za-z0-9_-]`. -/
def safePoint (c : CodePoint) : Bool := c.val < 128 ∧ safeChar (PyText.char c) = true

/-- `re.sub(r"[^A-Za-z0-9_-]+", "_", name)`: one `_` for each run of other characters, the flag
saying that a run has begun. -/
def substitute : Bool → PyText → List Char
  | _, [] => []
  | inRun, c :: cs =>
    if safePoint c then PyText.char c :: substitute false cs
    else if inRun then substitute true cs
    else '_' :: substitute true cs

/-- A character of `"_-"`. -/
def mark (c : Char) : Bool := c = '_' ∨ c = '-'

/-- `text or "tool"`. -/
def orTool (text : List Char) : List Char := if text = [] then "tool".toList else text

/-- `text[:n]`: a negative end counts from the back. -/
def sliceTo (n : ℤ) (text : List Char) : List Char :=
  if 0 ≤ n then text.take n.toNat else text.take (text.length - n.natAbs)

def baseName (name : PyText) : List Char :=
  let base := orTool (((substitute false name).dropWhile mark).rdropWhile mark)
  if openaiToolNameMaxLength < base.length then
    orTool ((sliceTo openaiToolNameMaxLength base).rdropWhile mark)
  else base

/-- A name cut so that a digest and a suffix fit behind it, and these. -/
def suffixed (base : List Char) (digest : Digest) (suffix : List Char) : List Char :=
  let prefixLen := openaiToolNameMaxLength - digest.hex.length - suffix.length - 1
  orTool ((sliceTo prefixLen base).rdropWhile mark) ++ '_' :: digest.hex ++ suffix

/-- The names that are tried one after another: the digest alone, then counters from 2. -/
def candidate (base : List Char) (digest : Digest) : ℕ → List Char
  | 0 => suffixed base digest []
  | i + 1 => suffixed base digest ('_' :: Nat.toDigits 10 (i + 2))

inductive NameError where
  | unicodeEncode
  | outOfFuel
deriving DecidableEq

def openaiSafeToolName (sha1 : PyText → Digest) (fuel : ℕ) (name : PyText) (usedNames : List ModelName) :
    Except NameError ModelName :=
  if baseName name ∉ usedNames then .ok (baseName name)
  else if PyText.encodable name = false then .error .unicodeEncode
  else match Fresh.search (candidate (baseName name) (sha1 name)) usedNames fuel 0 with
    | some found => .ok found
    | none => .error .outOfFuel

structure OpenaiTool where
  name : ModelName
  description : String
  parameters : Json

/-- The names in use, the names they stand for and the functions so far. -/
structure OpenaiTools where
  usedNames : List ModelName
  modelToRegistryName : Dict ModelName PyText
  tools : List OpenaiTool

def OpenaiTools.add (sha1 : PyText → Digest) (fuel : ℕ) (built : OpenaiTools) (tool : ListedTool) :
    Except NameError OpenaiTools := do
  let modelName ← openaiSafeToolName sha1 fuel tool.name built.usedNames
  .ok {
    usedNames := modelName :: built.usedNames
    modelToRegistryName := built.modelToRegistryName.set modelName tool.name
    tools := built.tools ++ [⟨modelName, tool.description, tool.parameters⟩] }

def buildOpenaiTools (sha1 : PyText → Digest) (fuel : ℕ) (tools : List ListedTool) :
    Except NameError OpenaiTools :=
  tools.foldlM (OpenaiTools.add sha1 fuel) ⟨[], Dict.empty, []⟩

/-! ## What a name is made of -/

structure Legal (name : ModelName) : Prop where
  nonempty : name ≠ []
  bounded : name.length ≤ 64
  safe : ∀ c ∈ name, safeChar c = true

section Names

variable {name : PyText} {base text suffix : List Char} {digest : Digest}

theorem substitute_safe (inRun : Bool) (name : PyText) : ∀ c ∈ substitute inRun name, safeChar c = true := by
  induction name generalizing inRun with
  | nil => exact fun c hc => absurd hc List.not_mem_nil
  | cons point rest ih =>
    rw [substitute]
    by_cases hsafe : safePoint point = true
    · rw [if_pos hsafe, List.forall_mem_cons]
      unfold safePoint at hsafe
      exact ⟨(of_decide_eq_true hsafe).2, ih false⟩
    · rw [if_neg hsafe]
      cases inRun with
      | true =>
        rw [if_pos rfl]
        exact ih true
      | false =>
        rw [if_neg Bool.false_ne_true, List.forall_mem_cons]
        exact ⟨by decide, ih true⟩

theorem orTool_ne (text : List Char) : orTool text ≠ [] := by
  unfold orTool
  split
  · decide
  · assumption

theorem orTool_safe (h : ∀ c ∈ text, safeChar c = true) : ∀ c ∈ orTool text, safeChar c = true := by
  unfold orTool
  split
  · exact List.all_eq_true.mp (by decide)
  · exact h

theorem orTool_length {n : ℕ} (hn : 4 ≤ n) (h : text.length ≤ n) : (orTool text).length ≤ n := by
  unfold orTool
  split
  · exact hn
  · exact h

theorem mem_sliceTo {n : ℤ} {c : Char} (h : c ∈ sliceTo n text) : c ∈ text := by
  unfold sliceTo at h
  split at h <;> exact List.mem_of_mem_take h

theorem mem_rdropWhile {c : Char} (h : c ∈ text.rdropWhile mark) : c ∈ text :=
  (List.rdropWhile_prefix mark text).subset h

theorem length_rdropWhile_le : (text.rdropWhile mark).length ≤ text.length :=
  (List.rdropWhile_prefix mark text).length_le

theorem length_sliceTo {n : ℕ} {end_ : ℤ} (h : end_ = n) : (sliceTo end_ text).length ≤ n := by
  unfold sliceTo
  rw [if_pos (by omega), List.length_take]
  omega

theorem baseName_legal (name : PyText) : Legal (baseName name) := by
  have hsafe : ∀ c ∈ orTool (((substitute false name).dropWhile mark).rdropWhile mark), safeChar c = true := by
    refine orTool_safe fun c hc => substitute_safe false name c ?_
    exact (List.dropWhile_sublist mark).subset (mem_rdropWhile hc)
  unfold baseName
  dsimp only
  split
  · refine ⟨orTool_ne _, orTool_length (by decide) ?_, orTool_safe fun c hc => ?_⟩
    · exact length_rdropWhile_le.trans (length_sliceTo rfl)
    · exact hsafe c (mem_sliceTo (mem_rdropWhile hc))
  · rename_i hshort
    refine ⟨orTool_ne _, ?_, hsafe⟩
    unfold openaiToolNameMaxLength at hshort
    omega

theorem hex_safe (digest : Digest) : ∀ c ∈ digest.hex, safeChar c = true := by
  have hall : "0123456789abcdef".toList.all safeChar = true := by decide +kernel
  exact fun c hc => List.all_eq_true.mp hall c (digest.digits c hc)

theorem suffixed_legal (hbase : ∀ c ∈ base, safeChar c = true) (hsuffix : ∀ c ∈ suffix, safeChar c = true)
    (hlength : suffix.length ≤ 51) : Legal (suffixed base digest suffix) := by
  have hsized := digest.sized
  have hroom : openaiToolNameMaxLength - digest.hex.length - suffix.length - 1 = (55 - suffix.length : ℕ) := by
    unfold openaiToolNameMaxLength
    omega
  unfold suffixed
  dsimp only
  refine ⟨by simp, ?_, fun c hc => ?_⟩
  · have hcut : (orTool ((sliceTo (openaiToolNameMaxLength - digest.hex.length - suffix.length - 1) base).rdropWhile
        mark)).length ≤ 55 - suffix.length :=
      orTool_length (by omega) (length_rdropWhile_le.trans (length_sliceTo hroom))
    simp only [List.length_append, List.length_cons]
    omega
  · obtain hfront | hlast := List.mem_append.mp hc
    · obtain hcut | hdigest := List.mem_append.mp hfront
      · exact orTool_safe (fun c hc => hbase c (mem_sliceTo (mem_rdropWhile hc))) c hcut
      · obtain rfl | hhex := List.mem_cons.mp hdigest
        · decide
        · exact hex_safe digest c hhex
    · exact hsuffix c hlast

theorem digits_safe (n : ℕ) : ∀ c ∈ Nat.toDigits 10 n, safeChar c = true := by
  intro c hc
  have hdigit : c.isDigit = true := Nat.isDigit_of_mem_toDigits (by decide) (by decide) hc
  unfold safeChar Char.isAlphanum
  simp [hdigit]

theorem candidate_legal (hbase : ∀ c ∈ base, safeChar c = true) {i : ℕ} (hi : i ≤ 2 ^ 64) :
    Legal (candidate base digest i) := by
  cases i with
  | zero => exact suffixed_legal hbase (fun c hc => absurd hc List.not_mem_nil) (by decide)
  | succ i =>
    refine suffixed_legal hbase ?_ ?_
    · rw [List.forall_mem_cons]
      exact ⟨by decide, digits_safe (i + 2)⟩
    · have hdigits : (Nat.toDigits 10 (i + 2)).length ≤ 50 := by
        rw [Nat.length_toDigits_le_iff (by decide) (by decide)]
        omega
      rw [List.length_cons]
      omega

theorem candidate_injective (base : List Char) (digest : Digest) (i j : ℕ)
    (h : candidate base digest (1 + i) = candidate base digest (1 + j)) : i = j := by
  have hlast (n : ℕ) (front : List Char) :
      ((front ++ '_' :: Nat.toDigits 10 n).reverse.takeWhile (fun c => c ≠ '_')).reverse = Nat.toDigits 10 n := by
    have hplain : ∀ c ∈ (Nat.toDigits 10 n).reverse, decide (c ≠ '_') = true := by
      intro c hc
      refine decide_eq_true fun heq => ?_
      exact Nat.underscore_not_in_toDigits (heq ▸ List.mem_reverse.mp hc)
    rw [List.reverse_append, List.reverse_cons, List.append_assoc, List.takeWhile_append_of_pos hplain]
    simp
  have hdigits : Nat.toDigits 10 (i + 2) = Nat.toDigits 10 (j + 2) := by
    rw [Nat.add_comm 1 i, Nat.add_comm 1 j] at h
    unfold candidate suffixed at h
    dsimp only at h
    rw [← hlast (i + 2), h, hlast (j + 2)]
  have hread := congrArg (fun ds => Nat.ofDigitChars 10 ds 0) hdigits
  rw [Nat.ofDigitChars_ten_toDigits, Nat.ofDigitChars_ten_toDigits] at hread
  omega

theorem openaiSafeToolName_spec (sha1 : PyText → Digest) {fuel : ℕ} (name : PyText) {usedNames : List ModelName}
    (hused : usedNames.length ≤ 2 ^ 63 - 1) (hfuel : usedNames.length + 1 < fuel) :
    (openaiSafeToolName sha1 fuel name usedNames = .error .unicodeEncode ∧ baseName name ∈ usedNames ∧
        PyText.encodable name = false) ∨
      ∃ found, openaiSafeToolName sha1 fuel name usedNames = .ok found ∧ Legal found ∧ found ∉ usedNames ∧
        (PyText.encodable name = true ∨ baseName name ∉ usedNames) := by
  unfold openaiSafeToolName
  by_cases hfree : baseName name ∉ usedNames
  · rw [if_pos hfree]
    exact Or.inr ⟨baseName name, rfl, baseName_legal name, hfree, Or.inr hfree⟩
  · rw [if_neg hfree]
    cases hencodable : PyText.encodable name with
    | false => exact Or.inl ⟨rfl, not_not.mp hfree, rfl⟩
    | true =>
      rw [if_neg (by decide)]
      have hinj : ∀ i j, candidate (baseName name) (sha1 name) (0 + 1 + i) =
          candidate (baseName name) (sha1 name) (0 + 1 + j) → i = j := by
        rw [Nat.zero_add]
        exact candidate_injective (baseName name) (sha1 name)
      have hroom : 1 + usedNames.length < fuel := by omega
      obtain ⟨i, hbound, hnew, hfound⟩ := Fresh.search_ends hinj hroom
      rw [hfound]
      refine Or.inr ⟨_, rfl, candidate_legal (baseName_legal name).safe ?_, hnew, Or.inl rfl⟩
      omega

end Names

/-! ## The whole list -/

/-- What is built for a list of tools: under each name that a model sees there is the tool it was
made for, and no name is seen twice. -/
structure OpenaiTools.Named (done : List ListedTool) (built : OpenaiTools) : Prop where
  made : List.Forall₂ (fun (tool : ListedTool) (f : OpenaiTool) =>
    f.description = tool.description ∧ f.parameters = tool.parameters ∧
      built.modelToRegistryName.get f.name = some tool.name) done built.tools
  distinct : (built.tools.map OpenaiTool.name).Nodup
  legal : ∀ f ∈ built.tools, Legal f.name
  used : ∀ name, name ∈ built.usedNames ↔ name ∈ built.tools.map OpenaiTool.name
  counted : built.usedNames.length = done.length

/-- The names in use once a list of tools has its names. -/
def takenNames (sha1 : PyText → Digest) (fuel : ℕ) (tools : List ListedTool) : List ModelName :=
  tools.foldl (fun used tool => match openaiSafeToolName sha1 fuel tool.name used with
    | .ok name => name :: used
    | .error _ => used) []

/-- A tool whose name cannot be encoded does not sanitise to the name of a tool before it. -/
def Encodes (sha1 : PyText → Digest) (fuel : ℕ) (tools : List ListedTool) : Prop :=
  ∀ before tool after, tools = before ++ tool :: after →
    PyText.encodable tool.name = true ∨ baseName tool.name ∉ takenNames sha1 fuel before

section Build

variable {sha1 : PyText → Digest} {fuel : ℕ} {done tools : List ListedTool} {built : OpenaiTools}
  {tool : ListedTool} {found : ModelName}

theorem OpenaiTools.Named.add (h : built.Named done) (hlegal : Legal found) (hnew : found ∉ built.usedNames) :
    OpenaiTools.Named (done ++ [tool]) {
      usedNames := found :: built.usedNames
      modelToRegistryName := built.modelToRegistryName.set found tool.name
      tools := built.tools ++ [⟨found, tool.description, tool.parameters⟩] } := by
  have hfresh : ∀ f ∈ built.tools, f.name ≠ found := fun f hf heq =>
    hnew ((h.used found).mpr (heq ▸ List.mem_map_of_mem hf))
  constructor
  · refine List.rel_append ?_ (List.Forall₂.cons ⟨rfl, rfl, Dict.get_set_self⟩ List.Forall₂.nil)
    have hkept := h.made
    rw [List.forall₂_iff_zip] at hkept ⊢
    refine ⟨hkept.1, fun hzip => ?_⟩
    obtain ⟨hdescription, hparameters, hback⟩ := hkept.2 hzip
    refine ⟨hdescription, hparameters, ?_⟩
    show (built.modelToRegistryName.set found tool.name).get _ = _
    rw [Dict.get_set_of_ne (hfresh _ (List.of_mem_zip hzip).2)]
    exact hback
  · rw [List.map_append, List.nodup_append]
    refine ⟨h.distinct, List.nodup_singleton _, fun name hname other hother heq => ?_⟩
    obtain ⟨f, hf, rfl⟩ := List.mem_map.mp hname
    exact hfresh f hf (heq.trans (List.mem_singleton.mp hother))
  · intro f hf
    obtain hold | hthis := List.mem_append.mp hf
    · exact h.legal f hold
    · rw [List.mem_singleton.mp hthis]
      exact hlegal
  · intro name
    show name ∈ found :: built.usedNames ↔ _
    rw [List.mem_cons, List.map_append, List.mem_append, h.used name, or_comm]
    exact or_congr_right List.mem_singleton.symm
  · show built.usedNames.length + 1 = _
    rw [h.counted, List.length_append]
    rfl

theorem takenNames_append : takenNames sha1 fuel (done ++ [tool]) =
    match openaiSafeToolName sha1 fuel tool.name (takenNames sha1 fuel done) with
    | .ok name => name :: takenNames sha1 fuel done
    | .error _ => takenNames sha1 fuel done := by
  unfold takenNames
  rw [List.foldl_append]
  rfl

theorem build_spec (hsized : tools.length ≤ 2 ^ 63 - 1) (hfuel : tools.length + 1 < fuel) :
    (Encodes sha1 fuel tools ∧ ∃ built, buildOpenaiTools sha1 fuel tools = .ok built ∧ built.Named tools ∧
        built.usedNames = takenNames sha1 fuel tools) ∨
      ¬ Encodes sha1 fuel tools ∧ buildOpenaiTools sha1 fuel tools = .error .unicodeEncode := by
  induction tools using List.reverseRecOn with
  | nil =>
    refine Or.inl ⟨fun before tool after heq => ?_, _, rfl, ?_, rfl⟩
    · cases before <;> cases heq
    · exact ⟨List.Forall₂.nil, List.nodup_nil, fun f hf => absurd hf List.not_mem_nil, fun _ => Iff.rfl, rfl⟩
  | append_singleton done tool ih =>
    rw [List.length_append, List.length_singleton] at hsized hfuel
    have hbuild : buildOpenaiTools sha1 fuel (done ++ [tool]) =
        buildOpenaiTools sha1 fuel done >>= fun built => built.add sha1 fuel tool := by
      unfold buildOpenaiTools
      rw [List.foldlM_append]
      refine congrArg _ (funext fun built => ?_)
      rw [List.foldlM_cons]
      exact bind_pure _
    rw [hbuild]
    obtain ⟨hencodes, built, hok, hnamed, htaken⟩ | ⟨hfails, herror⟩ := ih (by omega) (by omega)
    · rw [hok]
      show (_ ∧ ∃ built', built.add sha1 fuel tool = .ok built' ∧ _) ∨ _ ∧ built.add sha1 fuel tool = _
      unfold OpenaiTools.add
      have hcounted := hnamed.counted
      obtain ⟨herror, hused, hplain⟩ | ⟨found, hfound, hlegal, hnew, hcan⟩ :=
        openaiSafeToolName_spec sha1 tool.name (show built.usedNames.length ≤ 2 ^ 63 - 1 by omega)
          (show built.usedNames.length + 1 < fuel by omega)
      · rw [herror]
        refine Or.inr ⟨fun hall => ?_, rfl⟩
        obtain hcan | hfree := hall done tool [] rfl
        · rw [hplain] at hcan
          cases hcan
        · exact hfree (htaken ▸ hused)
      · rw [hfound]
        refine Or.inl ⟨fun before other after heq => ?_, _, rfl, hnamed.add hlegal hnew, ?_⟩
        · obtain rfl | ⟨rest, last, rfl⟩ := List.eq_nil_or_concat' after
          · -- the tool is the last one
            obtain ⟨rfl, hlast⟩ := List.append_inj' heq rfl
            obtain rfl := (List.cons.inj hlast).1
            rw [← htaken]
            exact hcan
          · have hsplit : done ++ [tool] = (before ++ other :: rest) ++ [last] := by
              rw [heq, List.append_assoc]
              rfl
            exact hencodes before other rest (List.append_inj' hsplit rfl).1
        · rw [takenNames_append, ← htaken, hfound]
    · rw [herror]
      refine Or.inr ⟨fun hall => hfails fun before other after heq => ?_, rfl⟩
      refine hall before other (after ++ [tool]) ?_
      rw [heq, List.append_assoc]
      rfl

end Build

/-- Whatever the tools are called, building ends: with different names, each one that the
interface takes and each leading back to its own tool, exactly where no tool whose name has a lone
surrogate sanitises to the name of a tool before it. -/
theorem openai_tools_named (sha1 : PyText → Digest) (list : ToolList) {fuel : ℕ}
    (hfuel : list.tools.length + 1 < fuel) :
    buildOpenaiTools sha1 fuel list.tools ≠ .error .outOfFuel ∧
      ((∃ built, buildOpenaiTools sha1 fuel list.tools = .ok built ∧ built.Named list.tools) ↔
        Encodes sha1 fuel list.tools) := by
  obtain ⟨hencodes, built, hok, hnamed, -⟩ | ⟨hfails, herror⟩ := build_spec list.sized hfuel
  · rw [hok]
    exact ⟨fun herror => (nomatch herror), fun _ => hencodes, fun _ => ⟨built, rfl, hnamed⟩⟩
  · rw [herror]
    refine ⟨fun hsame => (nomatch Except.error.inj hsame), fun hbuilt => ?_, fun hencodes => absurd hencodes hfails⟩
    obtain ⟨built, hok, -⟩ := hbuilt
    cases hok

/-! ## Two lists of tools -/

def zeroDigest : Digest where
  hex := "00000000".toList
  sized := by decide
  digits := fun c hc => of_decide_eq_true (List.all_eq_true.mp
    (show "00000000".toList.all (fun c => decide (c ∈ "0123456789abcdef".toList)) = true by decide) c hc)

def toolNamed (name : PyText) : ListedTool := ⟨name, "", .obj []⟩

/-- Two tools that sanitise to one name, and one with the name that the second of them gets. -/
def crowdedTools : ToolList where
  tools := [toolNamed (PyText.ofString "web.search"), toolNamed (PyText.ofString "web search"),
    toolNamed (PyText.ofString "web_search_00000000"), toolNamed (PyText.ofString "web/search")]
  sized := by decide

/-- The names of the crowded list are kept apart. -/
theorem openai_tools_named_crowded :
    ∃ built, buildOpenaiTools (fun _ => zeroDigest) 8 crowdedTools.tools = .ok built ∧ built.Named crowdedTools.tools := by
  have hencodable : ∀ tool ∈ crowdedTools.tools, PyText.encodable tool.name = true := by decide +kernel
  refine (openai_tools_named (fun _ => zeroDigest) crowdedTools (by decide)).2.mpr fun before tool after heq => ?_
  exact Or.inl (hencodable tool (heq ▸ List.mem_append_right _ List.mem_cons_self))

/-- A name with a lone surrogate behind one that it sanitises to. -/
def surrogateTools : ToolList where
  tools := [toolNamed (PyText.ofString "x"), toolNamed (⟨0xD800, by decide⟩ :: PyText.ofString "x")]
  sized := by decide

/-- No names are built for it. -/
theorem surrogate_unnamed :
    ¬ ∀ (sha1 : PyText → Digest) (list : ToolList), ∃ fuel built,
      buildOpenaiTools sha1 fuel list.tools = .ok built ∧ built.Named list.tools := by
  intro hclaim
  obtain ⟨fuel, built, hok, -⟩ := hclaim (fun _ => zeroDigest) surrogateTools
  have hfirst (fuel : ℕ) : buildOpenaiTools (fun _ => zeroDigest) fuel surrogateTools.tools =
      .error .unicodeEncode := rfl
  rw [hfirst] at hok
  cases hok

end Tool
