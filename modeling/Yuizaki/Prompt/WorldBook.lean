import Yuizaki.Lib.Greedy
import Yuizaki.Lib.PyNumber
import Yuizaki.Prompt.Blocks

/- The world book of a prompt (`_world_book_prompt` in `modules/agent/prompt_assembly.py`).

   An entry of the book comes into the prompt where its keys are in the recent messages and its
   probability allows it. The entries are sorted, and of the first ones so many are taken as fit
   into the budget of characters. -/
namespace Prompt

open PySlice

/-! ## Keys -/

/-- What `re.IGNORECASE`, `re.MULTILINE` and `re.DOTALL` say. -/
structure SearchFlags where
  ignoreCase : Bool
  multiline : Bool
  dotAll : Bool

/-- The rest of what a world book asks of its host: the bounded regex engine, if there is one,
`str.lower`, the share of 0xFFFFFFFF that a seed's digest is, in hundredths, and numbers. -/
structure Book where
  world : World
  engine : Option (Text → SearchFlags → Text → Bool)
  lower : Text → Text
  roll : Text → ℚ
  numerals : Numerals Char

def unsafeNestedQuantifier : Regex :=
  let inside := Regex.many true (.alt (Regex.noneOf "()\\") (.seq (Regex.oneOf "\\") Regex.anyChar))
  let listed := Regex.many true (Regex.noneOf "]")
  .alt
    (Regex.seqs [Regex.oneOf "(", inside, Regex.oneOf "+*", inside, Regex.oneOf ")", Regex.oneOf "+*\x7b"])
    (Regex.seqs [Regex.oneOf "[", listed, Regex.oneOf "+*", listed, Regex.oneOf "]", Regex.oneOf "+*\x7b"])

/-- `\\[1-9]` -/
def backReference : Regex := .seq (Regex.oneOf "\\") (.char fun c => '1' ≤ c ∧ c ≤ '9')

/-- `_safe_world_book_regex`, where there is an engine. -/
def safeWorldBookRegex (pattern : Text) : Bool :=
  pattern.length ≤ 200 && (backReference.searchFrom none pattern).isNone &&
    (unsafeNestedQuantifier.searchFrom none pattern).isNone

/-- `/(.*)/([A-Za-z]*)`, of the whole key: the pattern and its flags. -/
def regexKey : Text → Option (Text × Text)
  | '/' :: rest =>
    match rest.reverse.dropWhile Char.isAlpha with
    | '/' :: pattern => some (pattern.reverse, (rest.reverse.takeWhile Char.isAlpha).reverse)
    | _ => none
  | _ => none

/-- `[A-Za-z0-9_]` -/
def asciiWord (c : Char) : Bool := c.isAlphanum || c = '_'

/-- A text is there with no other part of a word before or behind it. -/
def wholeWord (needle : Text) (before : Option Char) : Text → Bool
  | [] => needle.isEmpty && !(before.any asciiWord)
  | c :: rest =>
    (needle.isPrefixOf (c :: rest) && !(before.any asciiWord) &&
        !(((c :: rest).drop needle.length).head?.any asciiWord)) ||
      wholeWord needle (some c) rest

def entryKeyMatches (B : Book) (haystack key : Text) (caseSensitive wholeWords : Bool) : Bool :=
  let needle := PyStr.stripChars key
  if needle = [] then false
  else match regexKey needle with
    | some (pattern, flags) =>
      match B.engine with
      | some search =>
        safeWorldBookRegex pattern &&
          search pattern ⟨'i' ∈ flags || !caseSensitive, 'm' ∈ flags, 's' ∈ flags⟩ (sliceTo 20000 haystack)
      | none => false
    | none =>
      let content := if caseSensitive then haystack else B.lower haystack
      let needle := if caseSensitive then needle else B.lower needle
      if !wholeWords then content.tails.any needle.isPrefixOf else wholeWord needle none content

def boundedWorldBookKeys (B : Book) (entry : Members) (name : String) : List Text :=
  (((asList (field entry name)).map fun item => PyStr.stripChars (B.world.strOf item)).filter
    fun key => !key.isEmpty).take 32

/-! ## Numbers -/

def asInt (B : Book) (value : Value) (fallback minimum maximum : ℤ) : Except NumberError ℤ := do
  let parsed ← NumberError.recover fallback (value.toFloat B.numerals >>= PyFloat.toInt)
  pure (max minimum (min maximum parsed))

def asFloat (B : Book) (value : Value) (fallback minimum maximum : ℚ) : Except NumberError PyFloat := do
  let parsed ← NumberError.recover (.finite fallback) (value.toFloat B.numerals)
  pure (PyFloat.max (.finite minimum) (PyFloat.min (.finite maximum) parsed))

/-- What a probability, from 0 to 100, says of an entry. -/
def rollAllows (B : Book) (entry : Members) (haystack : Text) : PyFloat → Bool
  | .finite probability =>
    if 100 ≤ probability then true
    else if probability ≤ 0 then false
    else
      let seed := B.world.strOr (field entry "title") ++ '\n' :: B.world.strOr (field entry "content") ++ '\n' :: haystack
      B.roll seed ≤ probability
  | _ => false

def entryProbabilityAllows (B : Book) (entry : Members) (haystack : Text) : Except NumberError Bool := do
  let probability ← asFloat B (field entry "probability") 100 0 100
  pure (rollAllows B entry haystack probability)

def worldEntryMatches (B : Book) (entry : Members) (haystack : Text) : Except NumberError Bool :=
  if isTrue (field entry "constant") then entryProbabilityAllows B entry haystack
  else
    let caseSensitive := isTrue (field entry "caseSensitive")
    let wholeWords := isTrue (field entry "matchWholeWords")
    let keys := boundedWorldBookKeys B entry "keys"
    if keys = [] then entryProbabilityAllows B entry haystack
    else if !keys.any fun key => entryKeyMatches B haystack key caseSensitive wholeWords then pure false
    else
      let secondaryKeys := boundedWorldBookKeys B entry "secondaryKeys"
      if (isTrue (field entry "selective") && !secondaryKeys.isEmpty) &&
          !secondaryKeys.any fun key => entryKeyMatches B haystack key caseSensitive wholeWords then pure false
      else entryProbabilityAllows B entry haystack

/-! ## Entries -/

def entryContent (B : Book) (entry : Members) : Text := B.world.cleanText (field entry "content") 1600

def usable (B : Book) (entry : Members) : Bool := !isFalse (field entry "enabled") && !(entryContent B entry).isEmpty

/-- The loop over the entries of the book, behind so many that were scanned. -/
def scanEntries (B : Book) (recentText : Text) : ℕ → List Value → Except NumberError (List Members)
  | _, [] => pure []
  | scannedEntries, rawEntry :: rest =>
    if 200 ≤ scannedEntries then pure []
    else if !usable B (asDict rawEntry) then scanEntries B recentText scannedEntries rest
    else do
      let matched ← worldEntryMatches B (asDict rawEntry) recentText
      let others ← scanEntries B recentText (scannedEntries + 1) rest
      pure (if matched then asDict rawEntry :: others else others)

/-- What entries are sorted by: their insertion order, their priority, turned round, and their
title. -/
structure EntryKey where
  insertionOrder : ℤ
  priority : ℤ
  title : String

/-- `a <= b` on the tuples. -/
def EntryKey.le (a b : EntryKey) : Prop :=
  a.insertionOrder < b.insertionOrder ∨
    a.insertionOrder = b.insertionOrder ∧ (a.priority < b.priority ∨ a.priority = b.priority ∧ a.title ≤ b.title)

instance : DecidableRel EntryKey.le := fun a b =>
  inferInstanceAs (Decidable (a.insertionOrder < b.insertionOrder ∨
    a.insertionOrder = b.insertionOrder ∧ (a.priority < b.priority ∨ a.priority = b.priority ∧ a.title ≤ b.title)))

/-- `int(value or 0)`, and 0 where that is no number. -/
def intOrZero (B : Book) (value : Value) : Except NumberError ℤ :=
  NumberError.recover 0 (if value.truthy then value.toInt B.numerals else .ok 0)

def priority (B : Book) (entry : Members) : Except NumberError EntryKey := do
  let priority ← intOrZero B (field entry "priority")
  let insertionOrder ← intOrZero B (field entry "insertionOrder")
  pure ⟨insertionOrder, -priority, String.ofList (B.world.strOr (field entry "title"))⟩

def keyed (B : Book) (entry : Members) : Except NumberError (EntryKey × Members) := do
  let key ← priority B entry
  pure (key, entry)

/-- `sorted(entries, key=_priority)` -/
def sortEntries (B : Book) (entries : List Members) : Except NumberError (List Members) := do
  let pairs ← entries.mapM (keyed B)
  pure ((pairs.insertionSort fun a b => a.1.le b.1).map Prod.snd)

def entryBlock (B : Book) (entry : Members) : Text :=
  let title := B.world.cleanText (field entry "title") 160
  '[' :: (if title = [] then "未命名条目".toList else title) ++ "]\n".toList ++ entryContent B entry

/-- One round of the loop that fills the section. -/
def fillLine (B : Book) (budgetChars : ℤ) (section_ : List Text × ℕ) (entry : Members) : List Text × ℕ :=
  let block := entryBlock B entry
  let nextSize := block.length + (if section_.1 = [] then 0 else 2)
  if section_.1 ≠ [] ∧ budgetChars < section_.2 + nextSize then section_
  else if section_.1 = [] ∧ budgetChars < nextSize then
    let cut := (sliceTo budgetChars block).rdropWhile PyStr.isSpace
    (section_.1 ++ [cut], section_.2 + cut.length)
  else (section_.1 ++ [block], section_.2 + nextSize)

/-! ## The section -/

def worldBookGuidance : String := "把条目视为可能过期的背景设定；与本轮事实冲突时以当前用户和工具证据为准。"

def worldBookPrompt (B : Book) (profile : Value) (messages : List Members) : Except NumberError Text := do
  let worldBook := asDict (field (asDict profile) "worldBook")
  if !isTrue (field worldBook "enabled") then pure []
  else
    let scanDepth ← asInt B (field worldBook "scanDepth") 8 1 32
    let maxEntries ← asInt B (field worldBook "maxEntries") 8 1 64
    let budgetTokens ← asInt B (field worldBook "budgetTokens") 1200 128 32000
    let recentText := joinWith ['\n'] ((sliceFrom (-scanDepth) messages).map fun message =>
      B.world.messageContentToText (field message "content"))
    let entries ← scanEntries B recentText 0 (asList (field worldBook "entries"))
    if entries = [] then pure []
    else
      let sorted ← sortEntries B entries
      let budgetChars := max 512 (budgetTokens * 4)
      let lines := ((sliceTo maxEntries sorted).foldl (fillLine B budgetChars) ([], 0)).1
      pure (contextDataBlock B.world "world_book" (.str (joinWith "\n\n".toList lines)) worldBookGuidance)

end Prompt
