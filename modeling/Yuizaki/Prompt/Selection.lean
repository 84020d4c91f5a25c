import Yuizaki.Prompt.WorldBook

/- What the section of a world book holds.

   The entries that match are sorted, and of the first ones those are chosen that fit into the
   budget; all are whole, but for a first one that is larger than the budget. The section is
   what it should be just where no number overflows and the chosen entries have no more than
   12000 characters in all (`section_selected`): a number that is infinite, or too large for a
   float, raises an error that nothing catches, and a longer text is cut once more. -/
namespace Prompt

open PySlice

/-! ## Numbers that overflow -/

section Numbers

variable (B : Book) (value : Value)

/-- `int(float(value))` overflows. -/
def TooLarge : Prop := (value.toFloat B.numerals >>= PyFloat.toInt) = .error .overflowError

/-- `float(value)` overflows. -/
def TooLargeFloat : Prop := value.toFloat B.numerals = .error .overflowError

/-- `int(value)` overflows. -/
def TooLargeInt : Prop := value.toInt B.numerals = .error .overflowError

/-- The number that `_as_int` gives, where nothing overflows. -/
def clampInt (fallback minimum maximum : ℤ) : ℤ :=
  max minimum (min maximum (NumberError.recovered fallback (value.toFloat B.numerals >>= PyFloat.toInt)))

/-- The number that `_as_float` gives. -/
def clampFloat (fallback minimum maximum : ℚ) : PyFloat :=
  PyFloat.max (.finite minimum) (PyFloat.min (.finite maximum) (NumberError.recovered (.finite fallback)
    (value.toFloat B.numerals)))

/-- The number that an entry is sorted by. -/
def orderInt : ℤ := NumberError.recovered 0 (if value.truthy then value.toInt B.numerals else .ok 0)

variable {B value}

theorem asInt_ok (h : ¬ TooLarge B value) (fallback minimum maximum : ℤ) :
    asInt B value fallback minimum maximum = .ok (clampInt B value fallback minimum maximum) := by
  unfold asInt
  rw [NumberError.recover_ok h]
  rfl

theorem asInt_overflow (h : TooLarge B value) (fallback minimum maximum : ℤ) :
    asInt B value fallback minimum maximum = .error .overflowError := by
  unfold asInt
  rw [NumberError.recover_overflow h]
  rfl

theorem asFloat_ok (h : ¬ TooLargeFloat B value) (fallback minimum maximum : ℚ) :
    asFloat B value fallback minimum maximum = .ok (clampFloat B value fallback minimum maximum) := by
  unfold asFloat
  rw [NumberError.recover_ok h]
  rfl

theorem asFloat_overflow (h : TooLargeFloat B value) (fallback minimum maximum : ℚ) :
    asFloat B value fallback minimum maximum = .error .overflowError := by
  unfold asFloat
  rw [NumberError.recover_overflow h]
  rfl

theorem truthy_of_tooLarge (h : TooLargeInt B value) : value.truthy = true := by
  unfold TooLargeInt PyValue.toInt at h
  cases value with
  | float f =>
    cases f with
    | finite q => cases h
    | infinite negative => rfl
    | nan => cases h
  | str s =>
    dsimp only at h
    cases hread : B.numerals.intOfText s with
    | none => rw [hread] at h; cases h
    | some n => rw [hread] at h; cases h
  | none => cases h
  | bool b => cases h
  | int n => cases h
  | list xs => cases h
  | dict members => cases h

theorem intOrZero_ok (h : ¬ TooLargeInt B value) : intOrZero B value = .ok (orderInt B value) := by
  refine NumberError.recover_ok fun hover => ?_
  split at hover
  · exact h hover
  · cases hover

theorem intOrZero_overflow (h : TooLargeInt B value) : intOrZero B value = .error .overflowError := by
  refine NumberError.recover_overflow ?_
  rw [if_pos (truthy_of_tooLarge h)]
  exact h

end Numbers

/-! ## What is chosen -/

section Chosen

variable (B : Book)

/-- The keys of an entry are in a text, or it needs none. -/
def keysAllow (entry : Members) (haystack : Text) : Bool :=
  let caseSensitive := isTrue (field entry "caseSensitive")
  let wholeWords := isTrue (field entry "matchWholeWords")
  let found := fun keys : List Text => keys.any fun key => entryKeyMatches B haystack key caseSensitive wholeWords
  let keys := boundedWorldBookKeys B entry "keys"
  let secondaryKeys := boundedWorldBookKeys B entry "secondaryKeys"
  isTrue (field entry "constant") || keys = [] ||
    (found keys && (!(isTrue (field entry "selective") && !secondaryKeys.isEmpty) || found secondaryKeys))

def entryMatches (entry : Members) (haystack : Text) : Bool :=
  keysAllow B entry haystack && rollAllows B entry haystack (clampFloat B (field entry "probability") 100 0 100)

def recentText (worldBook : Members) (messages : List Members) : Text :=
  joinWith ['\n'] ((sliceFrom (-clampInt B (field worldBook "scanDepth") 8 1 32) messages).map fun message =>
    B.world.messageContentToText (field message "content"))

def scannedEntries (worldBook : Members) : List Members :=
  (((asList (field worldBook "entries")).map asDict).filter (usable B)).take 200

def matchedEntries (worldBook : Members) (messages : List Members) : List Members :=
  (scannedEntries B worldBook).filter fun entry => entryMatches B entry (recentText B worldBook messages)

def entryKey (entry : Members) : EntryKey :=
  ⟨orderInt B (field entry "insertionOrder"), -orderInt B (field entry "priority"),
    String.ofList (B.world.strOr (field entry "title"))⟩

def entryBefore (a b : Members) : Prop := (entryKey B a).le (entryKey B b)

instance : DecidableRel (entryBefore B) := fun a b => inferInstanceAs (Decidable ((entryKey B a).le (entryKey B b)))

def mostEntries (worldBook : Members) : ℤ := clampInt B (field worldBook "maxEntries") 8 1 64

def budgetOf (worldBook : Members) : ℕ := (max 512 (clampInt B (field worldBook "budgetTokens") 1200 128 32000 * 4)).toNat

/-- The line of the first entry: whole, if it is no larger than the budget. -/
def firstLine (budget : ℕ) (entry : Members) : Text :=
  if budget < (entryBlock B entry).length then ((entryBlock B entry).take budget).rdropWhile PyStr.isSpace
  else entryBlock B entry

/-- The first entry, and of the others those that still fit. -/
def choose (budget : ℕ) : List Members → List Members
  | [] => []
  | first :: rest =>
    first :: Greedy.fill (fun entry => (entryBlock B entry).length + 2) (budget - (firstLine B budget first).length) rest

def chosenEntries (worldBook : Members) (messages : List Members) : List Members :=
  choose B (budgetOf B worldBook)
    (sliceTo (mostEntries B worldBook) ((matchedEntries B worldBook messages).insertionSort (entryBefore B)))

/-- The lines of entries, all whole but for the first. -/
def linesOf (budget : ℕ) : List Members → List Text
  | [] => []
  | first :: rest => firstLine B budget first :: rest.map (entryBlock B)

def chosenText (worldBook : Members) (messages : List Members) : Text :=
  joinWith "\n\n".toList (linesOf B (budgetOf B worldBook) (chosenEntries B worldBook messages))

end Chosen

def wholeBlock (W : World) (source : String) (data : Text) (guidance : String) : Text :=
  dataHeader guidance ++ ("\n<untrusted_text source=\"" ++ source ++ "\">\n").toList ++
    escape (neutralizePromptMarkers W data) ++ '\n' :: closingTag

/-- What the section of a profile should be: nothing where the world book is turned off or no
entry matches, and else the chosen entries, so many at the most, in their order and within the
budget, all of them whole. -/
structure Selected (B : Book) (worldBook : Members) (messages : List Members) (content : Text) : Prop where
  off : isTrue (field worldBook "enabled") = false → content = []
  unmatched : matchedEntries B worldBook messages = [] → content = []
  few : ((chosenEntries B worldBook messages).length : ℤ) ≤ mostEntries B worldBook
  matched : (chosenEntries B worldBook messages).Subperm (matchedEntries B worldBook messages)
  ordered : (chosenEntries B worldBook messages).Pairwise (entryBefore B)
  within : (chosenText B worldBook messages).length ≤ budgetOf B worldBook
  whole : isTrue (field worldBook "enabled") = true → matchedEntries B worldBook messages ≠ [] →
    content = wholeBlock B.world "world_book" (chosenText B worldBook messages) worldBookGuidance

structure NoOverflow (B : Book) (worldBook : Members) (messages : List Members) : Prop where
  scanDepth : ¬ TooLarge B (field worldBook "scanDepth")
  maxEntries : ¬ TooLarge B (field worldBook "maxEntries")
  budgetTokens : ¬ TooLarge B (field worldBook "budgetTokens")
  probability : ∀ entry ∈ scannedEntries B worldBook, keysAllow B entry (recentText B worldBook messages) = true →
    ¬ TooLargeFloat B (field entry "probability")
  priority : ∀ entry ∈ matchedEntries B worldBook messages, ¬ TooLargeInt B (field entry "priority")
  insertionOrder : ∀ entry ∈ matchedEntries B worldBook messages, ¬ TooLargeInt B (field entry "insertionOrder")

/-- No number overflows, and the chosen entries are short enough for a data block. -/
def Undisturbed (B : Book) (worldBook : Members) (messages : List Members) : Prop :=
  NoOverflow B worldBook messages ∧ (chosenText B worldBook messages).length ≤ 12000

def worldBookOf (profile : Value) : Members := asDict (field (asDict profile) "worldBook")

end Prompt
