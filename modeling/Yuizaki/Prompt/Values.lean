import Yuizaki.Lib.PySlice
import Yuizaki.Lib.PyStr
import Yuizaki.Lib.PyValue

/- Values and texts of a prompt. A text is the list of its characters, and a message is the
   object of its members. -/
namespace Prompt

abbrev Text := List Char

abbrev Value := PyValue Char

/-- `str.isalnum` on characters, and `str` of a value that is no text. -/
structure World where
  isAlnum : Char → Bool
  letter : ∀ c, c.isAlpha = true → isAlnum c = true
  kelvin : isAlnum (Char.ofNat 0x212A) = true
  space : ∀ c, PyStr.isSpace c = true → isAlnum c = false
  bracket : isAlnum '[' = false
  str : Value → Text

/-- `\w` -/
def World.word (W : World) (c : Char) : Bool := W.isAlnum c || c = '_'

/-- `str(value or "")` -/
def World.strOr (W : World) (value : Value) : Text :=
  match value with
  | .str s => s
  | value => if value.truthy then W.str value else []

def World.cleanText (W : World) (value : Value) (limit : ℤ) : Text :=
  PyStr.stripChars (PySlice.sliceTo limit (PyStr.stripChars (W.strOr value)))

abbrev Members := List (Text × Value)

def asDict : Value → Members
  | .dict members => members
  | _ => []

def asList : Value → List Value
  | .list xs => xs
  | _ => []

/-- `members.get(key)` -/
def field (members : Members) (key : String) : Value := PyValue.get members key.toList

/-- `value is True` -/
def isTrue : Value → Bool
  | .bool true => true
  | _ => false

/-- `value is False` -/
def isFalse : Value → Bool
  | .bool false => true
  | _ => false

/-- `str(value)` -/
def World.strOf (W : World) : Value → Text
  | .str s => s
  | value => W.str value

/-- `separator.join(texts)` -/
def joinWith (separator : Text) (texts : List Text) : Text := separator.intercalate texts

/-- `message_content_to_text`, of a block: its text, if it has some. -/
def blockText : Value → Text
  | .dict members =>
    match field members "type", field members "text", field members "content" with
    | .str kind, .str words, content =>
      if kind = "text".toList then words
      else match content with
        | .str content => content
        | _ => []
    | _, _, .str content => content
    | _, _, _ => []
  | _ => []

def World.messageContentToText (W : World) : Value → Text
  | .str s => s
  | .list blocks => joinWith ['\n'] ((blocks.map blockText).filter fun part => !part.isEmpty)
  | .none => []
  | content => W.str content

end Prompt
