import Mathlib.Data.List.Basic

/- Python's strings as lists of code points.

   A `str` may hold surrogates, which a `String` cannot: `json.loads` reads them from
   escapes, and only encoding the text in UTF-8 refuses them. Where that matters a text is a
   list of code points; everywhere else it is a `String`. -/

/-- A code point, surrogates among them. -/
abbrev CodePoint := Fin 0x110000

abbrev PyText := List CodePoint

namespace PyText

def ofChar (c : Char) : CodePoint :=
  ⟨c.toNat, by
    have hvalid : c.toNat < 0xD800 ∨ 0xDFFF < c.toNat ∧ c.toNat < 0x110000 := c.valid
    omega⟩

def ofString (s : String) : PyText := s.toList.map ofChar

/-- The character of a code point that is no surrogate. -/
def char (c : CodePoint) : Char := Char.ofNat c.val

def surrogate (c : CodePoint) : Bool := 0xD800 ≤ c.val ∧ c.val ≤ 0xDFFF

/-- A text that `encode("utf-8")` takes. -/
def encodable (t : PyText) : Bool := t.all (fun c => ¬ surrogate c)

end PyText
