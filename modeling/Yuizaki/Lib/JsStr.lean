import Mathlib.Data.List.Basic
import Mathlib.Algebra.GroupWithZero.Nat

/- JavaScript's string operations.

   `trim` removes leading and trailing white space and line terminators (`isSpace` lists those
   code points), and `length` counts UTF-16 code units. -/
namespace JsStr

/-- The code points that `trim` removes. -/
def isSpace (c : Char) : Bool :=
  let n := c.toNat
  (9 ≤ n && n ≤ 13) || n == 32 || n == 0xA0 || n == 0x1680 || (0x2000 ≤ n && n ≤ 0x200A) || n == 0x2028 ||
    n == 0x2029 || n == 0x202F || n == 0x205F || n == 0x3000 || n == 0xFEFF

/-- `text.trim()`. -/
def trim (text : String) : String :=
  String.ofList ((text.toList.dropWhile isSpace).reverse.dropWhile isSpace).reverse

def length (text : String) : ℕ := (text.toList.map fun c => if c.toNat < 0x10000 then 1 else 2).sum

/-- `text.includes(c)` for a character. -/
def includes (text : String) (c : Char) : Bool := decide (c ∈ text.toList)

/-- `text.split(c)` for a character. -/
def split (c : Char) (text : String) : List String := (text.toList.splitOn c).map String.ofList

/-- `text.toLowerCase()` on ASCII letters, every other character left alone. -/
def lowerAscii (text : String) : String := String.ofList (text.toList.map Char.toLower)

end JsStr
