import Mathlib.Data.Rat.Defs

/- The values of `json.loads`.

   A number without a fraction is an `int`, any other a `float`, and a float may be infinite or
   no number: `NaN`, `Infinity` and what is too large for a float are read as such. The
   characters of a text are a parameter. An object keeps its members as they are written; the
   last one of a key is the one that counts. -/

inductive PyFloat where
  | finite (q : ℚ)
  | infinite (negative : Bool)
  | nan
deriving DecidableEq

namespace PyFloat

/-- `a < b` -/
def lt : (a b : PyFloat) → Bool
  | .finite a, .finite b => a < b
  | .infinite true, .finite _ => true
  | .infinite true, .infinite false => true
  | .finite _, .infinite false => true
  | _, _ => false

/-- `max(a, b)` -/
def max (a b : PyFloat) : PyFloat := if a.lt b then b else a

/-- `min(a, b)` -/
def min (a b : PyFloat) : PyFloat := if b.lt a then b else a

end PyFloat

inductive PyValue (α : Type) where
  | none
  | bool (b : Bool)
  | int (n : ℤ)
  | float (f : PyFloat)
  | str (s : List α)
  | list (xs : List (PyValue α))
  | dict (members : List (List α × PyValue α))

namespace PyValue

variable {α : Type}

/-- `members.get(key)`: the last member of the key, or `None`. -/
def get [DecidableEq α] (members : List (List α × PyValue α)) (key : List α) : PyValue α :=
  (members.reverse.lookup key).getD .none

/-- `bool(value)` -/
def truthy : PyValue α → Bool
  | .none => false
  | .bool b => b
  | .int n => n ≠ 0
  | .float f => f ≠ .finite 0
  | .str s => !s.isEmpty
  | .list xs => !xs.isEmpty
  | .dict members => !members.isEmpty

end PyValue
