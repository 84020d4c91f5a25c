import Yuizaki.Lib.PyValue
import Mathlib.Data.Rat.Floor

/- `int` and `float` on the values of `json.loads`.

   An infinite float, or an integer that is too large for a float, raises an `OverflowError`,
   which is no `ValueError`. What a text says is given by `Numerals`. -/

/-- What `int` and `float` raise. -/
inductive NumberError where
  | typeError
  | valueError
  | overflowError
deriving DecidableEq

/-- The nearest float of an integer, if there is one, and what the numerals of a text say. -/
structure Numerals (α : Type) where
  floatOfInt : ℤ → Option ℚ
  floatOfText : List α → Option PyFloat
  intOfText : List α → Option ℤ

namespace PyValue

variable {α : Type} (N : Numerals α)

/-- `float(value)` -/
def toFloat : PyValue α → Except NumberError PyFloat
  | .bool b => .ok (.finite (if b then 1 else 0))
  | .int n => (N.floatOfInt n).elim (.error .overflowError) fun q => .ok (.finite q)
  | .float f => .ok f
  | .str s => (N.floatOfText s).elim (.error .valueError) .ok
  | _ => .error .typeError

end PyValue

/-- `int(f)` -/
def PyFloat.toInt : PyFloat → Except NumberError ℤ
  | .finite q => .ok (if 0 ≤ q then ⌊q⌋ else ⌈q⌉)
  | .infinite _ => .error .overflowError
  | .nan => .error .valueError

namespace PyValue

variable {α : Type} (N : Numerals α)

/-- `int(value)` -/
def toInt : PyValue α → Except NumberError ℤ
  | .bool b => .ok (if b then 1 else 0)
  | .int n => .ok n
  | .float f => f.toInt
  | .str s => (N.intOfText s).elim (.error .valueError) .ok
  | _ => .error .typeError

end PyValue

/-- `except (TypeError, ValueError)`: another value in place of the two errors. -/
def NumberError.recover {β : Type} (fallback : β) : Except NumberError β → Except NumberError β
  | .error .overflowError => .error .overflowError
  | .error _ => .ok fallback
  | .ok b => .ok b

/-- The value behind `except`, where nothing overflows. -/
def NumberError.recovered {β : Type} (fallback : β) : Except NumberError β → β
  | .error _ => fallback
  | .ok b => b

namespace NumberError

variable {β : Type} {x : Except NumberError β} {fallback : β}

theorem recover_ok (h : x ≠ .error .overflowError) : recover fallback x = .ok (recovered fallback x) := by
  cases x with
  | ok b => rfl
  | error e =>
    cases e with
    | overflowError => exact absurd rfl h
    | typeError => rfl
    | valueError => rfl

theorem recover_overflow (h : x = .error .overflowError) : recover fallback x = .error .overflowError := by
  rw [h]
  rfl

end NumberError
