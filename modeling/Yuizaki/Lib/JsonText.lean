import Mathlib.Data.Rat.Lemmas
import Yuizaki.Lib.Json

/- JSON as text (`json.dumps` with compact separators and `ensure_ascii=False`, and
   `json.loads` with an object hook that refuses duplicate keys).

   `write` gives the characters of a value, keys in the order the value has them, and
   `parseValue` reads a value back and leaves what follows it. Strict loading gives a value
   back from its text where no object repeats a key (`loads_dumps`). How a `float` is written is a parameter: a `Floats` is a
   writer and a reader whose texts are JSON numbers that are no integers. -/
namespace JsonText

/-! ## Numbers -/

/-- The integer part of a JSON number: `0`, or digits that start with another one. -/
def scanInteger : List Char → Option (List Char × List Char)
  | [] => none
  | c :: rest =>
    if c = '0' then some ([c], rest)
    else if c.isDigit then
      some (c :: rest.takeWhile Char.isDigit, rest.dropWhile Char.isDigit)
    else none

def scanSigned (cs : List Char) : Option (List Char × List Char) :=
  match cs with
  | '-' :: rest => (scanInteger rest).map (fun r => ('-' :: r.1, r.2))
  | cs => scanInteger cs

/-- Digits after a mark; without a digit the mark is not taken. -/
def scanDigits (mark cs : List Char) : Option (List Char × List Char) :=
  if cs.takeWhile Char.isDigit = [] then none
  else some (mark ++ cs.takeWhile Char.isDigit, cs.dropWhile Char.isDigit)

/-- The fraction of a number, if it has one. -/
def scanFraction (cs : List Char) : List Char × List Char :=
  match cs with
  | '.' :: rest => (scanDigits ['.'] rest).getD ([], cs)
  | _ => ([], cs)

/-- The exponent of a number, if it has one. -/
def scanExponent (cs : List Char) : List Char × List Char :=
  match cs with
  | e :: sign :: rest =>
    if e = 'e' ∨ e = 'E' then
      if sign = '-' ∨ sign = '+' then (scanDigits [e, sign] rest).getD ([], cs)
      else (scanDigits [e] (sign :: rest)).getD ([], cs)
    else ([], cs)
  | _ => ([], cs)

/-- A JSON number: its text, whether it has a fraction or an exponent, and what follows. -/
def scanNumber (cs : List Char) : Option (List Char × Bool × List Char) :=
  (scanSigned cs).map fun integer =>
    let fraction := scanFraction integer.2
    let exponent := scanExponent fraction.2
    (integer.1 ++ fraction.1 ++ exponent.1, decide (fraction.1 ++ exponent.1 ≠ []), exponent.2)

/-- What follows does not go on with a number. -/
def Stops : List Char → Prop
  | [] => True
  | c :: _ => c.isDigit = false ∧ c ≠ '.' ∧ c ≠ 'e' ∧ c ≠ 'E'

/-- `float.__repr__` and `float`. -/
structure Floats where
  text : ℚ → List Char
  value : List Char → ℚ
  scanned : ∀ q rest, Stops rest → scanNumber (text q ++ rest) = some (text q, true, rest)
  value_text : ∀ q, value (text q) = q

/-- `int.__repr__`. -/
def integerText : ℤ → List Char
  | .ofNat n => Nat.toDigits 10 n
  | .negSucc n => '-' :: Nat.toDigits 10 (n + 1)

/-- `int` of the text of a number. -/
def integerValue (cs : List Char) : ℤ :=
  match cs with
  | '-' :: digits => -(Nat.ofDigitChars 10 digits 0 : ℕ)
  | digits => (Nat.ofDigitChars 10 digits 0 : ℕ)

theorem digitChar_ne_zero : ∀ m < 10, 0 < m → m.digitChar ≠ '0' := by decide

theorem not_zero_first {n : ℕ} (hn : 0 < n) : ∃ c cs, Nat.toDigits 10 n = c :: cs ∧ c ≠ '0' := by
  induction n using Nat.strong_induction_on with
  | _ n ih =>
    by_cases hsmall : n < 10
    · rw [Nat.toDigits_of_lt_base hsmall]
      exact ⟨n.digitChar, [], rfl, digitChar_ne_zero n hsmall hn⟩
    · obtain ⟨c, cs, hcs, hc⟩ := ih (n / 10) (by omega) (by omega)
      rw [Nat.toDigits_of_base_le (by decide) (by omega), hcs]
      exact ⟨c, cs ++ [(n % 10).digitChar], rfl, hc⟩

theorem isDigit_toDigits {n : ℕ} {c : Char} (hc : c ∈ Nat.toDigits 10 n) : c.isDigit = true :=
  Nat.isDigit_of_mem_toDigits (by decide) (by decide) hc

/-- What follows does not go on with digits. -/
def NoDigit : List Char → Prop
  | [] => True
  | c :: _ => c.isDigit = false

theorem Stops.noDigit {rest : List Char} (h : Stops rest) : NoDigit rest := by
  cases rest with
  | nil => trivial
  | cons c rest => exact h.1

theorem digits_stop {ds rest : List Char} (hds : ∀ c ∈ ds, c.isDigit = true) (h : NoDigit rest) :
    (ds ++ rest).takeWhile Char.isDigit = ds ∧ (ds ++ rest).dropWhile Char.isDigit = rest := by
  have hrest : rest.takeWhile Char.isDigit = [] ∧ rest.dropWhile Char.isDigit = rest := by
    cases rest with
    | nil => exact ⟨rfl, rfl⟩
    | cons c rest =>
      have hc : c.isDigit = false := h
      rw [List.takeWhile_cons, List.dropWhile_cons, hc]
      exact ⟨rfl, rfl⟩
  rw [List.takeWhile_append_of_pos hds, List.dropWhile_append_of_pos hds, hrest.1, hrest.2,
    List.append_nil]
  exact ⟨rfl, rfl⟩

theorem scanInteger_toDigits (n : ℕ) {rest : List Char} (h : NoDigit rest) :
    scanInteger (Nat.toDigits 10 n ++ rest) = some (Nat.toDigits 10 n, rest) := by
  rcases Nat.eq_zero_or_pos n with rfl | hn
  · rfl
  · obtain ⟨c, cs, hcs, hc⟩ := not_zero_first hn
    have hdigits : ∀ d ∈ c :: cs, d.isDigit = true := fun d hd => isDigit_toDigits (hcs ▸ hd)
    obtain ⟨htake, hdrop⟩ := digits_stop (List.forall_mem_cons.mp hdigits).2 h
    rw [hcs, List.cons_append, scanInteger, if_neg hc, if_pos (hdigits c List.mem_cons_self), htake,
      hdrop]

theorem scanSigned_integerText (n : ℤ) {rest : List Char} (h : NoDigit rest) :
    scanSigned (integerText n ++ rest) = some (integerText n, rest) := by
  cases n with
  | ofNat n =>
    have hscan := scanInteger_toDigits n h
    show scanSigned (Nat.toDigits 10 n ++ rest) = some (Nat.toDigits 10 n, rest)
    unfold scanSigned
    split
    · rename_i rest' heq
      obtain ⟨c, cs, hcs⟩ := List.exists_cons_of_ne_nil (Nat.toDigits_ne_nil (n := n) (b := 10))
      have hdigit : c.isDigit = true := isDigit_toDigits (hcs ▸ List.mem_cons_self)
      rw [hcs, List.cons_append] at heq
      rw [(List.cons.inj heq).1] at hdigit
      exact absurd hdigit (by decide)
    · exact hscan
  | negSucc n =>
    show (scanInteger (Nat.toDigits 10 (n + 1) ++ rest)).map (fun r => ('-' :: r.1, r.2)) = _
    rw [scanInteger_toDigits (n + 1) h]
    rfl

theorem scanFraction_stops {rest : List Char} (h : Stops rest) : scanFraction rest = ([], rest) := by
  unfold scanFraction
  split
  · exact absurd rfl h.2.1
  · rfl

theorem scanExponent_stops {rest : List Char} (h : Stops rest) : scanExponent rest = ([], rest) := by
  unfold scanExponent
  split
  · rename_i e sign rest'
    have he : ¬ (e = 'e' ∨ e = 'E') := not_or.mpr h.2.2
    rw [if_neg he]
  · rfl

theorem scanNumber_integerText (n : ℤ) {rest : List Char} (h : Stops rest) :
    scanNumber (integerText n ++ rest) = some (integerText n, false, rest) := by
  unfold scanNumber
  rw [scanSigned_integerText n h.noDigit, Option.map_some]
  dsimp only
  rw [scanFraction_stops h, scanExponent_stops h, List.append_nil, List.append_nil]
  rfl

theorem integerValue_integerText (n : ℤ) : integerValue (integerText n) = n := by
  cases n with
  | ofNat n =>
    show integerValue (Nat.toDigits 10 n) = _
    unfold integerValue
    split
    · rename_i digits heq
      have hdigit : ('-').isDigit = true := isDigit_toDigits (heq ▸ List.mem_cons_self)
      exact absurd hdigit (by decide)
    · rw [Nat.ofDigitChars_ten_toDigits]
      rfl
  | negSucc n =>
    show -((Nat.ofDigitChars 10 (Nat.toDigits 10 (n + 1)) 0 : ℕ) : ℤ) = _
    rw [Nat.ofDigitChars_ten_toDigits]
    rfl

/-- A rational as its numerator, with its denominator as the exponent: the texts are JSON
numbers, and each stands for the rational it is of. -/
def ratioFloats : Floats where
  text q := integerText q.num ++ 'e' :: Nat.toDigits 10 q.den
  value cs := integerValue (cs.takeWhile (· ≠ 'e')) /
    (Nat.ofDigitChars 10 (cs.dropWhile (· ≠ 'e')).tail 0 : ℕ)
  scanned := by
    intro q rest hrest
    have hdigits : ∀ c ∈ Nat.toDigits 10 q.den, c.isDigit = true := fun c hc => isDigit_toDigits hc
    obtain ⟨htake, hdrop⟩ := digits_stop hdigits hrest.noDigit
    obtain ⟨d, ds, hden⟩ := List.exists_cons_of_ne_nil (Nat.toDigits_ne_nil (n := q.den) (b := 10))
    have hscan : scanDigits ['e'] (Nat.toDigits 10 q.den ++ rest) =
        some ('e' :: Nat.toDigits 10 q.den, rest) := by
      unfold scanDigits
      rw [htake, hdrop, if_neg Nat.toDigits_ne_nil, List.singleton_append]
    have hexponent : scanExponent ('e' :: (Nat.toDigits 10 q.den ++ rest)) =
        ('e' :: Nat.toDigits 10 q.den, rest) := by
      have hsign : ¬ (d = '-' ∨ d = '+') := by
        have hd : d.isDigit = true := hdigits d (hden ▸ List.mem_cons_self)
        rintro (rfl | rfl) <;> exact absurd hd (by decide)
      rw [hden] at hscan ⊢
      show (if d = '-' ∨ d = '+' then _ else (scanDigits ['e'] ((d :: ds) ++ rest)).getD _) = _
      rw [if_neg hsign, hscan, Option.getD_some]
    have hsigned := @scanSigned_integerText q.num ('e' :: (Nat.toDigits 10 q.den ++ rest)) rfl
    unfold scanNumber
    rw [List.append_assoc, List.cons_append, hsigned, Option.map_some]
    show some (integerText q.num ++ [] ++ (scanExponent ('e' :: (Nat.toDigits 10 q.den ++ rest))).1,
      decide ([] ++ (scanExponent ('e' :: (Nat.toDigits 10 q.den ++ rest))).1 ≠ []),
      (scanExponent ('e' :: (Nat.toDigits 10 q.den ++ rest))).2) = _
    rw [hexponent, List.append_nil]
    rfl
  value_text := by
    intro q
    have hplain : ∀ c ∈ integerText q.num, decide (c ≠ 'e') = true := by
      have hdigit : ∀ {c : Char}, c.isDigit = true → decide (c ≠ 'e') = true := by
        intro c hc
        apply decide_eq_true
        rintro rfl
        exact absurd hc (by decide)
      intro c hc
      cases hnum : q.num with
      | ofNat n =>
        rw [hnum] at hc
        exact hdigit (isDigit_toDigits hc)
      | negSucc n =>
        rw [hnum] at hc
        rcases List.mem_cons.mp hc with rfl | hc
        · rfl
        · exact hdigit (isDigit_toDigits hc)
    rw [List.takeWhile_append_of_pos hplain, List.dropWhile_append_of_pos hplain]
    show (integerValue (integerText q.num ++ []) : ℚ) /
      (Nat.ofDigitChars 10 (Nat.toDigits 10 q.den) 0 : ℕ) = q
    rw [List.append_nil, integerValue_integerText, Nat.ofDigitChars_ten_toDigits]
    exact Rat.num_div_den q

/-! ## Strings -/

def hexDigit (n : ℕ) : Char := n.digitChar

def hexValue (c : Char) : Option ℕ :=
  if '0' ≤ c ∧ c ≤ '9' then some (c.toNat - '0'.toNat)
  else if 'a' ≤ c ∧ c ≤ 'f' then some (c.toNat - 'a'.toNat + 10)
  else if 'A' ≤ c ∧ c ≤ 'F' then some (c.toNat - 'A'.toNat + 10)
  else none

/-- The value of four hexadecimal digits. -/
def hexValues (a b c d : Char) : Option ℕ := do
  let a ← hexValue a
  let b ← hexValue b
  let c ← hexValue c
  let d ← hexValue d
  some (((a * 16 + b) * 16 + c) * 16 + d)

/-- The characters with an escape of their own, and the letter that stands for each. -/
def escapes : List (Char × Char) :=
  [('"', '"'), ('\\', '\\'), ('\n', 'n'), ('\r', 'r'), ('\t', 't'), ('\x08', 'b'), ('\x0c', 'f')]

def escape (c : Char) : List Char :=
  match escapes.lookup c with
  | some letter => ['\\', letter]
  | none =>
    if c.toNat < 32 then ['\\', 'u', '0', '0', hexDigit (c.toNat / 16), hexDigit (c.toNat % 16)]
    else [c]

/-- The characters of a string literal after its opening quote. -/
def writeBody (cs : List Char) : List Char := cs.flatMap escape ++ ['"']

/-- The character of an escape letter; a solidus may be escaped as well. -/
def unescape (letter : Char) : Option Char :=
  ((('/', '/') :: escapes).find? (fun e => e.2 = letter)).map Prod.fst

/-- A string literal after its opening quote, and what follows it. Control characters are
not allowed; a pair of surrogates is one character, and a lone one is refused, as it has
no UTF-8 encoding. -/
def parseBody : ℕ → List Char → Option (List Char × List Char)
  | 0, _ => none
  | fuel + 1, cs =>
    match cs with
    | [] => none
    | '"' :: rest => some ([], rest)
    | '\\' :: 'u' :: a :: b :: c :: d :: rest => do
      let n ← hexValues a b c d
      if n < 0xD800 ∨ 0xDFFF < n then
        let r ← parseBody fuel rest
        some (Char.ofNat n :: r.1, r.2)
      else
        match rest with
        | '\\' :: 'u' :: a :: b :: c :: d :: rest => do
          let m ← hexValues a b c d
          if n < 0xDC00 ∧ 0xDC00 ≤ m ∧ m ≤ 0xDFFF then
            let r ← parseBody fuel rest
            some (Char.ofNat (0x10000 + (n - 0xD800) * 0x400 + (m - 0xDC00)) :: r.1, r.2)
          else none
        | _ => none
    | '\\' :: letter :: rest => do
      let c ← unescape letter
      let r ← parseBody fuel rest
      some (c :: r.1, r.2)
    | c :: rest =>
      if c.toNat < 32 then none
      else do
        let r ← parseBody fuel rest
        some (c :: r.1, r.2)

theorem escapes_back : ∀ e ∈ escapes, e.2 ≠ 'u' ∧ unescape e.2 = some e.1 := by decide

theorem hexValue_hexDigit : ∀ n < 16, hexValue (hexDigit n) = some n := by decide

theorem mem_escapes {c letter : Char} (h : escapes.lookup c = some letter) : (c, letter) ∈ escapes := by
  obtain ⟨before, after, heq, -⟩ := List.lookup_eq_some_iff.mp h
  rw [heq]
  exact List.mem_append_right _ List.mem_cons_self

theorem parseBody_escape (fuel : ℕ) (c : Char) (rest : List Char) :
    parseBody (fuel + 1) (escape c ++ rest) =
      (parseBody fuel rest).map (fun r => (c :: r.1, r.2)) := by
  have hread : ∀ r : Option (List Char × List Char),
      (r >>= fun r => some (c :: r.1, r.2)) = r.map (fun r => (c :: r.1, r.2)) := by
    intro r
    cases r <;> rfl
  unfold escape
  cases hlookup : escapes.lookup c with
  | some letter =>
    obtain ⟨hu, hback⟩ := escapes_back _ (mem_escapes hlookup)
    show parseBody (fuel + 1) ('\\' :: letter :: rest) = _
    conv_lhs => unfold parseBody
    split
    · rename_i heq
      cases heq
    · rename_i heq
      exact absurd (List.cons.inj heq).1 (by decide)
    · rename_i heq
      exact absurd (List.cons.inj (List.cons.inj heq).2).1 hu
    · rename_i heq
      obtain ⟨rfl, rfl⟩ := List.cons.inj (List.cons.inj heq).2
      rw [hback]
      exact hread _
    · rename_i hslash heq
      exact (hslash letter rest (List.cons.inj heq).1.symm (List.cons.inj heq).2.symm).elim
  | none =>
    dsimp only
    split
    · rename_i hcontrol
      have hvalue : hexValues '0' '0' (hexDigit (c.toNat / 16)) (hexDigit (c.toNat % 16)) =
          some c.toNat := by
        unfold hexValues
        rw [hexValue_hexDigit _ (by omega), hexValue_hexDigit _ (by omega)]
        show some (((0 * 16 + 0) * 16 + c.toNat / 16) * 16 + c.toNat % 16) = _
        congr 1
        omega
      show (do
        let n ← hexValues '0' '0' (hexDigit (c.toNat / 16)) (hexDigit (c.toNat % 16))
        _) = _
      rw [hvalue]
      show (if c.toNat < 0xD800 ∨ 0xDFFF < c.toNat then _ else _) = _
      rw [if_pos (Or.inl (by omega)), Char.ofNat_toNat]
      exact hread _
    · rename_i hprintable
      have hquote : c ≠ '"' := by
        rintro rfl
        exact absurd hlookup (by decide)
      have hslash : c ≠ '\\' := by
        rintro rfl
        exact absurd hlookup (by decide)
      show parseBody (fuel + 1) (c :: rest) = _
      conv_lhs => unfold parseBody
      split
      · rename_i heq
        cases heq
      · rename_i heq
        exact absurd (List.cons.inj heq).1 hquote
      · rename_i heq
        exact absurd (List.cons.inj heq).1 hslash
      · rename_i heq
        exact absurd (List.cons.inj heq).1 hslash
      · rename_i heq
        obtain ⟨rfl, rfl⟩ := List.cons.inj heq
        rw [if_neg hprintable]
        exact hread _

theorem parseBody_writeBody {fuel : ℕ} {cs : List Char} (hfuel : cs.length < fuel)
    (rest : List Char) : parseBody fuel (writeBody cs ++ rest) = some (cs, rest) := by
  induction cs generalizing fuel with
  | nil =>
    obtain ⟨fuel, rfl⟩ := Nat.exists_eq_succ_of_ne_zero (Nat.ne_of_gt hfuel)
    rfl
  | cons c cs ih =>
    cases fuel with
    | zero => exact absurd hfuel (Nat.not_lt_zero _)
    | succ fuel =>
      have hcons : writeBody (c :: cs) ++ rest = escape c ++ (writeBody cs ++ rest) := by
        unfold writeBody
        rw [List.flatMap_cons, List.append_assoc, List.append_assoc, List.append_assoc]
      rw [hcons, parseBody_escape, ih (Nat.lt_of_succ_lt_succ hfuel), Option.map_some]

/-! ## Writing values -/

section Write

variable (floats : Floats)

mutual

/-- `json.dumps` with compact separators. -/
def write : Json → List Char
  | .null => ['n', 'u', 'l', 'l']
  | .bool true => ['t', 'r', 'u', 'e']
  | .bool false => ['f', 'a', 'l', 's', 'e']
  | .int n => integerText n
  | .num q => floats.text q
  | .str s => '"' :: writeBody s.toList
  | .arr [] => ['[', ']']
  | .arr (x :: xs) => '[' :: (write x ++ writeItems xs)
  | .obj [] => ['{', '}']
  | .obj ((k, v) :: kvs) => '{' :: '"' :: (writeBody k.toList ++ ':' :: (write v ++ writeMembers kvs))

/-- The items of a list after the first, with its end. -/
def writeItems : List Json → List Char
  | [] => [']']
  | x :: xs => ',' :: (write x ++ writeItems xs)

/-- The members of an object after the first, with its end. -/
def writeMembers : List (String × Json) → List Char
  | [] => ['}']
  | (k, v) :: kvs => ',' :: '"' :: (writeBody k.toList ++ ':' :: (write v ++ writeMembers kvs))

end

def dumps (value : Json) : String := String.ofList (write floats value)

/-! ## Reading values -/

def skipSpace (cs : List Char) : List Char :=
  cs.dropWhile (fun c => c = ' ' ∨ c = '\t' ∨ c = '\n' ∨ c = '\r')

def parseNumber (cs : List Char) : Option (Json × List Char) :=
  (scanNumber cs).map fun r =>
    (if r.2.1 then .num (floats.value r.1) else .int (integerValue r.1), r.2.2)

/-- A string literal after its opening quote. -/
def parseString (cs : List Char) : Option (String × List Char) :=
  (parseBody (cs.length + 1) cs).map (fun r => (String.ofList r.1, r.2))

mutual

/-- `json.loads`, without a look at repeated keys: a value and what follows it. -/
def parseValue : ℕ → List Char → Option (Json × List Char)
  | 0, _ => none
  | fuel + 1, cs =>
    match cs with
    | 'n' :: 'u' :: 'l' :: 'l' :: rest => some (.null, rest)
    | 't' :: 'r' :: 'u' :: 'e' :: rest => some (.bool true, rest)
    | 'f' :: 'a' :: 'l' :: 's' :: 'e' :: rest => some (.bool false, rest)
    | '"' :: rest => (parseString rest).map (fun r => (.str r.1, r.2))
    | '[' :: rest =>
      match skipSpace rest with
      | ']' :: rest => some (.arr [], rest)
      | rest => (parseItems fuel rest).map (fun r => (.arr r.1, r.2))
    | '{' :: rest =>
      match skipSpace rest with
      | '}' :: rest => some (.obj [], rest)
      | rest => (parseMembers fuel rest).map (fun r => (.obj r.1, r.2))
    | cs => parseNumber floats cs

/-- The items of a list that is not empty, and its end. -/
def parseItems : ℕ → List Char → Option (List Json × List Char)
  | 0, _ => none
  | fuel + 1, cs => do
    let item ← parseValue fuel cs
    match skipSpace item.2 with
    | ']' :: rest => some ([item.1], rest)
    | ',' :: rest =>
      let items ← parseItems fuel (skipSpace rest)
      some (item.1 :: items.1, items.2)
    | _ => none

/-- The members of an object that is not empty, and its end. -/
def parseMembers : ℕ → List Char → Option (List (String × Json) × List Char)
  | 0, _ => none
  | fuel + 1, cs =>
    match cs with
    | '"' :: rest => do
      let key ← parseString rest
      match skipSpace key.2 with
      | ':' :: rest =>
        let value ← parseValue fuel (skipSpace rest)
        match skipSpace value.2 with
        | '}' :: rest => some ([(key.1, value.1)], rest)
        | ',' :: rest =>
          let members ← parseMembers fuel (skipSpace rest)
          some ((key.1, value.1) :: members.1, members.2)
        | _ => none
      | _ => none
    | _ => none

end

end Write

mutual

def distinctKeys : Json → Bool
  | .obj kvs => decide (kvs.map Prod.fst).Nodup && distinctMembers kvs
  | .arr xs => distinctItems xs
  | _ => true

def distinctItems : List Json → Bool
  | [] => true
  | x :: xs => distinctKeys x && distinctItems xs

/-- The same in the values of an object. -/
def distinctMembers : List (String × Json) → Bool
  | [] => true
  | (_, v) :: kvs => distinctKeys v && distinctMembers kvs

end

/-- `json.loads` with a hook that refuses repeated keys. -/
def loads (floats : Floats) (text : String) : Option Json :=
  match parseValue floats (text.toList.length + 1) (skipSpace text.toList) with
  | some (value, rest) =>
    if skipSpace rest = [] ∧ distinctKeys value = true then some value else none
  | none => none

/-! ## Round trip -/

mutual

def depth : Json → ℕ
  | .null | .bool _ | .int _ | .num _ | .str _ => 1
  | .arr xs => depthItems xs + 1
  | .obj kvs => depthMembers kvs + 1

def depthItems : List Json → ℕ
  | [] => 0
  | x :: xs => max (depth x) (depthItems xs) + 1

/-- The same of the members of an object. -/
def depthMembers : List (String × Json) → ℕ
  | [] => 0
  | (_, v) :: kvs => max (depth v) (depthMembers kvs) + 1

end

section RoundTrip

variable {floats : Floats}

theorem skipSpace_of {c : Char} {rest : List Char}
    (h : ¬ (c = ' ' ∨ c = '\t' ∨ c = '\n' ∨ c = '\r')) : skipSpace (c :: rest) = c :: rest := by
  unfold skipSpace
  rw [List.dropWhile_cons, if_neg (by simpa using h)]

theorem parseString_writeBody (s : String) (rest : List Char) :
    parseString (writeBody s.toList ++ rest) = some (s, rest) := by
  have hlength : s.toList.length < (writeBody s.toList ++ rest).length + 1 := by
    have hescape : ∀ cs : List Char, cs.length ≤ (cs.flatMap escape).length := by
      intro cs
      induction cs with
      | nil => exact Nat.le_refl 0
      | cons c cs ih =>
        have hpos : 0 < (escape c).length := by
          unfold escape
          split
          · exact Nat.succ_pos _
          · split <;> exact Nat.succ_pos _
        rw [List.flatMap_cons, List.length_append, List.length_cons]
        omega
    have hle := hescape s.toList
    unfold writeBody
    rw [List.length_append, List.length_append]
    omega
  unfold parseString
  rw [parseBody_writeBody hlength, Option.map_some, String.ofList_toList]

theorem number_first {cs : List Char} {r : List Char × Bool × List Char}
    (h : scanNumber cs = some r) : ∃ c rest, cs = c :: rest ∧ (c = '-' ∨ c.isDigit = true) := by
  have hinteger : ∀ {cs : List Char} {r : List Char × List Char}, scanInteger cs = some r →
      ∃ c rest, cs = c :: rest ∧ (c = '-' ∨ c.isDigit = true) := by
    intro cs r h
    cases cs with
    | nil => cases h
    | cons c rest =>
      refine ⟨c, rest, rfl, Or.inr ?_⟩
      rw [scanInteger] at h
      by_cases hzero : c = '0'
      · rw [hzero]
        rfl
      · rw [if_neg hzero] at h
        by_contra hdigit
        rw [if_neg hdigit] at h
        cases h
  unfold scanNumber at h
  obtain ⟨integer, hsigned, -⟩ := Option.map_eq_some_iff.mp h
  unfold scanSigned at hsigned
  split at hsigned
  · exact ⟨'-', _, rfl, Or.inl rfl⟩
  · exact hinteger hsigned

/-- A character that is no white space and no closing bracket. -/
def Starts (c : Char) : Prop := ¬ (c = ' ' ∨ c = '\t' ∨ c = '\n' ∨ c = '\r') ∧ c ≠ ']'

instance (c : Char) : Decidable (Starts c) := inferInstanceAs (Decidable (_ ∧ _))

theorem starts_number {c : Char} (h : c = '-' ∨ c.isDigit = true) : Starts c := by
  rcases h with rfl | hdigit
  · decide
  · refine ⟨fun hspace => ?_, fun hclose => ?_⟩
    · rcases hspace with rfl | rfl | rfl | rfl <;> exact absurd hdigit (by decide)
    · rw [hclose] at hdigit
      exact absurd hdigit (by decide)

theorem scanned_integer (n : ℤ) : ∃ r, scanNumber (integerText n) = some r := by
  have h := @scanNumber_integerText n [] trivial
  rw [List.append_nil] at h
  exact ⟨_, h⟩

theorem scanned_float (floats : Floats) (q : ℚ) : ∃ r, scanNumber (floats.text q) = some r := by
  have h := floats.scanned q [] trivial
  rw [List.append_nil] at h
  exact ⟨_, h⟩

theorem write_first (v : Json) : ∃ c rest, write floats v = c :: rest ∧ Starts c := by
  cases v with
  | null => exact ⟨_, _, by rw [write], by decide⟩
  | bool b => cases b <;> exact ⟨_, _, by rw [write], by decide⟩
  | int n =>
    obtain ⟨r, hr⟩ := scanned_integer n
    obtain ⟨c, rest, heq, hc⟩ := number_first hr
    exact ⟨c, rest, by rw [write, heq], starts_number hc⟩
  | num q =>
    obtain ⟨r, hr⟩ := scanned_float floats q
    obtain ⟨c, rest, heq, hc⟩ := number_first hr
    exact ⟨c, rest, by rw [write, heq], starts_number hc⟩
  | str s => exact ⟨_, _, by rw [write], by decide⟩
  | arr xs => cases xs <;> exact ⟨_, _, by rw [write], by decide⟩
  | obj kvs =>
    cases kvs with
    | nil => exact ⟨_, _, by rw [write], by decide⟩
    | cons e kvs => exact ⟨_, _, by rw [write], by decide⟩

theorem write_pos (v : Json) : 0 < (write floats v).length := by
  obtain ⟨c, rest, heq, -⟩ := @write_first floats v
  rw [heq]
  exact Nat.succ_pos _

theorem skipSpace_write (v : Json) (rest : List Char) :
    skipSpace (write floats v ++ rest) = write floats v ++ rest := by
  obtain ⟨c, cs, heq, hc⟩ := @write_first floats v
  rw [heq, List.cons_append, skipSpace_of hc.1]

theorem parseValue_number (fuel : ℕ) {cs : List Char} {r : List Char × Bool × List Char}
    (h : scanNumber cs = some r) : parseValue floats (fuel + 1) cs = parseNumber floats cs := by
  obtain ⟨c, rest, rfl, hc⟩ := number_first h
  have hne : ∀ d : Char, d ≠ '-' → d.isDigit = false → c ≠ d := by
    intro d hminus hdigit heq
    rw [heq] at hc
    rcases hc with hc | hc
    · exact hminus hc
    · rw [hdigit] at hc
      cases hc
  unfold parseValue
  split
  · rename_i heq
    exact absurd (List.cons.inj heq).1 (hne _ (by decide) (by decide))
  · rename_i heq
    exact absurd (List.cons.inj heq).1 (hne _ (by decide) (by decide))
  · rename_i heq
    exact absurd (List.cons.inj heq).1 (hne _ (by decide) (by decide))
  · rename_i heq
    exact absurd (List.cons.inj heq).1 (hne _ (by decide) (by decide))
  · rename_i heq
    exact absurd (List.cons.inj heq).1 (hne _ (by decide) (by decide))
  · rename_i heq
    exact absurd (List.cons.inj heq).1 (hne _ (by decide) (by decide))
  · rfl

theorem fuel_succ {n fuel : ℕ} (h : n + 1 ≤ fuel) : ∃ fuel', fuel = fuel' + 1 ∧ n ≤ fuel' :=
  ⟨fuel - 1, by omega, by omega⟩

def Reads (floats : Floats) (v : Json) : Prop :=
  ∀ fuel rest, depth v ≤ fuel → Stops rest →
    parseValue floats fuel (write floats v ++ rest) = some (v, rest)

theorem reads_int (n : ℤ) : Reads floats (.int n) := by
  intro fuel rest hfuel hrest
  obtain ⟨fuel, rfl, -⟩ := fuel_succ hfuel
  have hscan := scanNumber_integerText n hrest
  rw [write, parseValue_number fuel hscan, parseNumber, hscan, Option.map_some]
  show some (Json.int (integerValue (integerText n)), rest) = _
  rw [integerValue_integerText]

theorem reads_num (q : ℚ) : Reads floats (.num q) := by
  intro fuel rest hfuel hrest
  obtain ⟨fuel, rfl, -⟩ := fuel_succ hfuel
  have hscan := floats.scanned q rest hrest
  rw [write, parseValue_number fuel hscan, parseNumber, hscan, Option.map_some]
  show some (Json.num (floats.value (floats.text q)), rest) = _
  rw [floats.value_text]

theorem reads_str (s : String) : Reads floats (.str s) := by
  intro fuel rest hfuel hrest
  obtain ⟨fuel, rfl, -⟩ := fuel_succ hfuel
  rw [write]
  show (parseString (writeBody s.toList ++ rest)).map (fun r => (Json.str r.1, r.2)) = _
  rw [parseString_writeBody, Option.map_some]

theorem reads_null : Reads floats .null := by
  intro fuel rest hfuel hrest
  obtain ⟨fuel, rfl, -⟩ := fuel_succ hfuel
  rw [write]
  rfl

theorem reads_bool (b : Bool) : Reads floats (.bool b) := by
  intro fuel rest hfuel hrest
  obtain ⟨fuel, rfl, -⟩ := fuel_succ hfuel
  cases b <;> rw [write] <;> rfl

theorem stops_bracket (rest : List Char) : Stops (']' :: rest) := ⟨rfl, by decide, by decide, by decide⟩

theorem stops_brace (rest : List Char) : Stops ('}' :: rest) := ⟨rfl, by decide, by decide, by decide⟩

theorem stops_comma (rest : List Char) : Stops (',' :: rest) := ⟨rfl, by decide, by decide, by decide⟩

theorem parseItems_last {x : Json} (hx : Reads floats x) {fuel : ℕ} (hfuel : depth x ≤ fuel)
    (rest : List Char) :
    parseItems floats (fuel + 1) (write floats x ++ ']' :: rest) = some ([x], rest) := by
  unfold parseItems
  rw [hx fuel _ hfuel (stops_bracket rest)]
  rfl

theorem parseItems_next {x : Json} (hx : Reads floats x) {fuel : ℕ} (hfuel : depth x ≤ fuel)
    (rest : List Char) :
    parseItems floats (fuel + 1) (write floats x ++ ',' :: rest) =
      (parseItems floats fuel (skipSpace rest)).map (fun r => (x :: r.1, r.2)) := by
  conv_lhs => unfold parseItems
  rw [hx fuel _ hfuel (stops_comma rest)]
  show (parseItems floats fuel (skipSpace rest) >>= fun r => some (x :: r.1, r.2)) = _
  cases parseItems floats fuel (skipSpace rest) <;> rfl

theorem parseMembers_last {v : Json} (hv : Reads floats v) (k : String) {fuel : ℕ}
    (hfuel : depth v ≤ fuel) (rest : List Char) :
    parseMembers floats (fuel + 1) ('"' :: (writeBody k.toList ++ ':' :: (write floats v ++ '}' :: rest))) =
      some ([(k, v)], rest) := by
  unfold parseMembers
  show (parseString (writeBody k.toList ++ ':' :: (write floats v ++ '}' :: rest)) >>= _) = _
  rw [parseString_writeBody]
  show (parseValue floats fuel (skipSpace (write floats v ++ '}' :: rest)) >>= _) = _
  rw [skipSpace_write, hv fuel _ hfuel (stops_brace rest)]
  rfl

theorem parseMembers_next {v : Json} (hv : Reads floats v) (k : String) {fuel : ℕ}
    (hfuel : depth v ≤ fuel) (rest : List Char) :
    parseMembers floats (fuel + 1) ('"' :: (writeBody k.toList ++ ':' :: (write floats v ++ ',' :: rest))) =
      (parseMembers floats fuel (skipSpace rest)).map (fun r => ((k, v) :: r.1, r.2)) := by
  conv_lhs => unfold parseMembers
  show (parseString (writeBody k.toList ++ ':' :: (write floats v ++ ',' :: rest)) >>= _) = _
  rw [parseString_writeBody]
  show (parseValue floats fuel (skipSpace (write floats v ++ ',' :: rest)) >>= _) = _
  rw [skipSpace_write, hv fuel _ hfuel (stops_comma rest)]
  show (parseMembers floats fuel (skipSpace rest) >>= fun r => some ((k, v) :: r.1, r.2)) = _
  cases parseMembers floats fuel (skipSpace rest) <;> rfl

theorem reads_arr_nil : Reads floats (.arr []) := by
  intro fuel rest hfuel hrest
  obtain ⟨fuel, rfl, -⟩ := fuel_succ hfuel
  rw [write]
  rfl

theorem reads_obj_nil : Reads floats (.obj []) := by
  intro fuel rest hfuel hrest
  obtain ⟨fuel, rfl, -⟩ := fuel_succ hfuel
  rw [write]
  rfl

theorem reads_arr {x : Json} {xs : List Json}
    (h : ∀ fuel rest, depthItems (x :: xs) ≤ fuel →
      parseItems floats fuel (write floats x ++ (writeItems floats xs ++ rest)) = some (x :: xs, rest)) :
    Reads floats (.arr (x :: xs)) := by
  intro fuel rest hfuel hrest
  rw [depth] at hfuel
  obtain ⟨fuel, rfl, hle⟩ := fuel_succ hfuel
  rw [write, List.cons_append, List.append_assoc]
  show (match skipSpace (write floats x ++ (writeItems floats xs ++ rest)) with
    | ']' :: rest => some (Json.arr [], rest)
    | rest => (parseItems floats fuel rest).map
        (fun r : List Json × List Char => (Json.arr r.1, r.2))) = _
  rw [skipSpace_write]
  split
  · rename_i heq
    obtain ⟨c, cs, hwrite, -, hc⟩ := @write_first floats x
    rw [hwrite, List.cons_append] at heq
    exact absurd (List.cons.inj heq).1 hc
  · rw [h fuel rest (Nat.le_of_succ_le_succ hfuel), Option.map_some]

theorem reads_obj {k : String} {v : Json} {kvs : List (String × Json)}
    (h : ∀ fuel rest, depthMembers ((k, v) :: kvs) ≤ fuel →
      parseMembers floats fuel ('"' :: (writeBody k.toList ++ ':' ::
        (write floats v ++ (writeMembers floats kvs ++ rest)))) = some ((k, v) :: kvs, rest)) :
    Reads floats (.obj ((k, v) :: kvs)) := by
  intro fuel rest hfuel hrest
  rw [depth] at hfuel
  obtain ⟨fuel, rfl, hle⟩ := fuel_succ hfuel
  have happend : write floats (.obj ((k, v) :: kvs)) ++ rest = '{' :: '"' :: (writeBody k.toList ++ ':' ::
      (write floats v ++ (writeMembers floats kvs ++ rest))) := by
    rw [write, List.cons_append, List.cons_append, List.append_assoc, List.cons_append, List.append_assoc]
  rw [happend]
  show (parseMembers floats fuel _).map
    (fun r : List (String × Json) × List Char => (Json.obj r.1, r.2)) = _
  rw [h fuel rest hle, Option.map_some]

mutual

theorem reads : ∀ v : Json, Reads floats v
  | .null => reads_null
  | .bool b => reads_bool b
  | .int n => reads_int n
  | .num q => reads_num q
  | .str s => reads_str s
  | .arr [] => reads_arr_nil
  | .arr (x :: xs) => reads_arr (reads_items xs x (reads x))
  | .obj [] => reads_obj_nil
  | .obj ((k, v) :: kvs) => reads_obj (reads_members kvs k v (reads v))

theorem reads_items : ∀ (xs : List Json) (x : Json), Reads floats x → ∀ fuel rest,
    depthItems (x :: xs) ≤ fuel →
      parseItems floats fuel (write floats x ++ (writeItems floats xs ++ rest)) = some (x :: xs, rest)
  | [], x, hx => by
    intro fuel rest hfuel
    rw [depthItems, depthItems, Nat.max_zero] at hfuel
    obtain ⟨fuel, rfl, hle⟩ := fuel_succ hfuel
    rw [writeItems]
    exact parseItems_last hx hle rest
  | y :: ys, x, hx => by
    intro fuel rest hfuel
    rw [depthItems] at hfuel
    obtain ⟨fuel, rfl, hle⟩ := fuel_succ hfuel
    have hboth := Nat.max_le.mp hle
    rw [writeItems, List.cons_append, List.append_assoc, parseItems_next hx hboth.1, skipSpace_write,
      reads_items ys y (reads y) fuel rest hboth.2, Option.map_some]

theorem reads_members : ∀ (kvs : List (String × Json)) (k : String) (v : Json), Reads floats v →
    ∀ fuel rest, depthMembers ((k, v) :: kvs) ≤ fuel →
      parseMembers floats fuel ('"' :: (writeBody k.toList ++ ':' ::
        (write floats v ++ (writeMembers floats kvs ++ rest)))) = some ((k, v) :: kvs, rest)
  | [], k, v, hv => by
    intro fuel rest hfuel
    rw [depthMembers, depthMembers, Nat.max_zero] at hfuel
    obtain ⟨fuel, rfl, hle⟩ := fuel_succ hfuel
    rw [writeMembers]
    exact parseMembers_last hv k hle rest
  | (l, w) :: kvs, k, v, hv => by
    intro fuel rest hfuel
    rw [depthMembers] at hfuel
    obtain ⟨fuel, rfl, hle⟩ := fuel_succ hfuel
    have hboth := Nat.max_le.mp hle
    have happend : writeMembers floats ((l, w) :: kvs) ++ rest = ',' :: '"' :: (writeBody l.toList ++ ':' ::
        (write floats w ++ (writeMembers floats kvs ++ rest))) := by
      rw [writeMembers, List.cons_append, List.cons_append, List.append_assoc, List.cons_append,
        List.append_assoc]
    rw [happend, parseMembers_next hv k hboth.1, skipSpace_of (by decide),
      reads_members kvs l w (reads w) fuel rest hboth.2, Option.map_some]

end

mutual

theorem depth_le : ∀ v : Json, depth v ≤ (write floats v).length
  | .null | .bool _ | .int _ | .num _ | .str _ => by
    rw [depth]
    exact write_pos _
  | .arr [] => by rw [depth, depthItems, write]; decide
  | .arr (x :: xs) => by
    have hx := depth_le x
    have hxs := depthItems_le xs
    rw [depth, depthItems, write, List.length_cons, List.length_append]
    omega
  | .obj [] => by rw [depth, depthMembers, write]; decide
  | .obj ((k, v) :: kvs) => by
    have hv := depth_le v
    have hkvs := depthMembers_le kvs
    rw [depth, depthMembers, write, List.length_cons, List.length_cons, List.length_append,
      List.length_cons, List.length_append]
    omega

theorem depthItems_le : ∀ xs : List Json, depthItems xs + 1 ≤ (writeItems floats xs).length
  | [] => by rw [depthItems, writeItems]; decide
  | x :: xs => by
    have hx := depth_le x
    have hxs := depthItems_le xs
    rw [depthItems, writeItems, List.length_cons, List.length_append]
    omega

theorem depthMembers_le : ∀ kvs : List (String × Json),
    depthMembers kvs + 1 ≤ (writeMembers floats kvs).length
  | [] => by rw [depthMembers, writeMembers]; decide
  | (k, v) :: kvs => by
    have hv := depth_le v
    have hkvs := depthMembers_le kvs
    rw [depthMembers, writeMembers, List.length_cons, List.length_cons, List.length_append,
      List.length_cons, List.length_append]
    omega

end

theorem loads_dumps {v : Json} (h : distinctKeys v = true) : loads floats (dumps floats v) = some v := by
  have hskip : skipSpace (write floats v) = write floats v := by
    have hwrite := @skipSpace_write floats v []
    rwa [List.append_nil] at hwrite
  have hread := (reads v : Reads floats v) ((write floats v).length + 1) []
    (Nat.le_succ_of_le (depth_le v)) trivial
  rw [List.append_nil] at hread
  unfold loads dumps
  rw [String.toList_ofList, hskip, hread]
  exact if_pos ⟨rfl, h⟩

end RoundTrip

end JsonText
