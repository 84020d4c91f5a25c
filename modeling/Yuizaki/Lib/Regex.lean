import Yuizaki.Lib.PyStr

/- Regular expressions as Python's `re` runs them.

   Matching is by backtracking: `run` tries the alternatives of a pattern in order and
   hands each position it reaches to a continuation, and the first one that the rest of
   the pattern accepts is taken. A repetition is greedy or lazy and stops where an
   iteration consumes nothing. Groups keep what they last matched. -/

inductive Regex where
  | empty
  | char (p : Char → Bool)
  | seq (a b : Regex)
  | alt (a b : Regex)
  | many (greedy : Bool) (a : Regex)
  | group (n : ℕ) (a : Regex)
  | atEnd
  | boundary (word : Char → Bool)

namespace Regex

/-- Where a match stands: the character before, those to come, and the groups so far. -/
structure Position where
  before : Option Char
  rest : List Char
  groups : List (ℕ × List Char)

/-- A repetition of `body`, at most `fuel` times. -/
def repeated (body : Position → (Position → Option Position) → Option Position)
    (greedy : Bool) : ℕ → Position → (Position → Option Position) → Option Position
  | 0, at_, k => k at_
  | fuel + 1, at_, k =>
    let again := fun (_ : Unit) => body at_ (fun next =>
      if next.rest.length < at_.rest.length then repeated body greedy fuel next k else none)
    if greedy then (again ()).orElse (fun _ => k at_) else (k at_).orElse again

/-- Whether the pattern matches from a position such that `k` accepts where it ends. -/
def run : Regex → Position → (Position → Option Position) → Option Position
  | .empty, at_, k => k at_
  | .char p, at_, k =>
    match at_.rest with
    | [] => none
    | c :: rest => if p c then k { at_ with before := some c, rest } else none
  | .seq a b, at_, k => a.run at_ (fun next => b.run next k)
  | .alt a b, at_, k => (a.run at_ k).orElse (fun _ => b.run at_ k)
  | .many greedy a, at_, k => repeated (fun p k => a.run p k) greedy at_.rest.length at_ k
  | .group n a, at_, k => a.run at_ (fun next =>
      k { next with groups := (n, at_.rest.take (at_.rest.length - next.rest.length)) ::
            next.groups })
  | .atEnd, at_, k => if at_.rest = [] ∨ at_.rest = ['\n'] then k at_ else none
  | .boundary word, at_, k =>
    if (at_.before.any word) ≠ (at_.rest.head?.any word) then k at_ else none

/-- The first match from here or further on. -/
def searchFrom (r : Regex) : Option Char → List Char → Option Position
  | before, [] => r.run ⟨before, [], []⟩ some
  | before, c :: rest =>
    (r.run ⟨before, c :: rest, []⟩ some).orElse (fun _ => searchFrom r (some c) rest)

def search (r : Regex) (text : String) : Option Position := r.searchFrom none text.toList

/-- `re.match`. -/
def matchStart (r : Regex) (text : String) : Option Position :=
  r.run ⟨none, text.toList, []⟩ some

/-- `re.fullmatch` succeeds. -/
def fullMatch (r : Regex) (text : String) : Bool :=
  (r.run ⟨none, text.toList, []⟩ (fun m => if m.rest = [] then some m else none)).isSome

/-- `match.group(n)`, where the group took part. -/
def Position.group (m : Position) (n : ℕ) : Option String :=
  (m.groups.lookup n).map String.ofList

/-- The text with every match replaced; `skip` characters belong to the match before. -/
def subFrom (r : Regex) (replacement : List Char) : ℕ → Option Char → List Char → List Char
  | _, _, [] => []
  | skip + 1, _, c :: rest => subFrom r replacement skip (some c) rest
  | 0, before, c :: rest =>
    match r.run ⟨before, c :: rest, []⟩ some with
    | some m =>
      if m.rest.length ≤ rest.length then
        replacement ++ subFrom r replacement (rest.length - m.rest.length) (some c) rest
      else c :: subFrom r replacement 0 (some c) rest
    | none => c :: subFrom r replacement 0 (some c) rest

/-- `pattern.sub`, of a pattern that matches no empty text. -/
def sub (r : Regex) (replacement text : String) : String :=
  String.ofList (r.subFrom replacement.toList 0 none text.toList)

/-! ## Abbreviations -/

def some1 (greedy : Bool) (a : Regex) : Regex := .seq a (.many greedy a)

/-- `?` -/
def optional (a : Regex) : Regex := .alt a .empty

def text (s : String) : Regex := s.toList.foldr (fun c r => .seq (.char (fun d => d = c)) r) .empty

/-- What a lower-case letter stands for under `re.IGNORECASE`. -/
def sameLetter (c d : Char) : Bool :=
  d = c ∨ d = c.toUpper ∨ (c = 'i' ∧ d ∈ [Char.ofNat 0x130, Char.ofNat 0x131]) ∨
    (c = 's' ∧ d = Char.ofNat 0x17F) ∨ (c = 'k' ∧ d = Char.ofNat 0x212A)

/-- A lower-case literal under `re.IGNORECASE`. -/
def textIgnoreCase (s : String) : Regex :=
  s.toList.foldr (fun c r => .seq (.char (sameLetter c)) r) .empty

def seqs (rs : List Regex) : Regex := rs.foldr .seq .empty

def alts : List Regex → Regex
  | [] => .char (fun _ => false)
  | [r] => r
  | r :: rest => .alt r (alts rest)

/-- `{n,}` -/
def atLeast (n : ℕ) (a : Regex) : Regex := seqs (List.replicate n a ++ [.many true a])

/-- `.` -/
def anyChar : Regex := .char (fun c => c ≠ '\n')

def oneOf (s : String) : Regex := .char (fun c => c ∈ s.toList)

/-- A character class of lower-case letters under `re.IGNORECASE`. -/
def oneOfIgnoreCase (s : String) : Regex :=
  .char (fun c => s.toList.any (fun letter => sameLetter letter c))

def noneOf (s : String) : Regex := .char (fun c => c ∉ s.toList)

/-- `\s` -/
def space : Regex := .char PyStr.isSpace

/-- `\S` -/
def nonSpace : Regex := .char (fun c => !PyStr.isSpace c)

/-- `https?://\S+` -/
def url : Regex := seqs [text "http", optional (text "s"), text "://", some1 true nonSpace]

end Regex
