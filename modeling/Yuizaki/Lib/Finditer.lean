import Yuizaki.Lib.Regex

/- `re.finditer`, and patterns that match in one way only.

   A literal matches what it is (`run_literal`). A greedy repetition of a character class
   takes every character of the class that comes, where the rest of the pattern begins with
   none of them (`run_class`): no backtracking finds another match. -/
namespace Regex

/-- The text before the first match of a pattern, and the matches, one behind another, each with
the text up to the next. The pattern matches no empty text; `skip` characters belong to the match
before. -/
def pieces (r : Regex) : ℕ → Option Char → List Char → List Char × List (Position × List Char)
  | _, _, [] => ([], [])
  | skip + 1, _, c :: rest => pieces r skip (some c) rest
  | 0, before, c :: rest =>
    match r.run ⟨before, c :: rest, []⟩ some with
    | some m =>
      let next := pieces r (rest.length - m.rest.length) (some c) rest
      ([], (m, next.1) :: next.2)
    | none =>
      let next := pieces r 0 (some c) rest
      (c :: next.1, next.2)

section Pieces

variable {r : Regex} {before : Option Char}

theorem pieces_skip (skipped rest : List Char) :
    ∃ before', pieces r skipped.length before (skipped ++ rest) = pieces r 0 before' rest := by
  induction skipped generalizing before with
  | nil => exact ⟨before, rfl⟩
  | cons c skipped ih => exact ih

theorem pieces_match {found rest : List Char} {m : Position} (hfound : found ≠ []) (hrest : m.rest = rest)
    (hrun : r.run ⟨before, found ++ rest, []⟩ some = some m) :
    ∃ before', pieces r 0 before (found ++ rest) =
      ([], (m, (pieces r 0 before' rest).1) :: (pieces r 0 before' rest).2) := by
  obtain ⟨c, found, rfl⟩ := List.exists_cons_of_ne_nil hfound
  obtain ⟨before', hnext⟩ := @pieces_skip r (some c) found rest
  refine ⟨before', ?_⟩
  have hlength : (found ++ rest).length - m.rest.length = found.length := by
    rw [hrest, List.length_append, Nat.add_sub_cancel]
  rw [List.cons_append] at hrun ⊢
  rw [pieces, hrun]
  show (([], (m, (pieces r ((found ++ rest).length - m.rest.length) (some c) (found ++ rest)).1) :: _) : _ × _) = _
  rw [hlength, hnext]

theorem pieces_pass {c : Char} {rest : List Char} (hrun : r.run ⟨before, c :: rest, []⟩ some = none) :
    pieces r 0 before (c :: rest) = (c :: (pieces r 0 (some c) rest).1, (pieces r 0 (some c) rest).2) := by
  rw [pieces, hrun]

end Pieces

section Literals

variable {before : Option Char} {groups : List (ℕ × List Char)} {k : Position → Option Position}

/-! ## Literals -/

def literal (cs : List Char) : Regex := cs.foldr (fun c r => .seq (.char (fun d => d = c)) r) .empty

theorem run_literal (cs rest : List Char) :
    (literal cs).run ⟨before, cs ++ rest, groups⟩ k = k ⟨cs.getLast?.or before, rest, groups⟩ := by
  induction cs generalizing before with
  | nil => rfl
  | cons c cs ih =>
    show (if decide (c = c) = true then (literal cs).run ⟨some c, cs ++ rest, groups⟩ k else none) = _
    rw [decide_eq_true rfl, if_pos rfl, ih, List.getLast?_cons]
    cases cs.getLast? with
    | none => rfl
    | some d => rfl

theorem run_literal_none {cs text : List Char} (h : ¬ cs <+: text) :
    (literal cs).run ⟨before, text, groups⟩ k = none := by
  induction cs generalizing before text with
  | nil => exact absurd List.nil_prefix h
  | cons c cs ih =>
    cases text with
    | nil => rfl
    | cons d text =>
      show (if decide (d = c) = true then (literal cs).run ⟨some d, text, groups⟩ k else none) = none
      by_cases hd : d = c
      · rw [decide_eq_true hd, if_pos rfl]
        refine ih fun hprefix => h ?_
        rw [hd]
        exact List.cons_prefix_cons.mpr ⟨rfl, hprefix⟩
      · rw [decide_eq_false hd]
        rfl

/-! ## Character classes -/

theorem repeated_class {p : Char → Bool} (hk : ∀ before c rest groups, p c = true → k ⟨before, c :: rest, groups⟩ = none)
    (fuel : ℕ) (text : List Char) (hfuel : text.length ≤ fuel) :
    repeated (fun at_ k => (Regex.char p).run at_ k) true fuel ⟨before, text, groups⟩ k =
      k ⟨(text.takeWhile p).getLast?.or before, text.dropWhile p, groups⟩ := by
  induction fuel generalizing before text with
  | zero =>
    obtain rfl := List.length_eq_zero_iff.mp (Nat.le_zero.mp hfuel)
    rfl
  | succ fuel ih =>
    cases text with
    | nil => rfl
    | cons c rest =>
      by_cases hc : p c = true
      · have hnext := @ih (some c) rest (Nat.le_of_succ_le_succ hfuel)
        have hlast : ((c :: rest.takeWhile p).getLast?).or before = (rest.takeWhile p).getLast?.or (some c) := by
          rw [List.getLast?_cons]
          cases (rest.takeWhile p).getLast? with
          | none => rfl
          | some d => rfl
        rw [List.takeWhile_cons_of_pos hc, List.dropWhile_cons_of_pos hc, hlast, ← hnext]
        show ((if p c = true then (if rest.length < rest.length + 1 then
          repeated (fun at_ k => (Regex.char p).run at_ k) true fuel ⟨some c, rest, groups⟩ k else none)
            else none).orElse fun _ => k ⟨before, c :: rest, groups⟩) = _
        rw [if_pos hc, if_pos (Nat.lt_succ_self _), hk before c rest groups hc, Option.orElse_eq_or, Option.or_none]
      · rw [List.takeWhile_cons_of_neg hc, List.dropWhile_cons_of_neg hc]
        show ((if p c = true then _ else none).orElse fun _ => k ⟨before, c :: rest, groups⟩) = _
        rw [if_neg hc]
        rfl

theorem run_class {p : Char → Bool} (hk : ∀ before c rest groups, p c = true → k ⟨before, c :: rest, groups⟩ = none)
    (text : List Char) :
    (many true (.char p)).run ⟨before, text, groups⟩ k =
      k ⟨(text.takeWhile p).getLast?.or before, text.dropWhile p, groups⟩ :=
  repeated_class hk text.length text le_rfl

end Literals

end Regex
