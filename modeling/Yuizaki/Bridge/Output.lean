import Yuizaki.Lib.PySlice
import Yuizaki.Lib.Tail

/- The output of a coding agent (`_BoundedOutput` in `modules/agent/dsh_bridge.py`).

   The output comes in chunks, goes through a redactor, and of what the redactor emits the
   beginning and the end are kept, as much as the limit allows, or only the last lines. What is
   read at last is what cutting the whole would have given (`text_truncates`), however the output
   was cut into chunks and however often it was read in between. A text is the list of its
   characters. -/
namespace Bridge

open PySlice Tail

/-! ## Truncation -/

def truncation : List Char := "\n...[truncated]...\n".toList

def truncate (text : List Char) (limit : ℤ) : List Char :=
  if text.length ≤ limit then text
  else
    let marker := if truncation.length + 1 < limit then truncation else ['…']
    let remaining := limit - marker.length
    let head := (remaining + 1) / 2
    let tail := remaining / 2
    sliceTo head text ++ marker ++ (if tail ≠ 0 then sliceFrom (-tail) text else [])

/-! ## Lines -/

/-- The characters that end a line for `splitlines`. -/
def isLineBreak (c : Char) : Bool :=
  c.toNat ∈ [0x0a, 0x0b, 0x0c, 0x0d, 0x1c, 0x1d, 0x1e, 0x85, 0x2028, 0x2029]

/-- Whether a line goes on from one character to the next. -/
def sameLine (c d : Char) : Bool := !isLineBreak c || (c = '\r' && d = '\n')

/-- `text.splitlines(keepends=True)` -/
def splitlines (text : List Char) : List (List Char) := text.splitBy sameLine

example : splitlines "a\r\nb\n\nc".toList = ["a\r\n".toList, "b\n".toList, "\n".toList, "c".toList] := by decide

/-! ## The output -/

/-- `_StreamRedactor`: what one `append` emits, text by text. -/
structure Redactor (σ : Type) where
  start : σ
  append : σ → List Char → Bool → σ × List (List Char)

structure BoundedOutput (σ : Type) where
  limit : ℤ
  headLimit : ℤ
  head : List Char
  tail : List Char
  total : ℕ
  retainedTotal : ℕ
  tailOnly : Bool
  redactor : σ

namespace BoundedOutput

variable {σ : Type} (R : Redactor σ)

/-- `_BoundedOutput.__init__`. -/
def new (limit : ℤ) (tailOnly : Bool) : BoundedOutput σ where
  limit
  headLimit := if tailOnly then 0 else (limit + 1) / 2
  head := []
  tail := []
  total := 0
  retainedTotal := 0
  tailOnly
  redactor := R.start

def retain (output : BoundedOutput σ) (text : List Char) : BoundedOutput σ :=
  let take := min (text.length : ℤ) (output.headLimit - output.head.length)
  let tailLimit := output.limit - output.headLimit
  let tail := if tailLimit ≠ 0 then sliceFrom (-tailLimit) (output.tail ++ sliceFrom take text) else []
  { output with
    retainedTotal := output.retainedTotal + text.length
    head := output.head ++ sliceTo take text
    tail := if output.tailOnly then (sliceFrom (-20) (splitlines tail)).flatten else tail }

/-- `self.redactor.append`, which retains what it emits. -/
def redact (output : BoundedOutput σ) (text : List Char) (final : Bool) : BoundedOutput σ :=
  let answer := R.append output.redactor text final
  answer.2.foldl retain { output with redactor := answer.1 }

def append (output : BoundedOutput σ) (text : List Char) : BoundedOutput σ :=
  redact R { output with total := output.total + text.length } text false

/-- `text`: the output behind it, and the answer. -/
def text (output : BoundedOutput σ) : BoundedOutput σ × List Char :=
  let output := output.redact R [] true
  if output.tailOnly ∨ output.retainedTotal ≤ output.limit then (output, output.head ++ output.tail)
  else (output, truncate (output.head ++ truncation ++ output.tail) output.limit)

end BoundedOutput

/-! ## Calls -/

inductive Call where
  | append (text : List Char)
  | text

section Calls

variable {σ : Type} (R : Redactor σ)

def BoundedOutput.next (output : BoundedOutput σ) : Call → BoundedOutput σ
  | .append text => output.append R text
  | .text => (output.text R).1

def Redactor.answer (state : σ) : Call → σ × List (List Char)
  | .append text => R.append state text false
  | .text => R.append state [] true

/-- All that the redactor emits over calls. -/
def Redactor.emitted (state : σ) : List Call → List Char
  | [] => []
  | call :: calls => (R.answer state call).2.flatten ++ Redactor.emitted (R.answer state call).1 calls

end Calls

/-! ## What is kept -/

/-- What an output keeps of an emitted text. -/
structure Keeps {σ : Type} (output : BoundedOutput σ) (limit : ℕ) (emitted : List Char) : Prop where
  limits : output.limit = limit
  headLimits : output.headLimit = if output.tailOnly then 0 else (((limit + 1) / 2 : ℕ) : ℤ)
  retained : output.retainedTotal = emitted.length
  heads : output.head = emitted.take output.headLimit.toNat
  tails : output.tail = if output.tailOnly then lastRuns sameLine 20 (emitted.rtake limit)
    else (emitted.drop ((limit + 1) / 2)).rtake (limit / 2)

section Kept

variable {σ : Type} {R : Redactor σ} {output : BoundedOutput σ} {limit : ℕ} {emitted : List Char}

theorem take_both (n : ℕ) (first second : List Char) :
    first.take n ++ sliceTo (min (second.length : ℤ) (n - (first.take n).length)) second = (first ++ second).take n := by
  have hcut : min (second.length : ℤ) (n - (first.take n).length) = ((min (n - first.length) second.length : ℕ) : ℤ) := by
    rw [List.length_take]
    omega
  rw [hcut, sliceTo_natCast, ← List.take_eq_take_min, List.take_append]

theorem drop_both (n : ℕ) (first second : List Char) :
    first.drop n ++ sliceFrom (min (second.length : ℤ) (n - (first.take n).length)) second = (first ++ second).drop n := by
  unfold sliceFrom
  rw [List.drop_append, List.length_take, if_neg (by omega)]
  congr 1
  by_cases hall : second.length ≤ n - first.length
  · rw [List.drop_eq_nil_of_le (by omega), List.drop_eq_nil_of_le hall]
  · congr 1
    omega

theorem lastLines (text : List Char) : (sliceFrom (-20) (splitlines text)).flatten = lastRuns sameLine 20 text := by
  have h := sliceFrom_neg 20 (splitlines text)
  rw [if_pos (by decide)] at h
  unfold lastRuns
  rw [← show splitlines text = text.splitBy sameLine from rfl, ← h]
  rfl

theorem keeps_new (tailOnly : Bool) : Keeps (BoundedOutput.new R limit tailOnly) limit [] where
  limits := rfl
  headLimits := by
    cases tailOnly with
    | true => rfl
    | false =>
      show ((limit : ℤ) + 1) / 2 = (((limit + 1) / 2 : ℕ) : ℤ)
      omega
  retained := rfl
  heads := by
    rw [List.take_nil]
    rfl
  tails := by
    cases tailOnly with
    | true =>
      rw [List.rtake_nil]
      rfl
    | false =>
      show [] = (([] : List Char).drop ((limit + 1) / 2)).rtake (limit / 2)
      rw [List.drop_nil, List.rtake_nil]

theorem Keeps.retain (h : Keeps output limit emitted) (text : List Char) :
    Keeps (output.retain text) limit (emitted ++ text) := by
  have hretained : (output.retain text).retainedTotal = (emitted ++ text).length := by
    rw [List.length_append, ← h.retained]
    rfl
  cases htail : output.tailOnly with
  | true =>
    have hhead : output.headLimit = 0 := by rw [h.headLimits, htail]; rfl
    have hnone : output.head = [] := by rw [h.heads, hhead]; rfl
    have htake : min (text.length : ℤ) (output.headLimit - output.head.length) = ((0 : ℕ) : ℤ) := by
      rw [hhead, hnone, List.length_nil]
      omega
    refine ⟨h.limits, h.headLimits, hretained, ?_, ?_⟩
    · show output.head ++ sliceTo (min (text.length : ℤ) (output.headLimit - output.head.length)) text =
        (emitted ++ text).take output.headLimit.toNat
      rw [htake, hnone, hhead, sliceTo_natCast]
      rfl
    · show (if output.tailOnly then (sliceFrom (-20) (splitlines (if output.limit - output.headLimit ≠ 0 then _ else []))).flatten
        else _) = (if output.tailOnly then _ else _)
      rw [htail, if_pos rfl, if_pos rfl, htake, lastLines, hhead, h.limits, Int.sub_zero, sliceFrom_neg]
      rw [h.tails, htail, if_pos rfl]
      exact retained_append sameLine limit 20 emitted text
  | false =>
    have hhead : output.headLimit = (((limit + 1) / 2 : ℕ) : ℤ) := by rw [h.headLimits, htail]; rfl
    have hkept : output.head = emitted.take ((limit + 1) / 2) := by
      rw [h.heads, hhead, Int.toNat_natCast]
    have hrest : output.limit - output.headLimit = ((limit / 2 : ℕ) : ℤ) := by
      rw [h.limits, hhead]
      omega
    refine ⟨h.limits, h.headLimits, hretained, ?_, ?_⟩
    · show output.head ++ sliceTo (min (text.length : ℤ) (output.headLimit - output.head.length)) text =
        (emitted ++ text).take output.headLimit.toNat
      rw [hkept, hhead, take_both, Int.toNat_natCast]
    · show (if output.tailOnly then _ else (if output.limit - output.headLimit ≠ 0 then
          sliceFrom (-(output.limit - output.headLimit)) (output.tail ++
            sliceFrom (min (text.length : ℤ) (output.headLimit - output.head.length)) text) else [])) =
        (if output.tailOnly then _ else _)
      rw [htail, if_neg Bool.false_ne_true, if_neg Bool.false_ne_true, hrest, sliceFrom_neg, h.tails, htail,
        if_neg Bool.false_ne_true, rtake_append_rtake, hkept, hhead, drop_both]

theorem Keeps.redact (h : Keeps output limit emitted) (text : List Char) (final : Bool) :
    Keeps (output.redact R text final) limit (emitted ++ (R.append output.redactor text final).2.flatten) := by
  unfold BoundedOutput.redact
  dsimp only
  generalize R.append output.redactor text final = answer
  have hstart : Keeps { output with redactor := answer.1 } limit emitted :=
    ⟨h.limits, h.headLimits, h.retained, h.heads, h.tails⟩
  clear h
  generalize { output with redactor := answer.1 } = start at hstart ⊢
  induction answer.2 generalizing start emitted with
  | nil =>
    rw [List.flatten_nil, List.append_nil]
    exact hstart
  | cons first rest ih =>
    rw [List.flatten_cons, ← List.append_assoc]
    exact ih (start.retain first) (hstart.retain first)

theorem redact_frame (output : BoundedOutput σ) (text : List Char) (final : Bool) :
    (output.redact R text final).redactor = (R.append output.redactor text final).1 ∧
      (output.redact R text final).tailOnly = output.tailOnly := by
  unfold BoundedOutput.redact
  dsimp only
  generalize R.append output.redactor text final = answer
  suffices hfold : ∀ (texts : List (List Char)) (start : BoundedOutput σ),
      (texts.foldl BoundedOutput.retain start).redactor = start.redactor ∧
        (texts.foldl BoundedOutput.retain start).tailOnly = start.tailOnly from hfold answer.2 _
  intro texts
  induction texts with
  | nil => exact fun start => ⟨rfl, rfl⟩
  | cons first rest ih => exact fun start => ih (start.retain first)

theorem text_output (output : BoundedOutput σ) : (output.text R).1 = output.redact R [] true := by
  unfold BoundedOutput.text
  dsimp only
  split
  · rfl
  · rfl

theorem Keeps.next (h : Keeps output limit emitted) (call : Call) :
    Keeps (output.next R call) limit (emitted ++ (R.answer output.redactor call).2.flatten) := by
  cases call with
  | append text =>
    have hcounted : Keeps { output with total := output.total + text.length } limit emitted :=
      ⟨h.limits, h.headLimits, h.retained, h.heads, h.tails⟩
    exact hcounted.redact text false
  | text =>
    show Keeps (output.text R).1 limit _
    rw [text_output]
    exact h.redact [] true

theorem next_frame (output : BoundedOutput σ) (call : Call) :
    (output.next R call).redactor = (R.answer output.redactor call).1 ∧
      (output.next R call).tailOnly = output.tailOnly := by
  cases call with
  | append text => exact redact_frame { output with total := output.total + text.length } text false
  | text =>
    show (output.text R).1.redactor = _ ∧ (output.text R).1.tailOnly = _
    rw [text_output]
    exact redact_frame output [] true

theorem Keeps.run (h : Keeps output limit emitted) (calls : List Call) :
    Keeps (calls.foldl (BoundedOutput.next R) output) limit (emitted ++ R.emitted output.redactor calls) ∧
      (calls.foldl (BoundedOutput.next R) output).tailOnly = output.tailOnly := by
  induction calls generalizing output emitted with
  | nil =>
    refine ⟨?_, rfl⟩
    show Keeps output limit (emitted ++ [])
    rw [List.append_nil]
    exact h
  | cons call calls ih =>
    obtain ⟨hredactor, htail⟩ := next_frame (R := R) output call
    obtain ⟨hkeeps, hkind⟩ := ih (h.next call)
    refine ⟨?_, hkind.trans htail⟩
    rw [hredactor, List.append_assoc] at hkeeps
    exact hkeeps

end Kept

/-! ## Reading -/

section Reading

variable {σ : Type} {R : Redactor σ} {output : BoundedOutput σ} {limit : ℕ} {emitted text : List Char}

def marker (limit : ℕ) : List Char := if truncation.length + 1 < limit then truncation else ['…']

theorem marker_length (hlimit : 1 ≤ limit) : (marker limit).length ≤ limit := by
  unfold marker
  split
  · omega
  · exact hlimit

theorem truncate_long (hlimit : 1 ≤ limit) (hlong : limit < text.length) :
    truncate text limit = text.take ((limit - (marker limit).length + 1) / 2) ++ marker limit ++
      text.rtake ((limit - (marker limit).length) / 2) := by
  have hmarker : (if (truncation.length : ℤ) + 1 < limit then truncation else ['…']) = marker limit := by
    unfold marker
    congr 1
    exact propext (by omega)
  have hroom := marker_length hlimit
  have hhead : ((limit : ℤ) - (marker limit).length + 1) / 2 = (((limit - (marker limit).length + 1) / 2 : ℕ) : ℤ) := by omega
  have htail : ((limit : ℤ) - (marker limit).length) / 2 = (((limit - (marker limit).length) / 2 : ℕ) : ℤ) := by omega
  unfold truncate
  rw [if_neg (by omega)]
  dsimp only
  rw [hmarker, hhead, htail, sliceTo_natCast, sliceFrom_neg]

theorem truncate_short (h : text.length ≤ limit) : truncate text limit = text := if_pos (by exact_mod_cast h)

theorem truncate_length (hlimit : 1 ≤ limit) : (truncate text limit).length ≤ limit := by
  by_cases hlong : limit < text.length
  · have hroom := marker_length hlimit
    rw [truncate_long hlimit hlong, List.length_append, List.length_append, List.length_take, length_rtake]
    omega
  · rw [truncate_short (by omega)]
    omega

theorem truncate_kept (hlimit : 1 ≤ limit) (hlong : limit < text.length) :
    truncate (text.take ((limit + 1) / 2) ++ truncation ++ (text.drop ((limit + 1) / 2)).rtake (limit / 2)) limit =
      truncate text limit := by
  have hmarker : 1 ≤ (marker limit).length := by
    unfold marker
    split
    · decide
    · exact Nat.le_refl 1
  have htruncation : 1 ≤ truncation.length := by decide
  have hhead : (text.take ((limit + 1) / 2)).length = (limit + 1) / 2 := by
    rw [List.length_take]
    omega
  have htail : ((text.drop ((limit + 1) / 2)).rtake (limit / 2)).length = limit / 2 := by
    rw [length_rtake, List.length_drop]
    omega
  have hkept : limit < (text.take ((limit + 1) / 2) ++ truncation ++
      (text.drop ((limit + 1) / 2)).rtake (limit / 2)).length := by
    rw [List.length_append, List.length_append, hhead, htail]
    omega
  rw [truncate_long hlimit hkept, truncate_long hlimit hlong]
  congr 1
  · congr 1
    rw [List.append_assoc, List.take_append_of_le_length (by omega), List.take_take]
    congr 1
    omega
  · rw [rtake_append_left (by omega)]
    have hend : text.rtake (limit / 2) = (text.drop ((limit + 1) / 2)).rtake (limit / 2) := by
      conv_lhs => rw [← List.take_append_drop ((limit + 1) / 2) text]
      refine rtake_append_left ?_
      rw [List.length_drop]
      omega
    rw [← hend, rtake_rtake]
    congr 1
    omega

theorem text_whole (h : Keeps (output.redact R [] true) limit emitted) (hlimit : 1 ≤ limit)
    (hkind : (output.redact R [] true).tailOnly = false) : (output.text R).2 = truncate emitted limit := by
  have hhead : (output.redact R [] true).head = emitted.take ((limit + 1) / 2) := by
    rw [h.heads, h.headLimits, hkind]
    rfl
  have htail : (output.redact R [] true).tail = (emitted.drop ((limit + 1) / 2)).rtake (limit / 2) := by
    rw [h.tails, hkind]
    rfl
  unfold BoundedOutput.text
  dsimp only
  rw [h.retained, h.limits, hkind, hhead, htail]
  by_cases hshort : emitted.length ≤ limit
  · rw [if_pos (Or.inr (by exact_mod_cast hshort)), truncate_short hshort]
    show emitted.take ((limit + 1) / 2) ++ (emitted.drop ((limit + 1) / 2)).rtake (limit / 2) = emitted
    rw [rtake_of_le, List.take_append_drop]
    rw [List.length_drop]
    omega
  · have hlong : limit < emitted.length := by omega
    rw [if_neg]
    · exact truncate_kept hlimit hlong
    · rintro (htrue | hfits)
      · cases htrue
      · omega

theorem text_last (h : Keeps (output.redact R [] true) limit emitted)
    (hkind : (output.redact R [] true).tailOnly = true) :
    (output.text R).2 = lastRuns sameLine 20 (emitted.rtake limit) := by
  have hhead : (output.redact R [] true).head = [] := by
    rw [h.heads, h.headLimits, hkind]
    rfl
  have htail : (output.redact R [] true).tail = lastRuns sameLine 20 (emitted.rtake limit) := by
    rw [h.tails, hkind]
    rfl
  unfold BoundedOutput.text
  dsimp only
  rw [hkind, if_pos (Or.inl rfl), hhead, htail]
  rfl

theorem keeps_read (R : Redactor σ) (limit : ℕ) (tailOnly : Bool) (calls : List Call) :
    Keeps ((calls.foldl (BoundedOutput.next R) (BoundedOutput.new R limit tailOnly)).redact R [] true) limit
        (R.emitted R.start (calls ++ [.text])) ∧
      ((calls.foldl (BoundedOutput.next R) (BoundedOutput.new R limit tailOnly)).redact R [] true).tailOnly = tailOnly := by
  have hnew : Keeps (BoundedOutput.new R limit tailOnly) limit [] := keeps_new tailOnly
  have hrun := hnew.run (R := R) (calls ++ [.text])
  rw [List.foldl_append] at hrun
  have hlast : [Call.text].foldl (BoundedOutput.next R) (calls.foldl (BoundedOutput.next R) (BoundedOutput.new R limit tailOnly)) =
      (calls.foldl (BoundedOutput.next R) (BoundedOutput.new R limit tailOnly)).redact R [] true := text_output _
  rw [hlast] at hrun
  exact hrun

end Reading

/-- What is read of an output at last, whatever was called before, is what cutting all that the
redactor emitted would give, and in the other mode the last lines of its end. -/
theorem text_truncates {σ : Type} (R : Redactor σ) (limit : ℤ) (hlimit : 1 ≤ limit) (calls : List Call) :
    (((calls.foldl (BoundedOutput.next R) (BoundedOutput.new R limit false)).text R).2 =
        truncate (R.emitted R.start (calls ++ [.text])) limit ∧
      (((calls.foldl (BoundedOutput.next R) (BoundedOutput.new R limit false)).text R).2.length : ℤ) ≤ limit ∧
      ((R.emitted R.start (calls ++ [.text])).length ≤ limit →
        ((calls.foldl (BoundedOutput.next R) (BoundedOutput.new R limit false)).text R).2 =
          R.emitted R.start (calls ++ [.text]))) ∧
    ((calls.foldl (BoundedOutput.next R) (BoundedOutput.new R limit true)).text R).2 =
      (sliceFrom (-20) (splitlines (sliceFrom (-limit) (R.emitted R.start (calls ++ [.text]))))).flatten := by
  obtain ⟨most, rfl⟩ : ∃ most : ℕ, limit = most := ⟨limit.toNat, by omega⟩
  have hmost : 1 ≤ most := by omega
  obtain ⟨hkeeps, hkind⟩ := keeps_read R most false calls
  obtain ⟨hlines, hlast⟩ := keeps_read R most true calls
  have hwhole := text_whole hkeeps hmost hkind
  refine ⟨⟨hwhole, ?_, fun hfits => ?_⟩, ?_⟩
  · rw [hwhole]
    exact_mod_cast truncate_length hmost
  · rw [hwhole]
    exact truncate_short (by exact_mod_cast hfits)
  · have hcut := sliceFrom_neg most (R.emitted R.start (calls ++ [.text]))
    rw [if_pos (by omega)] at hcut
    rw [text_last hlines hlast, hcut, lastLines]

/-- A redactor of text without a credential: it holds the last characters back. -/
def plainRedactor (window : ℕ) : Redactor (List Char) where
  start := []
  append pending text final :=
    let pending := pending ++ text
    let cut := if final then pending.length else pending.length - window
    if pending = [] then ([], []) else (pending.drop cut, [pending.take cut])

/-- An output of two chunks, read in between, is cut around the marker. -/
theorem text_truncates_sample :
    ((([.append "abcde".toList, .text, .append "fgh".toList].foldl (BoundedOutput.next (plainRedactor 256))
        (BoundedOutput.new (plainRedactor 256) 6 false)).text (plainRedactor 256)).2 = "abc…gh".toList) := by
  have hemitted : (plainRedactor 256).emitted [] [.append "abcde".toList, .text, .append "fgh".toList, .text] =
      "abcdefgh".toList := by decide +kernel
  rw [(text_truncates (plainRedactor 256) 6 (by decide) [.append "abcde".toList, .text, .append "fgh".toList]).1.1]
  show truncate ((plainRedactor 256).emitted [] [.append "abcde".toList, .text, .append "fgh".toList, .text]) 6 = _
  rw [hemitted]
  decide +kernel

end Bridge
