import Yuizaki.Conversation.History
import Yuizaki.Lib.Join
import Yuizaki.Lib.Run

/- What a compression keeps (`_maybe_compress_history`).

   The summary that a compression writes is no longer than its budget (`combined_length`). It
   holds a line of every message that has left the history where at most sixteen leave, none of
   them is blank, and their lines need not be cut (`Compression.represented`). Otherwise messages
   are lost without a trace: those before the sixteen newest, blank ones, and the first lines of
   a new part that is longer than what is left for it. `compression_kept` follows runs of the
   manager and records every compression. -/
namespace Conversation

open Transition PySlice

/-! ## What is recorded -/

/-- A compression: the messages that left the history and the length their lines are cut to, the
summary before and after, and the text for the model. -/
structure Compression where
  removed : List Json
  itemMaxChars : ℤ
  before : Option String
  after : Option String
  source : List Char

/-- A line of the message is in the summary, and in the text that the model would be given. -/
def Compression.Represents (host : Host) (c : Compression) (item : Json) : Prop :=
  ∃ line summary, summaryLine host c.itemMaxChars item = some line ∧ c.after = some summary ∧
    line.toList <:+: summary.toList ∧ line.toList <:+: c.source

/-- Nothing is lost silently, and a summary that was written keeps to its budget. -/
structure Compression.Kept (host : Host) (c : Compression) : Prop where
  represented : ∀ item ∈ c.removed, c.Represents host item
  bounded : ∀ summary, c.after = some summary → c.after ≠ c.before → summary.length ≤ charBudget c.itemMaxChars

/-- The compression of a session whose history was changed. -/
def compressionOf (host : Host) (mgr : GenerationManager) (sessionId : String) : Compression where
  removed := if mgr.shouldCompress sessionId then mgr.oldPart sessionId else []
  itemMaxChars := mgr.policy.itemMaxChars
  before := mgr.summary.get sessionId
  after := (maybeCompressHistory host mgr sessionId).summary.get sessionId
  source := rewriteSource host (maybeCompressHistory host mgr sessionId) sessionId

/-- A manager and its compressions, newest first. -/
structure Recorded where
  mgr : GenerationManager
  compressions : List Compression

/-- The session and the manager that an operation compresses. -/
def pushed (mgr : GenerationManager) : Op → Option (String × GenerationManager)
  | .appendHistory sessionId role content =>
    some (sessionId, mgr.changeHistory sessionId (appendMessage mgr sessionId role content))
  | .replaceHistory sessionId messages => some (sessionId, mgr.changeHistory sessionId messages)
  | .applyLlmSummary _ _ _ => none
  | .updateSummaryPolicy _ _ _ => none

def recorded (host : Host) (s : Recorded) (op : Op) : Recorded where
  mgr := step host s.mgr op
  compressions := match pushed s.mgr op with
    | some (sessionId, mgr) => compressionOf host mgr sessionId :: s.compressions
    | none => s.compressions

/-- A compression cuts nothing off: at most sixteen messages leave, none is blank, and the summary
fits its budget with their lines, or their lines fit what is left for them. -/
def Fits (host : Host) (mgr : GenerationManager) (sessionId : String) : Prop :=
  let newSegment := joinLines (mgr.summaryLines host sessionId)
  let budget := charBudget mgr.policy.itemMaxChars
  (mgr.oldPart sessionId).length ≤ 16 ∧
    (∀ item ∈ mgr.oldPart sessionId, contentOf host mgr.policy.itemMaxChars item ≠ "") ∧
      ((appended (PyStr.stripChars ((mgr.summary.get sessionId).getD "").toList) newSegment).length ≤ budget ∨
        newSegment.length ≤ recentBudget budget)

instance (host : Host) (mgr : GenerationManager) (sessionId : String) : Decidable (Fits host mgr sessionId) :=
  inferInstanceAs (Decidable (_ ∧ _ ∧ _))

/-- A step that compresses nothing, or cuts nothing off. -/
def StepMeets (host : Host) (s : Recorded) (op : Op) : Prop :=
  ∀ target ∈ pushed s.mgr op, target.2.shouldCompress target.1 = true → Fits host target.2 target.1

instance (host : Host) (s : Recorded) (op : Op) : Decidable (StepMeets host s op) :=
  inferInstanceAs (Decidable (∀ target ∈ pushed s.mgr op, _))

/-! ## The budget -/

theorem length_rstrip (cs : List Char) : (rstrip cs).length ≤ cs.length := by
  unfold rstrip
  rw [List.length_reverse]
  exact (List.dropWhile_suffix _).length_le.trans_eq List.length_reverse

theorem length_lstrip (cs : List Char) : (lstrip cs).length ≤ cs.length := (List.dropWhile_suffix _).length_le

theorem combined_length {budget : ℤ} (hbudget : 1200 ≤ budget) (previousSummary newSegment : List Char) :
    (combined budget previousSummary newSegment).length ≤ budget := by
  unfold combined
  split
  · have hprevious : 0 ≤ previousBudget budget := by
      unfold previousBudget
      omega
    have hrecent : 0 < recentBudget budget := by
      unfold recentBudget
      omega
    have hfirst := length_sliceTo hprevious previousSummary
    have hlast := length_sliceFrom hrecent newSegment
    have hrstrip := length_rstrip (sliceTo (previousBudget budget) previousSummary)
    have hlstrip := length_lstrip (sliceFrom (-recentBudget budget) newSegment)
    have hsum : previousBudget budget + recentBudget budget + 32 ≤ budget := by
      unfold recentBudget previousBudget
      omega
    have hheading : "【会话压缩摘要】\n【已有摘要】\n".toList.length = 16 ∧ "\n…\n【新增对话】\n".toList.length = 10 := by
      decide
    unfold cutTogether
    rw [List.length_append, List.length_append, List.length_append, hheading.1, hheading.2]
    omega
  · rename_i hfits
    exact Int.not_lt.mp hfits

theorem charBudget_le (itemMaxChars : ℤ) : 1200 ≤ charBudget itemMaxChars := Int.le_max_left _ _

/-! ## The lines -/

section Lines

variable {host : Host} {limit : ℤ} {item : Json} {line : String} {lines : List String}

theorem summaryLine_eq (h : contentOf host limit item ≠ "") :
    summaryLine host limit item = some ("- " ++ roleOf host item ++ ": " ++ contentOf host limit item) := if_neg h

theorem summaryLine_start (h : summaryLine host limit item = some line) : ∃ rest, line.toList = '-' :: rest := by
  unfold summaryLine at h
  obtain ⟨-, h⟩ := Option.ite_none_left_eq_some.mp h
  rw [← Option.some.inj h, String.append_assoc, String.append_assoc, String.toList_append]
  exact ⟨_, rfl⟩

theorem lstrip_joinLines (hlines : ∀ line ∈ lines, ∃ rest, line.toList = '-' :: rest) :
    lstrip (joinLines lines) = joinLines lines := by
  cases lines with
  | nil => rfl
  | cons line lines =>
    obtain ⟨rest, hline⟩ := hlines line List.mem_cons_self
    have hjoin : ∃ after, joinLines (line :: lines) = '-' :: after := by
      unfold joinLines
      cases lines with
      | nil => exact ⟨rest, List.intercalate_singleton.trans hline⟩
      | cons next lines =>
        rw [List.map_cons, List.map_cons, List.intercalate_cons_cons, hline]
        exact ⟨_, rfl⟩
    obtain ⟨after, hafter⟩ := hjoin
    rw [hafter]
    rfl

theorem infix_joinLines (h : line ∈ lines) : line.toList <:+: joinLines lines :=
  Join.infix_join (List.mem_map.mpr ⟨line, h, rfl⟩)

theorem suffix_combined {budget : ℤ} {previousSummary newSegment : List Char} (hstart : lstrip newSegment = newSegment)
    (h : (appended previousSummary newSegment).length ≤ budget ∨ newSegment.length ≤ recentBudget budget) :
    newSegment <:+ combined budget previousSummary newSegment := by
  have hrecent : 0 < recentBudget budget := by
    unfold recentBudget
    omega
  unfold combined
  split
  · rename_i hlong
    have hshort := h.resolve_left (Int.not_le.mpr hlong)
    unfold cutTogether
    rw [sliceFrom_short hrecent hshort, hstart]
    exact List.suffix_append _ _
  · unfold appended
    split
    · exact List.suffix_append _ _
    · exact List.suffix_append _ _

end Lines

/-! ## One compression -/

section Step

variable {host : Host} {mgr : GenerationManager} {sessionId : String}

theorem summaryLines_all (hcount : (mgr.oldPart sessionId).length ≤ 16) {item : Json}
    (hitem : item ∈ mgr.oldPart sessionId) (hcontent : contentOf host mgr.policy.itemMaxChars item ≠ "") :
    ∃ line ∈ mgr.summaryLines host sessionId, summaryLine host mgr.policy.itemMaxChars item = some line := by
  refine ⟨_, List.mem_filterMap.mpr ⟨item, ?_, summaryLine_eq hcontent⟩, summaryLine_eq hcontent⟩
  rw [sliceFrom_short (by decide) (by omega)]
  exact hitem

theorem compressed_summary (hcompress : mgr.shouldCompress sessionId = true)
    (hlines : mgr.summaryLines host sessionId ≠ []) :
    (maybeCompressHistory host mgr sessionId).summary.get sessionId =
      some (String.ofList (combined (charBudget mgr.policy.itemMaxChars)
        (PyStr.stripChars ((mgr.summary.get sessionId).getD "").toList)
          (joinLines (mgr.summaryLines host sessionId)))) := by
  unfold maybeCompressHistory
  simp only [hcompress, ↓reduceIte, hlines]
  exact Dict.get_set_self

theorem kept_summary (h : mgr.shouldCompress sessionId = true → mgr.summaryLines host sessionId = []) :
    (maybeCompressHistory host mgr sessionId).summary.get sessionId = mgr.summary.get sessionId := by
  unfold maybeCompressHistory
  by_cases hcompress : mgr.shouldCompress sessionId = true
  · simp only [hcompress, ↓reduceIte, h hcompress]
    rfl
  · simp only [hcompress, Bool.false_eq_true, ↓reduceIte]
    rfl

theorem infix_rewriteSource {summary : String} (hsummary : mgr.summary.get sessionId = some summary)
    (hne : summary ≠ "") : summary.toList <:+: rewriteSource host mgr sessionId := by
  unfold rewriteSource
  rw [hsummary, Option.getD_some]
  simp only [hne, ne_eq, not_false_eq_true, ↓reduceIte]
  exact infix_joinLines (List.mem_append_left _ (List.mem_append_left _ (by simp)))

theorem compression_bounded : ∀ summary, (compressionOf host mgr sessionId).after = some summary →
    (compressionOf host mgr sessionId).after ≠ (compressionOf host mgr sessionId).before →
      summary.length ≤ charBudget (compressionOf host mgr sessionId).itemMaxChars := by
  intro summary hafter hchanged
  by_cases hwrites : mgr.shouldCompress sessionId = true ∧ mgr.summaryLines host sessionId ≠ []
  · have hsummary := compressed_summary hwrites.1 hwrites.2
    rw [← Option.some.inj (hsummary.symm.trans hafter), String.length_ofList]
    exact combined_length (charBudget_le _) _ _
  · refine absurd (kept_summary fun hcompress => ?_) hchanged
    exact not_not.mp fun hlines => hwrites ⟨hcompress, hlines⟩

theorem compression_represents (hfits : mgr.shouldCompress sessionId = true → Fits host mgr sessionId) :
    ∀ item ∈ (compressionOf host mgr sessionId).removed, (compressionOf host mgr sessionId).Represents host item := by
  intro item hitem
  by_cases hcompress : mgr.shouldCompress sessionId = true
  · obtain ⟨hcount, hcontents, hlength⟩ := hfits hcompress
    have hold : item ∈ mgr.oldPart sessionId := by
      have hremoved : (compressionOf host mgr sessionId).removed = mgr.oldPart sessionId := if_pos hcompress
      rwa [hremoved] at hitem
    obtain ⟨line, hline, hwritten⟩ := summaryLines_all hcount hold (hcontents item hold)
    have hsummary := compressed_summary hcompress (List.ne_nil_of_mem hline)
    have hstart : ∀ line ∈ mgr.summaryLines host sessionId, ∃ rest, line.toList = '-' :: rest := by
      intro line hline
      obtain ⟨item, -, hitem⟩ := List.mem_filterMap.mp hline
      exact summaryLine_start hitem
    have hinside := (infix_joinLines hline).trans (suffix_combined (lstrip_joinLines hstart) hlength).isInfix
    refine ⟨line, _, hwritten, hsummary, ?_, ?_⟩
    · rw [String.toList_ofList]
      exact hinside
    · refine List.IsInfix.trans ?_ (infix_rewriteSource hsummary ?_)
      · rw [String.toList_ofList]
        exact hinside
      · intro hempty
        rw [← String.toList_inj, String.toList_ofList] at hempty
        obtain ⟨rest, hrest⟩ := hstart line hline
        rw [hempty, hrest] at hinside
        exact absurd (List.infix_nil.mp hinside) (List.cons_ne_nil _ _)
  · have hremoved : (compressionOf host mgr sessionId).removed = [] := if_neg hcompress
    rw [hremoved] at hitem
    cases hitem

end Step

/-! ## Runs -/

/-- A step along which nothing is cut off. -/
def stepsWhere (host : Host) (s : Recorded) (op : Op) (s' : Recorded) : Prop :=
  StepMeets host s op ∧ recorded host s op = s'

/-- In every run of the manager whose compressions cut nothing off, from any state, each message is
represented when it leaves the history, and no summary is longer than its budget. -/
theorem compression_kept {host : Host} {mgr : GenerationManager} {hist : List Op} {s : Recorded}
    (hrun : Run (stepsWhere host) ⟨mgr, []⟩ hist s) : ∀ c ∈ s.compressions, c.Kept host := by
  refine hrun.invariant (I := fun s => ∀ c ∈ s.compressions, c.Kept host) (fun c hc => by cases hc) ?_
  intro s op s' hkept ⟨hmeets, hs'⟩ c hc
  rw [← hs'] at hc
  unfold recorded at hc
  cases hpushed : pushed s.mgr op with
  | none =>
    rw [hpushed] at hc
    exact hkept c hc
  | some target =>
    rw [hpushed] at hc
    obtain rfl | hc := List.mem_cons.mp hc
    · exact ⟨compression_represents (hmeets target hpushed), compression_bounded⟩
    · exact hkept c hc

/-- Three messages are more than the policy keeps. -/
def shortTalk : List Op :=
  [.updateSummaryPolicy 2 1 140, .appendHistory "s" "user" "hello", .appendHistory "s" "assistant" "good morning",
    .appendHistory "s" "user" "bye"]

/-- A host that has no other values than texts to write. -/
def plainHost : Host := ⟨fun _ => ""⟩

def newManager : GenerationManager := ⟨Dict.empty, Dict.empty, Dict.empty, ⟨24, 8, 140⟩⟩

/-- A step along which nothing is cut off, computed. -/
def nextWhere (host : Host) (s : Recorded) (op : Op) : Option Recorded :=
  if StepMeets host s op then some (recorded host s op) else none

theorem nextWhere_step {host : Host} {s s' : Recorded} {op : Op} (h : nextWhere host s op = some s') :
    stepsWhere host s op s' := by
  unfold nextWhere at h
  split at h
  · rename_i hmeets
    exact ⟨hmeets, Option.some.inj h⟩
  · cases h

theorem compression_kept_talk : ∃ s, Run (stepsWhere plainHost) ⟨newManager, []⟩ shortTalk.reverse s ∧
    s.compressions.map (fun c => c.removed.length) = [2, 0, 0] ∧ ∀ c ∈ s.compressions, c.Kept plainHost := by
  have hrun : (Run.exec (nextWhere plainHost) ⟨newManager, []⟩ shortTalk).map
      (fun s => s.compressions.map (fun c => c.removed.length)) = some [2, 0, 0] := by
    decide +kernel
  obtain ⟨s, hs, hremoved⟩ := Option.map_eq_some_iff.mp hrun
  have hsteps := (Run.of_exec hs).mono fun _ _ _ => nextWhere_step
  exact ⟨s, hsteps, hremoved, compression_kept hsteps⟩

/-- A message of the user with a number for its text. -/
def numbered (n : ℕ) : Json := .obj [("role", .str "user"), ("content", .str (toString n))]

/-- Of twenty-five messages at once seventeen leave the history, and the first of them is lost. -/
theorem first_message_lost : ¬ ∀ (host : Host) (mgr : GenerationManager) (hist : List Op) (s : Recorded),
    Run (fun s op s' => recorded host s op = s') ⟨mgr, []⟩ hist s → ∀ c ∈ s.compressions, c.Kept host := by
  intro hall
  have hrun := Run.of_foldl (recorded plainHost) ⟨newManager, []⟩
    [.replaceHistory "s" ((List.range 25).map numbered)]
  have hkept := hall _ _ _ _ hrun _ List.mem_cons_self
  obtain ⟨line, summary, hline, hafter, hinside, -⟩ := hkept.represented (numbered 0) (by decide +kernel)
  have hlost : ∀ summary ∈ (compressionOf plainHost (newManager.changeHistory "s" ((List.range 25).map numbered))
      "s").after, ¬ "- user: 0".toList <:+: summary.toList := by
    decide +kernel
  have htext : summaryLine plainHost 140 (numbered 0) = some "- user: 0" := by decide +kernel
  obtain rfl := Option.some.inj (hline.symm.trans htext)
  exact hlost summary hafter hinside

end Conversation
