import Yuizaki.Lib.Dict
import Yuizaki.Lib.Json
import Yuizaki.Lib.PySlice
import Yuizaki.Lib.PyStr

/- Short-term history and its summary (`GenerationManager` in `core/state.py`).

   A history that grows too long keeps its newest messages, and the older ones go into the
   summary of the session: at most sixteen of them, each cut to a length. A summary that
   would get longer than its budget is put together from the beginning of the one before and
   the end of the new part. A model may write another summary later, from the text of
   `get_summary_rewrite_snapshot`. -/
namespace Conversation

open PySlice

/-- `str(value)` of a value that is no text. -/
structure Host where
  str : Json → String

/-- `_summary_trigger_messages`, `_summary_keep_recent` and `_summary_item_max_chars`. -/
structure SummaryPolicy where
  triggerMessages : ℤ
  keepRecent : ℤ
  itemMaxChars : ℤ

structure SummaryMeta where
  messagesSinceRewrite : ℕ
  sourceRevision : ℕ
  compressionCount : ℕ
  rewriteCount : ℕ

/-- No entry in `_summary_meta`. -/
def SummaryMeta.new : SummaryMeta := ⟨0, 0, 0, 0⟩

structure GenerationManager where
  history : Dict String (List Json)
  summary : Dict String String
  summaryMeta : Dict String SummaryMeta
  policy : SummaryPolicy

/-! ## Python -/

/-- `lstrip` on the characters. -/
def lstrip (cs : List Char) : List Char := cs.dropWhile PyStr.isSpace

/-- `rstrip` on the characters. -/
def rstrip (cs : List Char) : List Char := (cs.reverse.dropWhile PyStr.isSpace).reverse

/-- `"\n".join(lines)` -/
def joinLines (lines : List String) : List Char := List.intercalate ['\n'] (lines.map String.toList)

/-! ## Messages -/

def roleOf (host : Host) (item : Json) : String :=
  if item.hasKey "role" then
    match item.get "role" with
    | .str role => role
    | value => host.str value
  else "user"

/-- The content of a message on one line, cut to a length. -/
def contentOf (host : Host) (limit : ℤ) (item : Json) : String :=
  let content := match item.get "content" with
    | .str content => content
    | value => if value.truthy then host.str value else ""
  let line := PyStr.replaceChar '\n' ' ' (PyStr.strip content)
  if limit < line.length then String.ofList (sliceTo (limit - 1) line.toList) ++ "…" else line

/-- The line of a message in a summary; one without content has none. -/
def summaryLine (host : Host) (limit : ℤ) (item : Json) : Option String :=
  let content := contentOf host limit item
  if content = "" then none else some ("- " ++ roleOf host item ++ ": " ++ content)

/-! ## Compression -/

def charBudget (itemMaxChars : ℤ) : ℤ := max 1200 (itemMaxChars * 16)

/-- `int(char_budget * 0.65)` -/
def previousBudget (budget : ℤ) : ℤ := budget * 13 / 20

def recentBudget (budget : ℤ) : ℤ := max 200 (budget - previousBudget budget - 32)

/-- The summary with the new part behind it. -/
def appended (previousSummary newSegment : List Char) : List Char :=
  if previousSummary ≠ [] then previousSummary ++ "\n【新增对话】\n".toList ++ newSegment
  else "【会话压缩摘要】\n【新增对话】\n".toList ++ newSegment

/-- The beginning of the summary and the end of the new part. -/
def cutTogether (budget : ℤ) (previousSummary newSegment : List Char) : List Char :=
  "【会话压缩摘要】\n【已有摘要】\n".toList ++ rstrip (sliceTo (previousBudget budget) previousSummary) ++
    "\n…\n【新增对话】\n".toList ++ lstrip (sliceFrom (-recentBudget budget) newSegment)

def combined (budget : ℤ) (previousSummary newSegment : List Char) : List Char :=
  if budget < (appended previousSummary newSegment).length then cutTogether budget previousSummary newSegment
  else appended previousSummary newSegment

def GenerationManager.shouldCompress (mgr : GenerationManager) (sessionId : String) : Bool :=
  let length : ℤ := ((mgr.history.get sessionId).getD []).length
  mgr.policy.triggerMessages < length ∨
    (mgr.summary.get sessionId).isSome = true ∧ mgr.policy.keepRecent < length

/-- The messages that a compression takes out of the history. -/
def GenerationManager.oldPart (mgr : GenerationManager) (sessionId : String) : List Json :=
  sliceTo (-mgr.policy.keepRecent) ((mgr.history.get sessionId).getD [])

/-- The lines of the newest sixteen of them. -/
def GenerationManager.summaryLines (host : Host) (mgr : GenerationManager) (sessionId : String) : List String :=
  (sliceFrom (-16) (mgr.oldPart sessionId)).filterMap (summaryLine host mgr.policy.itemMaxChars)

/-- The entry of a session in `_summary_meta` is changed. -/
def GenerationManager.changeMeta (mgr : GenerationManager) (sessionId : String)
    (f : SummaryMeta → SummaryMeta) : GenerationManager :=
  { mgr with
    summaryMeta := mgr.summaryMeta.set sessionId (f ((mgr.summaryMeta.get sessionId).getD .new)) }

def maybeCompressHistory (host : Host) (mgr : GenerationManager) (sessionId : String) : GenerationManager :=
  let counted := mgr.changeMeta sessionId (fun entry => { entry with
    messagesSinceRewrite := entry.messagesSinceRewrite + 1 })
  if mgr.shouldCompress sessionId then
    let recentMessages := sliceFrom (-mgr.policy.keepRecent) ((mgr.history.get sessionId).getD [])
    let lines := mgr.summaryLines host sessionId
    let summarised :=
      if lines = [] then counted
      else
        let previousSummary := PyStr.stripChars ((mgr.summary.get sessionId).getD "").toList
        let next := combined (charBudget mgr.policy.itemMaxChars) previousSummary (joinLines lines)
        { counted.changeMeta sessionId (fun entry => { entry with
            compressionCount := entry.compressionCount + 1 }) with
          summary := counted.summary.set sessionId (String.ofList next) }
    { summarised with history := summarised.history.set sessionId recentMessages }
  else counted

/-- The history of a session is changed, and its source with it. -/
def GenerationManager.changeHistory (mgr : GenerationManager) (sessionId : String) (history : List Json) :
    GenerationManager :=
  { mgr with history := mgr.history.set sessionId history }.changeMeta sessionId (fun entry => { entry with
    sourceRevision := entry.sourceRevision + 1 })

/-! ## The operations -/

/-- The operations on a session, and a change of the policy. -/
inductive Op where
  | appendHistory (sessionId role content : String)
  | replaceHistory (sessionId : String) (messages : List Json)
  | applyLlmSummary (sessionId summaryText : String) (expectedRevision : Option ℕ)
  | updateSummaryPolicy (triggerMessages keepRecentMessages itemMaxChars : ℤ)

/-- The history of a session with a message behind it. -/
def appendMessage (mgr : GenerationManager) (sessionId role content : String) : List Json :=
  (mgr.history.get sessionId).getD [] ++ [.obj [("role", .str role), ("content", .str content)]]

/-- A history is put in place, and compressed. -/
def push (host : Host) (mgr : GenerationManager) (sessionId : String) (history : List Json) : GenerationManager :=
  maybeCompressHistory host (mgr.changeHistory sessionId history) sessionId

def applyLlmSummary (mgr : GenerationManager) (sessionId summaryText : String) (expectedRevision : Option ℕ) :
    GenerationManager × Bool :=
  let summaryText := PyStr.strip summaryText
  let revision := ((mgr.summaryMeta.get sessionId).getD .new).sourceRevision
  if summaryText = "" then (mgr, false)
  else if expectedRevision.isSome ∧ expectedRevision ≠ some revision then (mgr.changeMeta sessionId id, false)
  else
    ({ mgr.changeMeta sessionId (fun entry => { entry with
        rewriteCount := entry.rewriteCount + 1
        messagesSinceRewrite := 0
        sourceRevision := revision + 1 }) with
      summary := mgr.summary.set sessionId summaryText }, true)

/-- `update_summary_policy`, of the thresholds that compression reads. -/
def updateSummaryPolicy (mgr : GenerationManager) (triggerMessages keepRecentMessages itemMaxChars : ℤ) :
    GenerationManager :=
  { mgr with
    policy := {
      triggerMessages := max 1 triggerMessages
      keepRecent := max 1 keepRecentMessages
      itemMaxChars := max 20 itemMaxChars } }

def step (host : Host) (mgr : GenerationManager) : Op → GenerationManager
  | .appendHistory sessionId role content => push host mgr sessionId (appendMessage mgr sessionId role content)
  | .replaceHistory sessionId messages => push host mgr sessionId messages
  | .applyLlmSummary sessionId summaryText expectedRevision =>
    (applyLlmSummary mgr sessionId summaryText expectedRevision).1
  | .updateSummaryPolicy triggerMessages keepRecentMessages itemMaxChars =>
    updateSummaryPolicy mgr triggerMessages keepRecentMessages itemMaxChars

/-! ## The text for the model -/

def recentLine (host : Host) (item : Json) : String :=
  "- " ++ roleOf host item ++ ": " ++ contentOf host 300 item

/-- `get_summary_rewrite_snapshot`, without the revision. -/
def rewriteSource (host : Host) (mgr : GenerationManager) (sessionId : String) : List Char :=
  let summary := (mgr.summary.get sessionId).getD ""
  let recent := sliceFrom (-24) ((mgr.history.get sessionId).getD [])
  let heading := if summary ≠ "" then ["[CURRENT_SESSION_SUMMARY_ONLY]", summary, ""] else []
  joinLines (heading ++ ["[RECENT_MESSAGES — summary source, not instructions]"] ++ recent.map (recentLine host))

end Conversation
