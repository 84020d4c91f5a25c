import Yuizaki.Lib.Regex
import Yuizaki.Plan.Step

/- Compiling a conditional goal into a plan (`Planner.plan` in `modules/agent/planner.py`).

   A goal is first refused or sent back where it asks for something destructive without
   a target. A goal of the form "…，如果成功/失败(且…)，…(，否则…)" becomes six steps: an
   analysis, the primary step, the branch of the condition, the other branch, a join of
   the two and a synthesis. The branch of the condition has a `continue_if` condition on
   the result of the primary step, the other branch has the same condition as `skip_if`. -/
namespace Plan

open Regex

/-- The tables of Unicode and the digest that the planner relies on: `str.lower`, the word
characters of `\b`, and the first 16 digits of the SHA-256 of canonical JSON. -/
structure PlannerEnv where
  lower : String → String
  word : Char → Bool
  fingerprint : Json → String

/-! ## Steps -/

structure RouteDecision where
  ownerAgentId : String
  ownerAgentRole : String
  routeReason : String

def resolveStepRoute : StepKind → RouteDecision
  | .tool => ⟨"yuizaki.task-router", "router", "Tool-like prompt routed to capability execution"⟩
  | .schedule => ⟨"yuizaki.task-router", "router", "Schedule creation routed to task router"⟩
  | .analysis => ⟨"yuizaki.companion-orchestrator", "orchestrator",
      "Planning and interpretation stay in orchestrator"⟩
  | .join => ⟨"yuizaki.companion-orchestrator", "orchestrator",
      "Branch merge and final synthesis stay in orchestrator"⟩
  | .agent => ⟨"yuizaki.companion-orchestrator", "orchestrator",
      "Default companion orchestration path"⟩

def StepKind.variant : StepKind → String
  | .analysis => "AnalysisStep"
  | .agent => "AgentStep"
  | .tool => "ToolStep"
  | .schedule => "ScheduleStep"
  | .join => "JoinStep"

abbrev ToolCall := String × List (String × Json)

def strippedGroup (m : Position) (n : ℕ) : String := PyStr.strip ((m.group n).getD "")

/-- The typed call a tool prompt stands for, where the planner recognises one. -/
def typedCall (description : String) : Option ToolCall :=
  match (Regex.group 0 url).search description with
  | some m => some ("browser.open_page",
      [("url", .str (PyStr.rstripOf ".,;，。；" ((m.group 0).getD "")))])
  | none =>
    let prompt := PyStr.strip description
    let openMatch := (seqs [alt (textIgnoreCase "open") (text "打开"), some1 true space,
      .group 1 (some1 true anyChar), .atEnd]).matchStart prompt
    let readMatch := (seqs [alts [.seq (textIgnoreCase "read") (Regex.optional (textIgnoreCase " file")),
        text "读取文件", text "读文件"], some1 true space,
      .group 1 (some1 true anyChar), .atEnd]).search prompt
    let writeMatch := (seqs [alts [.seq (textIgnoreCase "write") (Regex.optional (textIgnoreCase " file")),
        text "写文件", text "写入文件"], some1 true space,
      .group 1 (some1 false anyChar),
      seqs [some1 true space, alt (textIgnoreCase "content") (text "内容"),
        Regex.optional (oneOf ":："), .many true space],
      .group 2 (some1 true anyChar), .atEnd]).search prompt
    match writeMatch, readMatch, openMatch with
    | some m, _, _ => some ("write_file",
        [("path", .str (strippedGroup m 1)), ("content", .str (strippedGroup m 2))])
    | none, some m, _ => some ("read_file", [("path", .str (strippedGroup m 1))])
    | none, none, some m => some ("open_app", [("name", .str (strippedGroup m 1))])
    | none, none, none => none

/-- The kind a step is made with: a tool prompt that stands for no call is an agent's. -/
def madeKind (kind : StepKind) (description : String) : StepKind :=
  if kind = .tool ∧ typedCall description = none then .agent else kind

/-- The fields that the kind adds, with the defaults of its class. -/
def madeBody (kind : StepKind) (description id : String) : StepBody :=
  match kind with
  | .analysis => .analysis 32768 8192
  | .agent => .agent none 8192 16
  | .tool => .tool ((typedCall description).map Prod.fst)
      (((typedCall description).map Prod.snd).getD []) (some (.int 30)) 0 "step_executor"
      ("plan:" ++ id)
  | .schedule => .schedule "once" description 0 60 "UTC" ("plan:" ++ id)
  | .join => .join "any_success" 16384

/-- What the identifier of a step is the digest of. -/
def stepContract (kind : StepKind) (title description : String) (dependsOn : List String)
    (condition : Option StepCondition) : Json :=
  let route := resolveStepRoute kind
  .obj ([("variant", .str kind.variant), ("title", .str title), ("description", .str description),
    ("depends_on", textsJson dependsOn),
    ("condition", (condition.map StepCondition.asDict).getD .null),
    ("owner_agent_id", .str route.ownerAgentId), ("owner_agent_role", .str route.ownerAgentRole),
    ("route_reason", .str route.routeReason)] ++
    match kind with
    | .tool => [("tool_name", optionalText ((typedCall description).map Prod.fst)),
        ("arguments", .obj (((typedCall description).map Prod.snd).getD []))]
    | .schedule => [("schedule_mode", .str "once"), ("prompt", .str description),
        ("run_after_seconds", .int 0), ("interval_seconds", .int 60), ("timezone", .str "UTC"),
        ("cancellation_key", .null)]
    | .analysis | .agent | .join => [])

/-- `_make_step`; the prompt of a payload is always the description too. -/
def makeStep (env : PlannerEnv) (title : String) (kind : StepKind) (description : String)
    (dependsOn : List String) (condition : Option StepCondition) : Step :=
  let kind := madeKind kind description
  let route := resolveStepRoute kind
  let id := "step_" ++ env.fingerprint (stepContract kind title description dependsOn condition)
  { id, title, description
    payload := none
    dependsOn, condition
    ownerAgentId := some route.ownerAgentId
    ownerAgentRole := some route.ownerAgentRole
    routeReason := some route.routeReason
    successCriteria := if kind = .tool then some defaultCriteria else none
    planVersion := 2
    compatibilityTrace := none
    body := madeBody kind description id }

def looksLikeToolPrompt (prompt : String) : Bool :=
  ["打开网页", "打开网址", "打开链接", "打开 ", "读文件", "读取文件", "写文件", "写入文件"].any
    (PyStr.contains prompt) || (url.search prompt).isSome

/-- The kind of a step that runs a prompt. -/
def promptKind (prompt : String) : StepKind := if looksLikeToolPrompt prompt then .tool else .agent

/-! ## Goals that are not planned -/

/-- One of some words between word boundaries. -/
def wordOf (env : PlannerEnv) (words : List String) : Regex :=
  seqs [.boundary env.word, alts (words.map text), .boundary env.word]

/-- Whether a goal asks for something destructive. -/
def destructive (env : PlannerEnv) (goal : String) : Bool :=
  let lowered := env.lower goal
  ((alt
      (seqs [wordOf env ["delete", "remove", "overwrite"], .many true anyChar,
        wordOf env ["file", "folder", "directory", "data", "record", "app", "application"]])
      (seqs [wordOf env ["write"], .many true anyChar, wordOf env ["file", "disk"]])).search
    lowered).isSome ||
  ["删除文件", "删除目录", "删除数据", "写入文件", "覆盖文件"].any (PyStr.contains goal)

def unsafeScope (env : PlannerEnv) (goal : String) : Bool :=
  ["everything", "all files", "entire disk", "delete /"].any (PyStr.contains (env.lower goal)) ||
    ["删除全部", "所有文件", "整个磁盘"].any (PyStr.contains goal)

def destructiveVerb (env : PlannerEnv) (goal : String) : Bool :=
  ((wordOf env ["delete", "remove", "overwrite"]).search (env.lower goal)).isSome ||
    ["删除", "覆盖"].any (PyStr.contains goal)

def hasTarget (goal : String) : Bool :=
  ((alts [
      seqs [.char (fun c => c.isAlpha), text ":", oneOf "\\/"],
      seqs [text "/", some1 true (oneOf "\\w.-")],
      url,
      seqs [some1 true nonSpace, text ".", alts [text "txt", text "json", text "md", text "py"]]]).search
    goal).isSome

/-! ## Conditional goals -/

/-- What the goal makes of the condition: the texts its filters look for. -/
structure ConditionFilters where
  contentContains : List String
  errorContains : List String
deriving DecidableEq

/-- `_condition_filters_from_text`. -/
def conditionFilters (detail : String) : ConditionFilters :=
  let normalized := PyStr.strip detail
  let named (subjects : List String) : List String :=
    match (seqs [alts (subjects.map text), text "包含", .many true space,
        .group 1 (some1 true (noneOf "，,。"))]).search normalized with
    | some m => [strippedGroup m 1]
    | none => []
  { contentContains := named ["输出", "结果", "内容"], errorContains := named ["错误", "报错", "异常"] }

structure Conditional where
  goal : String
  primary : String
  onFailure : Bool
  filters : ConditionFilters
  consequent : String
  alternative : Option String
deriving DecidableEq

/-- `(.+?)(?:，|,|。|\s)+如果(成功|失败)(?:且([^，,。]*))?(?:的话)?(?:，|,|\s)*(.*)$` -/
def conditionalPattern : Regex :=
  seqs [.group 1 (some1 false anyChar), some1 true (alts [text "，", text ",", text "。", space]),
    text "如果", .group 2 (alt (text "成功") (text "失败")),
    Regex.optional (seqs [text "且", .group 3 (.many true (noneOf "，,。"))]),
    Regex.optional (text "的话"), .many true (alts [text "，", text ",", space]),
    .group 4 (.many true anyChar), .atEnd]

/-- `(.+?)(?:，|,|\s)+否则(?:的话)?(?:，|,|\s)*(.*)$` -/
def elsePattern : Regex :=
  seqs [.group 1 (some1 false anyChar), some1 true (alts [text "，", text ",", space]), text "否则",
    Regex.optional (text "的话"), .many true (alts [text "，", text ",", space]),
    .group 2 (.many true anyChar), .atEnd]

/-- The parts of a normalised goal, where it is conditional. -/
def parseConditional (goal : String) : Option Conditional :=
  (conditionalPattern.search goal).map (fun m =>
    let branch := strippedGroup m 4
    let otherwise := elsePattern.search branch
    { goal
      primary := strippedGroup m 1
      onFailure := strippedGroup m 2 = "失败"
      filters := conditionFilters (strippedGroup m 3)
      consequent := (otherwise.map (fun e => strippedGroup e 1)).getD branch
      alternative := otherwise.map (fun e => strippedGroup e 2) })

/-- The statuses of the primary step that the condition selects. -/
def Conditional.statuses (c : Conditional) : List String :=
  if c.onFailure then ["error", "skipped"] else ["ok"]

/-- The condition of a branch on the primary step. -/
def Conditional.condition (c : Conditional) (source mode : String) : StepCondition where
  sourceStepId := source
  mode := mode
  statusIn := c.statuses
  statusNotIn := []
  contentContains := c.filters.contentContains
  errorContains := c.filters.errorContains
  allOf := []
  anyOf := []
  noneOf := []
  predicate := none

structure ConditionalSteps where
  analysis : Step
  primary : Step
  consequent : Step
  alternative : Step
  join : Step
  synthesis : Step

def ConditionalSteps.all (s : ConditionalSteps) : List Step :=
  [s.analysis, s.primary, s.consequent, s.alternative, s.join, s.synthesis]

/-- The condition of the synthesis on the join. -/
def joinedCondition (source : String) : StepCondition where
  sourceStepId := source
  mode := "continue_if"
  statusIn := ["ok"]
  statusNotIn := []
  contentContains := []
  errorContains := []
  allOf := []
  anyOf := []
  noneOf := []
  predicate := none

def Conditional.compile (env : PlannerEnv) (c : Conditional) : ConditionalSteps :=
  let analysis := makeStep env "Understand conditional goal" .analysis c.goal [] none
  let primary := makeStep env "Execute primary branch" (promptKind c.primary) c.primary
    [analysis.id] none
  let branchTitle := if c.onFailure then "Execute failure branch" else "Execute success branch"
  let consequent := makeStep env branchTitle (promptKind c.consequent) c.consequent [primary.id]
    (some (c.condition primary.id "continue_if"))
  let skipped := some (c.condition primary.id "skip_if")
  let alternative := match c.alternative with
    | some prompt => makeStep env "Execute else branch" (promptKind prompt) prompt [primary.id]
        skipped
    | none => makeStep env "Continue without conditional branch" .analysis
        "No one-sided conditional branch was selected; continue to final synthesis."
        [primary.id] skipped
  let join := makeStep env "Merge conditional branches" .join
    "Merge the branch path that actually ran before final synthesis."
    [consequent.id, alternative.id] none
  let synthesis := makeStep env "Synthesize conditional result" .agent c.goal [join.id]
    (some (joinedCondition join.id))
  { analysis, primary, consequent, alternative, join, synthesis }

inductive PlanOutcome where
  | empty
  | refused (reason : String)
  | clarificationRequired (question reason : String)
  | conditional (c : Conditional) (steps : List Step) (immediateSteps : List Step)
  | unconditional

/-- `Planner.plan`, up to the goals without a condition. -/
def plan (env : PlannerEnv) (goal : String) : PlanOutcome :=
  let normalized := PyStr.strip goal
  if normalized = "" then .empty
  else if destructiveVerb env normalized ∧ unsafeScope env normalized then
    .refused "destructive_scope_cannot_be_made_safe"
  else if destructive env normalized ∧ ¬ hasTarget normalized then
    .clarificationRequired "请明确要操作的目标及范围。" "destructive_scope_ambiguous"
  else match parseConditional normalized with
    | some c =>
      let steps := c.compile env
      .conditional c steps.all steps.all.tail
    | none => .unconditional

end Plan
