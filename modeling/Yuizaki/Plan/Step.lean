import Yuizaki.Lib.Json
import Yuizaki.Lib.PyStr

/- Plan steps, their conditions and their results (`modules/agent/planner.py`,
   `StepResultRecord` in `modules/agent/models.py`).

   A plan is a list of typed steps; a step names the steps it depends on, may carry a
   condition on other steps' results, and may carry success criteria for its own.
   Conditions and criteria are data: `evaluatePredicate` reads them against the results
   so far. `Step.toDict` is the step as it is fingerprinted and hashed. -/
namespace Plan

/-! ## Predicates and conditions -/

/-- `PredicateNode`. -/
structure Predicate where
  op : String
  sourceStepId : Option String
  values : List String
  children : List Predicate

structure StepCondition where
  sourceStepId : String
  mode : String
  statusIn : List String
  statusNotIn : List String
  contentContains : List String
  errorContains : List String
  allOf : List StepCondition
  anyOf : List StepCondition
  noneOf : List StepCondition
  predicate : Option Predicate

/-- The leaf of a condition field, where the field is not empty. -/
def conditionLeaf (op source : String) (values : List String) : List Predicate :=
  if values = [] then [] else [⟨op, some source, values, []⟩]

/-- The node of nested conditions, where there are any; those without a predicate drop
out of it. -/
def conditionNode (op : String) (nested : List (Option Predicate)) : List Predicate :=
  if nested = [] then [] else [⟨op, none, [], nested.filterMap id⟩]

def conditionRoot : List Predicate → Option Predicate
  | [] => none
  | [child] => some child
  | children => some ⟨"all", none, [], children⟩

mutual

def StepCondition.toPredicate : StepCondition → Option Predicate
  | ⟨source, _, statusIn, statusNotIn, content, error, allOf, anyOf, noneOf, predicate⟩ =>
    match predicate with
    | some predicate => some predicate
    | none => conditionRoot
        (conditionLeaf "status_in" source statusIn ++
          conditionLeaf "status_not_in" source statusNotIn ++
          conditionLeaf "content_contains" source content ++
          conditionLeaf "error_contains" source error ++
          conditionNode "all" (toPredicates allOf) ++
          conditionNode "any" (toPredicates anyOf) ++
          conditionNode "none" (toPredicates noneOf))

/-- `to_predicate` of each condition of a list. -/
def toPredicates : List StepCondition → List (Option Predicate)
  | [] => []
  | c :: rest => c.toPredicate :: toPredicates rest

end

/-! ## Steps -/

/-- A Python number: `int` or finite `float`. -/
inductive PyNumber where
  | int (n : ℤ)
  | float (q : ℚ)

def PyNumber.value : PyNumber → ℚ
  | .int n => n
  | .float q => q

inductive StepKind where
  | analysis
  | agent
  | tool
  | schedule
  | join
deriving DecidableEq

def StepKind.text : StepKind → String
  | .analysis => "analysis"
  | .agent => "agent"
  | .tool => "tool"
  | .schedule => "schedule"
  | .join => "join"

inductive StepBody where
  | analysis (maxInputChars maxOutputChars : ℤ)
  | agent (model : Option String) (maxTokens capabilityBudget : ℤ)
  | tool (toolName : Option String) (arguments : List (String × Json))
      (timeoutSeconds : Option PyNumber) (retryBudget : ℤ) (retryOwner : String)
      (idempotencyKey : String)
  | schedule (scheduleMode prompt : String) (runAfterSeconds intervalSeconds : ℤ)
      (timezone cancellationKey : String)
  | join (mergePolicy : String) (maxMergedChars : ℤ)

def StepBody.kind : StepBody → StepKind
  | .analysis .. => .analysis
  | .agent .. => .agent
  | .tool .. => .tool
  | .schedule .. => .schedule
  | .join .. => .join

structure Step where
  id : String
  title : String
  description : String
  payload : Option (List (String × Json))
  dependsOn : List String
  condition : Option StepCondition
  ownerAgentId : Option String
  ownerAgentRole : Option String
  routeReason : Option String
  successCriteria : Option Predicate
  planVersion : ℤ
  compatibilityTrace : Option (List (String × Json))
  body : StepBody

def Step.kind (step : Step) : StepKind := step.body.kind

/-- The criteria a tool step is given where it has none. -/
def defaultCriteria : Predicate := ⟨"status_in", none, ["ok", "created"], []⟩

/-! ## Steps as dictionaries -/

def textsJson (values : List String) : Json := .arr (values.map .str)

/-- A text or `None`. -/
def optionalText : Option String → Json
  | some s => .str s
  | none => .null

/-- An object or `None`. -/
def optionalObject : Option (List (String × Json)) → Json
  | some kvs => .obj kvs
  | none => .null

def PyNumber.json : PyNumber → Json
  | .int n => .int n
  | .float q => .num q

mutual

/-- `PredicateNode.to_dict`: empty fields are left out. -/
def Predicate.toDict : Predicate → Json
  | ⟨op, source, values, children⟩ =>
    .obj ([("op", .str op)] ++
      (if source.getD "" = "" then [] else [("source_step_id", .str (source.getD ""))]) ++
      (if values = [] then [] else [("values", textsJson values)]) ++
      (if children.isEmpty then [] else [("children", .arr (predicateDicts children))]))

/-- `to_dict` of each predicate of a list. -/
def predicateDicts : List Predicate → List Json
  | [] => []
  | p :: rest => p.toDict :: predicateDicts rest

end

mutual

/-- `asdict` of a predicate: every field. -/
def Predicate.asDict : Predicate → Json
  | ⟨op, source, values, children⟩ =>
    .obj [("op", .str op), ("source_step_id", optionalText source),
      ("values", textsJson values), ("children", .arr (predicateAsDicts children))]

/-- `asdict` of each predicate of a list. -/
def predicateAsDicts : List Predicate → List Json
  | [] => []
  | p :: rest => p.asDict :: predicateAsDicts rest

end

mutual

/-- `asdict` of a condition. -/
def StepCondition.asDict : StepCondition → Json
  | ⟨source, mode, statusIn, statusNotIn, content, error, allOf, anyOf, noneOf, predicate⟩ =>
    .obj [("source_step_id", .str source), ("mode", .str mode),
      ("status_in", textsJson statusIn), ("status_not_in", textsJson statusNotIn),
      ("content_contains", textsJson content), ("error_contains", textsJson error),
      ("all_of", .arr (conditionDicts allOf)), ("any_of", .arr (conditionDicts anyOf)),
      ("none_of", .arr (conditionDicts noneOf)),
      ("predicate", (predicate.map Predicate.asDict).getD .null)]

/-- `asdict` of each condition of a list. -/
def conditionDicts : List StepCondition → List Json
  | [] => []
  | c :: rest => c.asDict :: conditionDicts rest

end

/-- The fields a body adds to the dictionary. -/
def StepBody.fields : StepBody → List (String × Json)
  | .analysis maxInputChars maxOutputChars =>
    [("max_input_chars", .int maxInputChars), ("max_output_chars", .int maxOutputChars)]
  | .agent model maxTokens capabilityBudget =>
    [("model", optionalText model), ("max_tokens", .int maxTokens),
      ("capability_budget", .int capabilityBudget)]
  | .tool toolName arguments timeoutSeconds retryBudget retryOwner idempotencyKey =>
    [("tool_name", optionalText toolName), ("arguments", .obj arguments),
      ("timeout_seconds", (timeoutSeconds.map PyNumber.json).getD .null),
      ("retry_budget", .int retryBudget), ("retry_owner", .str retryOwner),
      ("idempotency_key", .str idempotencyKey)]
  | .schedule scheduleMode prompt runAfterSeconds intervalSeconds timezone cancellationKey =>
    [("schedule_mode", .str scheduleMode), ("prompt", .str prompt),
      ("run_after_seconds", .int runAfterSeconds), ("interval_seconds", .int intervalSeconds),
      ("timezone", .str timezone), ("cancellation_key", .str cancellationKey)]
  | .join mergePolicy maxMergedChars =>
    [("merge_policy", .str mergePolicy), ("max_merged_chars", .int maxMergedChars)]

/-- `to_dict` of a typed step. -/
def Step.toDict (step : Step) : Json :=
  .obj ([("id", .str step.id), ("title", .str step.title), ("kind", .str step.kind.text),
    ("description", .str step.description), ("payload", optionalObject step.payload),
    ("depends_on", textsJson step.dependsOn),
    ("condition", (step.condition.map StepCondition.asDict).getD .null),
    ("owner_agent_id", optionalText step.ownerAgentId),
    ("owner_agent_role", optionalText step.ownerAgentRole),
    ("route_reason", optionalText step.routeReason),
    ("success_criteria", (step.successCriteria.map Predicate.toDict).getD .null),
    ("plan_version", .int step.planVersion),
    ("compatibility_trace", optionalObject step.compatibilityTrace)] ++ step.body.fields)

/-! ## Results -/

/-- What running a step yields: the fields of a `StepResultRecord` that later decisions
read. The status of an agent step is whatever its tool loop reports, so it is a text. -/
structure Outcome where
  status : String
  success : Bool
  content : Option String := none
  error : Option String := none
  replyPreview : Option String := none
  taskId : Option String := none
deriving DecidableEq

/-- `StepResultRecord`. -/
structure StepResult extends Outcome where
  stepId : String
  kind : StepKind
deriving DecidableEq

def Step.result (step : Step) (outcome : Outcome) : StepResult :=
  { outcome with stepId := step.id, kind := step.kind }

abbrev Ledger := String → Option StepResult

/-- `_result_is_completed`. -/
def StepResult.completed (result : StepResult) : Bool :=
  result.success ∧ result.status ∈ ["ok", "created"]

/-- `_result_is_completed` of what a ledger holds for a step. -/
def Ledger.completed (ledger : Ledger) (id : String) : Bool := (ledger id).any (·.completed)

def StepResult.dependencyText (result : StepResult) : String :=
  "\n".intercalate
    ([result.content, result.replyPreview].filterMap id |>.filter (fun s => s ≠ ""))

/-- A leaf of a predicate, on the result it is about. -/
def evaluateLeaf (op : String) (values : List String) (result : StepResult) : Bool :=
  if op = "status_in" then result.status ∈ values
  else if op = "status_not_in" then result.status ∉ values
  else if op = "content_contains" then
    values.all (fun item => PyStr.contains result.dependencyText item)
  else if op = "error_contains" then
    values.all (fun item => PyStr.contains (result.error.getD "") item)
  else false

mutual

/-- `_evaluate_predicate`; a leaf without a source is about `default`. -/
def evaluatePredicate (ledger : Ledger) (default : Option StepResult) : Predicate → Bool
  | ⟨op, source, values, children⟩ =>
    let holds := evaluatePredicates ledger default children
    if op = "all" then holds.all id
    else if op = "any" then holds.any id
    else if op = "none" then !holds.any id
    else
      let result := if source.getD "" = "" then default else ledger (source.getD "")
      result.any (evaluateLeaf op values)

/-- `_evaluate_predicate` of each predicate of a list. -/
def evaluatePredicates (ledger : Ledger) (default : Option StepResult) :
    List Predicate → List Bool
  | [] => []
  | p :: rest => evaluatePredicate ledger default p :: evaluatePredicates ledger default rest

end

end Plan
