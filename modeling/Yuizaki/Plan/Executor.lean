import Mathlib.Logic.Function.Basic
import Yuizaki.Plan.Validate

/- Executing a plan (`execute_immediate_steps`, `resume_immediate_steps` and
   `execute_plan` in `modules/agent/step_executor.py`).

   The loop takes the steps in order. `choose` is what it does with the next one on the
   results so far: hold it back because a predecessor is not completed, skip it because
   its condition does not hold, work it out itself (analysis and join steps), or invoke
   the executor of its kind. An executor is a function `invoke` of the step and the
   results before it. `settle` applies the success criteria to a result and `stopAfter`
   decides whether the loop goes on. A capability is the validated plan with the ledger
   of results and the state of each step. -/
namespace Plan

open Deps

/-! ## Conditions -/

def conditionMatches (step : Step) (ledger : Ledger) : Bool :=
  match step.condition with
  | none => true
  | some condition =>
    match condition.toPredicate with
    | none => false
    | some predicate =>
      if condition.mode = "skip_if" then !evaluatePredicate ledger none predicate
      else evaluatePredicate ledger none predicate

mutual

/-- The sources of the leaves that hold of a result that is not completed. -/
def failureLeaves (ledger : Ledger) : Predicate → List String
  | ⟨op, source, values, children⟩ =>
    let below := failureLeavesList ledger children
    let id := source.getD ""
    if op ∈ combinators then below
    else if id ≠ "" ∧ (ledger id).any (fun r => !r.completed) ∧
        evaluatePredicate ledger none ⟨op, source, values, children⟩ then [id]
    else []

/-- The same of each predicate of a list. -/
def failureLeavesList (ledger : Ledger) : List Predicate → List String
  | [] => []
  | p :: rest => failureLeaves ledger p ++ failureLeavesList ledger rest

end

def matchedFailureSources (step : Step) (ledger : Ledger) : List String :=
  match step.condition with
  | none => []
  | some condition =>
    if condition.mode ≠ "continue_if" then []
    else match condition.toPredicate with
      | none => []
      | some predicate =>
        if evaluatePredicate ledger none predicate then failureLeaves ledger predicate else []

mutual

/-- `_predicate_references_source`. -/
def Predicate.references (id : String) : Predicate → Bool
  | ⟨_, source, _, children⟩ => source = some id || childrenReference id children

/-- The same of any predicate of a list. -/
def childrenReference (id : String) : List Predicate → Bool
  | [] => false
  | p :: rest => p.references id || childrenReference id rest

end

/-- `_has_result_handler`: a later step has a condition about this one that holds. -/
def hasResultHandler (result : StepResult) (remaining : List Step) (ledger : Ledger) : Bool :=
  let probe : Ledger := Function.update ledger result.stepId (some result)
  remaining.any (fun candidate =>
    (candidate.condition.bind StepCondition.toPredicate).any
      (fun predicate => predicate.references result.stepId) &&
    conditionMatches candidate probe)

/-! ## Results the executor makes itself -/

/-- `_skipped_condition_result`. -/
def skippedCondition : Outcome :=
  { status := "skipped", success := false, error := some "condition_not_met" }

/-- `_blocked_predecessor_result`. -/
def blockedPredecessor (predecessors : List String) : Outcome :=
  { status := "skipped", success := false
    error := some ("predecessor_not_completed: " ++ ", ".intercalate predecessors) }

/-- `_analysis_result`. -/
def analysisOutcome (description : String) (maxInputChars maxOutputChars : ℤ) : Outcome :=
  let boundedInput := PyStr.textPrefix maxInputChars.toNat description
  { status := "ok", success := true
    content := some (PyStr.textPrefix maxOutputChars.toNat boundedInput) }

/-- Whether a join counts a branch as completed. -/
def StepResult.succeeded (result : StepResult) : Bool :=
  result.status ∈ ["ok", "created"] ∨ result.success = true

/-- `_join_result`: the status and the error. -/
def joinStatus (mergePolicy : String) (missing : List String) (branches : List StepResult) :
    String × Option String :=
  let completed := branches.filter StepResult.succeeded
  let skipped := branches.any (fun r => r.status = "skipped")
  let failed := branches.any (fun r => r.status = "error" ∨ r.success = false)
  if missing ≠ [] then
    ("skipped", some ("join_dependencies_missing: " ++ ", ".intercalate missing))
  else if mergePolicy = "all_success" then
    if branches ≠ [] ∧ completed.length = branches.length then ("ok", none)
    else if failed then ("error", some "join_branch_failed")
    else ("skipped", some "not_all_join_branches_completed")
  else if completed ≠ [] then ("ok", none)
  else if failed ∧ !skipped then ("error", some "all_join_branches_failed")
  else ("skipped", some "no_join_branch_completed")

/-- `_join_result`. -/
def joinOutcome (dependsOn : List String) (mergePolicy : String) (maxMergedChars : ℤ)
    (ledger : Ledger) : Outcome :=
  let branches := dependsOn.filterMap ledger
  let missing := dependsOn.filter (fun d => (ledger d).isNone)
  let verdict := joinStatus mergePolicy missing branches
  let parts := branches.map (fun r => r.stepId ++ ":" ++ r.status)
  { status := verdict.1, success := verdict.1 = "ok", error := verdict.2
    content := if parts = [] then none
      else some (PyStr.textPrefix maxMergedChars.toNat ("; ".intercalate parts)) }

/-! ## One step of the loop -/

structure Runtime where
  silent : Bool
  toolRegistry : Bool
  toolExecutor : Bool
  scheduler : Bool

inductive StepChoice where
  | blocked (predecessors : List String)
  | skipped
  | analysis (maxInputChars maxOutputChars : ℤ)
  | join (mergePolicy : String) (maxMergedChars : ℤ)
  | invoke
  | unavailable (reason : String)
deriving DecidableEq

/-- The dependencies that hold a step back. -/
def blockedPredecessors (step : Step) (ledger : Ledger) : List String :=
  step.dependsOn.filter (fun d => !ledger.completed d ∧ d ∉ matchedFailureSources step ledger)

/-- Whether a step runs an executor: a predecessor that is not completed holds it back. -/
def StepKind.needsPredecessors : StepKind → Bool
  | .agent | .tool | .schedule => true
  | .analysis | .join => false

/-- What the loop does with a step that is not held back or skipped. -/
def StepBody.choice (runtime : Runtime) : StepBody → StepChoice
  | .analysis maxInputChars maxOutputChars => .analysis maxInputChars maxOutputChars
  | .join mergePolicy maxMergedChars => .join mergePolicy maxMergedChars
  | .tool .. => .invoke
  | .schedule .. => .invoke
  | .agent .. =>
    if runtime.toolRegistry = false then .unavailable "tool_registry_not_available"
    else if runtime.toolExecutor = false then .unavailable "tool_executor_not_available"
    else .invoke

/-- What the loop does with the next step. -/
def choose (runtime : Runtime) (step : Step) (ledger : Ledger) : StepChoice :=
  if step.kind.needsPredecessors = true ∧ blockedPredecessors step ledger ≠ [] then
    .blocked (blockedPredecessors step ledger)
  else if conditionMatches step ledger = false then .skipped
  else step.body.choice runtime

/-- The outcome of a choice, given the executor's; none where there is no executor. -/
def StepChoice.outcome (step : Step) (ledger : Ledger) (invoked : Outcome) :
    StepChoice → Option Outcome
  | .blocked predecessors => some (blockedPredecessor predecessors)
  | .skipped => some skippedCondition
  | .analysis maxInputChars maxOutputChars =>
    some (analysisOutcome step.description maxInputChars maxOutputChars)
  | .join mergePolicy maxMergedChars =>
    some (joinOutcome step.dependsOn mergePolicy maxMergedChars ledger)
  | .invoke => some invoked
  | .unavailable _ => none

/-- The statuses the success criteria leave alone. -/
def uncheckedStatuses : List String :=
  ["skipped", "permission_required", "permission_denied", "unknown_effect"]

/-- Whether a result of the step meets the success criteria. -/
def meetsCriteria (step : Step) (result : StepResult) : Bool :=
  step.successCriteria.all (fun criteria =>
    evaluatePredicate (fun id => if id = step.id then some result else none) (some result)
      criteria)

/-- A result that does not meet the criteria. -/
def StepResult.failCriteria (result : StepResult) : StepResult :=
  { result with
    status := "error", success := false
    error := some (if result.error.getD "" = "" then "success_criteria_not_met"
      else result.error.getD "") }

/-- The result as `_record_validated_result` records it. -/
def settle (step : Step) (result : StepResult) : StepResult :=
  if result.status ∉ uncheckedStatuses ∧ meetsCriteria step result = false then
    result.failCriteria
  else result

/-- Whether the loop stops after the executor of a step, and the reason. -/
def stopAfter (step : Step) (result : StepResult) (remaining : List Step) (ledger : Ledger) :
    Option String :=
  let handled := hasResultHandler result remaining ledger
  let unhandled := "unhandled_step_error:" ++ step.id
  match step.kind with
  | .schedule => if result.status = "error" ∧ !handled then some unhandled else none
  | .tool =>
    if result.status = "unknown_effect" then some "unknown_effect"
    else if result.status = "error" ∧ !handled then some unhandled
    else if result.status ∈ ["permission_required", "permission_denied"] ∧ !handled then
      some result.status
    else none
  | .agent =>
    if result.status ∈ ["permission_required", "permission_denied", "unknown_effect"] then
      some result.status
    else none
  | .analysis | .join => none

/-! ## Capabilities -/

/-- The state of a step under a capability. -/
inductive StepState where
  | pending
  | running
  | terminal
deriving DecidableEq

/-- A validated plan with its ledger and the states of its steps. -/
structure Capability where
  steps : List Step
  ledger : Ledger
  states : String → StepState

/-- A capability as `preflight_plan` mints it. -/
def Capability.mint (steps : List Step) : Capability where
  steps := steps
  ledger := fun _ => none
  states := fun _ => .pending

/-- `_claim_step`, where the step is pending. -/
def Capability.claim (cap : Capability) (id : String) : Capability :=
  { cap with states := Function.update cap.states id .running }

/-- `_record_validated_result` of a settled result. -/
def Capability.record (cap : Capability) (result : StepResult) : Capability :=
  { cap with
    ledger := Function.update cap.ledger result.stepId (some result)
    states := Function.update cap.states result.stepId .terminal }

/-- What `preflight_plan` checks; `gate` is the registry and the policy. -/
structure Preflight where
  knownZone : String → Bool
  limits : PlanLimits
  gate : List Step → Except String Unit

def preflightPlan (pre : Preflight) (steps : List Step) : Except String Capability := do
  validatePlan pre.knownZone pre.limits steps
  pre.gate steps
  .ok (Capability.mint steps)

/-- The dependencies outside a slice that are not completed. -/
def missingProof (cap : Capability) (slice : List Step) (step : Step) : List String :=
  step.dependsOn.filter (fun d => d ∉ ids slice ∧ cap.ledger.completed d = false)

def validateExecutionSlice (cap : Capability) (slice : List Step) : Except String Unit :=
  if ¬ ∀ id ∈ ids slice, id ∈ ids cap.steps then
    .error "execution slice is not part of the validated plan"
  else match slice.find? (fun step =>
      (cap.steps.find? (fun s => s.id = step.id)).map Step.toDict ≠ some step.toDict) with
    | some step => .error ("step " ++ step.id ++ " changed after plan validation")
    | none => match slice.find? (fun step => missingProof cap slice step ≠ []) with
      | some step => .error ("step " ++ step.id ++ " lacks completed predecessor proof: [" ++
          ", ".intercalate ((missingProof cap slice step).map quoted) ++ "]")
      | none => .ok ()

/-! ## The loop -/

/-- One step taken by the loop: what was chosen and, where there is one, the recorded
result. -/
structure Visit where
  step : Step
  choice : StepChoice
  result : Option StepResult

/-- How a loop ended before its last step: a reason, or a claim that was refused. -/
inductive Halt where
  | stopped (reason : String)
  | raised (message : String)
deriving DecidableEq

/-- The loop's variables; the newest visit comes first. -/
structure LoopState where
  capability : Capability
  visits : List Visit
  halt : Option Halt

def LoopState.results (st : LoopState) : List StepResult :=
  st.visits.reverse.filterMap Visit.result

/-- What an executor makes of a step after the results before it. -/
abbrev Invoke := Step → List StepResult → Outcome

/-- The state after a step with an outcome: its settled result is recorded, and the loop
may stop. -/
def LoopState.recorded (st : LoopState) (step : Step) (choice : StepChoice) (outcome : Outcome)
    (rest : List Step) : LoopState :=
  let result := settle step (step.result outcome)
  let capability := (st.capability.claim step.id).record result
  let stop := if choice = .invoke then stopAfter step result rest capability.ledger else none
  { capability, visits := ⟨step, choice, some result⟩ :: st.visits
    halt := stop.map Halt.stopped }

/-- One turn of the loop of `execute_immediate_steps`. -/
def takeStep (runtime : Runtime) (invoke : Invoke) (step : Step) (rest : List Step)
    (st : LoopState) : LoopState :=
  if st.capability.states step.id ≠ .pending then
    { st with halt := some (.raised ("step " ++ step.id ++ " replay is forbidden")) }
  else
    let choice := choose runtime step st.capability.ledger
    match choice, choice.outcome step st.capability.ledger (invoke step st.results) with
    | _, some outcome => st.recorded step choice outcome rest
    | .unavailable reason, none =>
      { capability := st.capability.claim step.id, visits := ⟨step, choice, none⟩ :: st.visits
        halt := some (.stopped reason) }
    | _, none => st

/-- The loop of `execute_immediate_steps`. -/
def runLoop (runtime : Runtime) (invoke : Invoke) : List Step → LoopState → LoopState
  | [], st => st
  | step :: rest, st =>
    let next := takeStep runtime invoke step rest st
    if next.halt = none then runLoop runtime invoke rest next else next

/-- The statuses of a result that can be the failure of a run. -/
def failureStatuses : List String :=
  ["error", "permission_required", "permission_denied", "unknown_effect"]

/-- What `execute_immediate_steps` answers. -/
structure Execution where
  capability : Capability
  visits : List Visit
  halt : Option Halt
  error : Option String

/-- `execute_immediate_steps` on a slice of the capability's plan. -/
def executeImmediate (runtime : Runtime) (invoke : Invoke) (cap : Capability)
    (slice : List Step) : Execution :=
  if runtime.silent then
    { capability := cap, visits := [], halt := some (.stopped "silent_autonomy_mode")
      error := none }
  else if slice.isEmpty then { capability := cap, visits := [], halt := none, error := none }
  else match validateExecutionSlice cap slice with
    | .error message =>
      { capability := cap, visits := [], halt := some (.stopped ("invalid_plan:" ++ message))
        error := some ("invalid_plan:" ++ message) }
    | .ok () =>
      let st := runLoop runtime invoke (orderSteps slice)
        { capability := cap, visits := [], halt := none }
      { capability := st.capability, visits := st.visits, halt := st.halt, error := none }

/-- The failure a stopped run reports: its last result with a failure status. -/
def Execution.failure (e : Execution) : Option StepResult :=
  match e.halt with
  | some (.stopped _) =>
    (e.visits.filterMap Visit.result).find? (fun r => r.status ∈ failureStatuses)
  | _ => none

/-- `_failure_for_result`: a failure is retryable when its status is an error. -/
def StepResult.retryable (result : StepResult) : Bool :=
  result.status ∉ ["permission_required", "permission_denied", "unknown_effect"]

/-- The failed step a resume token is issued for. -/
def Execution.recoverable (e : Execution) : Option String :=
  e.failure.bind (fun r => if r.retryable then some r.stepId else none)

/-! ## Compensation -/

/-- A schedule a stopped run has created. -/
def StepResult.createdSchedule (result : StepResult) : Bool :=
  result.kind = .schedule ∧ result.status = "created" ∧ result.success = true

def rolledBack (taskId : Option String) : Outcome :=
  { status := "rolled_back", success := false, taskId }

/-- The record of a schedule that is removed again. -/
def StepResult.rollback (item : StepResult) : StepResult :=
  { rolledBack item.taskId with stepId := item.stepId, kind := .schedule }

/-- `rollback_schedule_results`; `remove` is whether the scheduler removes a task, and a
removal that raises ends the rollback. -/
def rollbackSchedules (remove : String → Bool) : List StepResult → Capability → Capability
  | [], cap => cap
  | item :: rest, cap =>
    let task := item.taskId.getD ""
    if task = "" then rollbackSchedules remove rest cap
    else if remove task then rollbackSchedules remove rest (cap.record item.rollback)
    else cap

def executePlan (pre : Preflight) (runtime : Runtime) (invoke : Invoke) (remove : String → Bool)
    (plan : List Step) : Except String Execution := do
  let cap ← preflightPlan pre plan
  let e := executeImmediate runtime invoke cap (orderSteps plan)
  let created := (e.visits.reverse.filterMap Visit.result).filter StepResult.createdSchedule
  match e.halt with
  | some (.stopped _) =>
    if runtime.scheduler then
      .ok { e with capability := rollbackSchedules remove created e.capability }
    else .ok e
  | _ => .ok e

/-! ## Resuming -/

def retryClosure (steps : List Step) (failed : String) : List String :=
  closure Step.id Step.dependsOn steps [failed]

/-- The steps a ledger shows as rolled back. -/
def rolledBackIds (steps : List Step) (ledger : Ledger) : List String :=
  (ids steps).filter (fun id => (ledger id).any (fun r => r.status = "rolled_back"))

def retryIds (steps : List Step) (ledger : Ledger) (failed : String) : List String :=
  retryClosure steps failed ++ (rolledBackIds steps ledger).flatMap (retryClosure steps)

/-- The capability a resume runs under: the ledger without the steps to run again, which
alone are pending. -/
def Capability.resume (old : Capability) (steps : List Step) (failed : String) : Capability where
  steps := steps
  ledger := fun id => if id ∈ retryIds steps old.ledger failed then none else old.ledger id
  states := fun id =>
    if id ∈ retryIds steps old.ledger failed then .pending
    else if id ∈ ids steps then .terminal else .pending

def retrySlice (old : Capability) (steps : List Step) (failed : String) : List Step :=
  (orderSteps steps).filter (fun step => step.id ∈ retryIds steps old.ledger failed)

/-- `resume_immediate_steps`, once the token is consumed. -/
def resumeSteps (pre : Preflight) (runtime : Runtime) (invoke : Invoke) (old : Capability)
    (steps : List Step) (failed : String) : Except String Execution := do
  ensure (failed ∈ ids steps) ("failed step is not in plan: " ++ failed)
  let _ ← preflightPlan pre steps
  .ok (executeImmediate runtime invoke (old.resume steps failed) (retrySlice old steps failed))

end Plan
