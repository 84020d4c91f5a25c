import Yuizaki.Lib.Run
import Yuizaki.Plan.Chain

/- The lanes that run a plan and the schedules they create.

   `execute_plan` runs a whole plan and compensates it, `resume_immediate_steps` runs the
   steps to retry, and the streaming execution stage runs three slices of a plan one after
   another: its analysis steps, its schedule steps, and the immediate ones
   (`execution_stage.py`). All of them take steps as `execute_immediate_steps` does. A
   schedule step registers a task with the scheduler; only `execute_plan` removes tasks
   again, one after another, and a removal may raise or be cancelled. -/
namespace Plan

open Transition

/-! ## Slices -/

inductive Lane where
  | plan
  | resume
  | streaming
deriving DecidableEq

/-- How a slice is run: the loops over analysis and schedule steps alone stop at nothing. -/
inductive SliceKind where
  | analysis
  | schedule
  | immediate
deriving DecidableEq

structure Slice where
  kind : SliceKind
  steps : List Step

/-- `requires_structured_immediate_execution`. -/
def requiresStructured (steps : List Step) : Bool :=
  steps.any (fun step => step.kind = .tool ∨ step.kind = .join ∨ step.condition.isSome = true) ∨
    1 < steps.length

/-- The immediate steps of a plan in the execution stage. -/
def immediateSteps (plan : List Step) : List Step :=
  plan.filter (fun step => step.kind ∈ [.agent, .tool, .join])

/-- The slices of `run_streaming`; `forced` is the context's `force_tool_loop`. What it does
with immediate steps that need no executor is no plan step. -/
def streamingSlices (runtime : Runtime) (forced : Bool) (plan : List Step) : List Slice :=
  let schedules := plan.filter (fun step => step.kind = .schedule)
  [⟨.analysis, plan.filter (fun step => step.kind = .analysis)⟩] ++
    (if schedules ≠ [] ∧ runtime.scheduler = true then [⟨.schedule, schedules⟩] else []) ++
    (if immediateSteps plan ≠ [] ∧
        (forced = true ∨ requiresStructured (immediateSteps plan) = true) then
      [⟨.immediate, immediateSteps plan⟩] else [])

/-! ## Running a lane -/

/-- A lane at work: the call under way and the slices to come, the tasks it registered that
are still there, the step and the task of every schedule it created, the schedules still to
remove once it compensates, and whether it has answered or raised. -/
structure LaneRun where
  lane : Lane
  run : PlanRun
  kind : SliceKind
  slices : List Slice
  tasks : List String
  created : List (String × String)
  undo : Option (List StepResult)
  done : Bool

def LaneRun.ofSlices (lane : Lane) (cap : Capability) (plan : List Step) (slices : List Slice) :
    LaneRun where
  lane := lane
  run := ⟨cap, plan, lane = .plan, [], [], none, none, false⟩
  kind := .analysis
  slices := slices
  tasks := []
  created := []
  undo := none
  done := false

def LaneRun.refused (lane : Lane) (plan : List Step) (message : String) : LaneRun :=
  let s := LaneRun.ofSlices lane (Capability.mint plan) plan []
  { s with run := { s.run with halt := some (.stopped ("invalid_plan:" ++ message)) }, done := true }

inductive LaneCall where
  | plan (steps : List Step)
  | resume (old : Capability) (steps : List Step) (failed : String)
  | streaming (forced : Bool) (steps : List Step)

/-- A lane as it is called: the plan is validated first, and a resume runs what is to be
retried. -/
def LaneCall.start (pre : Preflight) (runtime : Runtime) : LaneCall → LaneRun
  | .plan steps => match preflightPlan pre steps with
    | .error message => LaneRun.refused .plan steps message
    | .ok cap => LaneRun.ofSlices .plan cap steps [⟨.immediate, orderSteps steps⟩]
  | .resume old steps failed => match preflightPlan pre steps with
    | .error message => LaneRun.refused .resume steps message
    | .ok _ => LaneRun.ofSlices .resume (old.resume steps failed) steps
        [⟨.immediate, retrySlice old steps failed⟩]
  | .streaming forced steps => match preflightPlan pre steps with
    | .error message => LaneRun.refused .streaming steps message
    | .ok cap => LaneRun.ofSlices .streaming cap steps (streamingSlices runtime forced steps)

/-- The next slice begins. An immediate slice that is refused stops the lane, any other
raises. -/
def LaneRun.enter (runtime : Runtime) (s : LaneRun) (slice : Slice) (rest : List Slice) :
    LaneRun :=
  let run := { s.run with visits := [] }
  let s := { s with kind := slice.kind, slices := rest, run := run }
  if slice.kind = .immediate ∧ runtime.silent = true then
    { s with run := { run with halt := some (.stopped "silent_autonomy_mode") } }
  else if slice.steps = [] then s
  else match validateExecutionSlice s.run.capability slice.steps with
    | .error message =>
      if slice.kind = .immediate then
        { s with run := { run with halt := some (.stopped ("invalid_plan:" ++ message)) } }
      else { s with run := run.raise message }
    | .ok () =>
      if slice.kind = .schedule ∧ runtime.silent = true then s
      else { s with run := { run with todo := orderSteps slice.steps } }

/-- The record of a result: only an immediate slice may stop after it. -/
def LaneRun.settle (s : LaneRun) (step : Step) (choice : StepChoice) (result : StepResult) :
    LaneRun :=
  let run := s.run.settled step choice result
  { s with run := if s.kind = .immediate then run else { run with halt := none } }

/-- What `_execute_schedule_step` answers once the scheduler has taken the task. -/
def createdOutcome (taskId : String) : Outcome :=
  { status := "created", success := true, taskId := some taskId }

def scheduleRefusal (runtime : Runtime) : Outcome :=
  if runtime.scheduler = false then
    { status := "skipped", success := false, error := some "scheduler_not_available" }
  else { status := "error", success := false, error := some "unsupported_schedule_mode" }

/-- Whether the scheduler is asked for a task. -/
def asksScheduler (runtime : Runtime) (step : Step) : Bool :=
  match step.body with
  | .schedule mode _ _ _ _ _ => runtime.scheduler = true ∧ (mode = "once" ∨ mode = "interval")
  | _ => false

/-- The schedules `execute_plan` removes: what its ledger shows as created. -/
def createdSchedules (cap : Capability) (plan : List Step) : List StepResult :=
  ((ids plan).filterMap cap.ledger).filter
    (fun item => item.createdSchedule = true ∧ item.taskId.getD "" ≠ "")

def LaneRun.ended (s : LaneRun) : Prop :=
  s.run.running = none ∧ (s.run.halt ≠ none ∨ s.run.todo = [] ∧ s.slices = [])

inductive LaneEvent where
  | quiet
  | created (step : Step) (taskId : String)
  | removed (taskId : String)
  | stuck (taskId : String)

/-- One step of a lane that has not answered. -/
inductive LaneStep (runtime : Runtime) (s : LaneRun) : LaneEvent → LaneRun → Prop
  | enter {slice : Slice} {rest : List Slice} :
      s.done = false → s.run.running = none → s.run.halt = none → s.run.todo = [] →
      s.slices = slice :: rest →
      LaneStep runtime s .quiet (s.enter runtime slice rest)
  | claimed {step : Step} {rest : List Step} :
      s.done = false → s.run.running = none → s.run.halt = none → s.run.todo = step :: rest →
      s.run.capability.states step.id = .pending →
      LaneStep runtime s .quiet
        { s with run := s.run.claim step (choose runtime step s.run.capability.ledger) rest }
  | halted {message : String} :
      -- a claim is refused, an executor raises, or the lane is cancelled while it waits
      s.done = false → s.run.halt = none →
      LaneStep runtime s .quiet { s with run := s.run.raise message }
  | unavailable {step : Step} {reason : String} :
      s.done = false → s.run.running = some (step, .unavailable reason) →
      LaneStep runtime s .quiet { s with run := s.run.unavailable step reason }
  | worked {step : Step} {choice : StepChoice} {invoked outcome : Outcome} :
      s.done = false → s.run.running = some (step, choice) →
      choice.outcome step s.run.capability.ledger invoked = some outcome →
      (choice = .invoke → step.kind = .schedule →
        asksScheduler runtime step = false ∧ invoked = scheduleRefusal runtime) →
      LaneStep runtime s .quiet (s.settle step choice (settle step (step.result outcome)))
  | created {step : Step} {taskId : String} :
      s.done = false → s.run.running = some (step, .invoke) →
      asksScheduler runtime step = true → taskId ≠ "" → taskId ∉ s.created.map Prod.snd →
      LaneStep runtime s (.created step taskId)
        { s.settle step .invoke (settle step (step.result (createdOutcome taskId))) with
          tasks := taskId :: s.tasks, created := (step.id, taskId) :: s.created }
  | compensates {reason : String} :
      s.done = false → s.lane = .plan → s.ended → s.run.halt = some (.stopped reason) →
      s.undo = none →
      LaneStep runtime s .quiet
        { s with undo := some (createdSchedules s.run.capability s.run.plan) }
  | removed {item : StepResult} {rest : List StepResult} :
      s.done = false → s.undo = some (item :: rest) →
      LaneStep runtime s (.removed (item.taskId.getD ""))
        { s with
          run := s.run.compensate item
          tasks := s.tasks.filter (fun t => t ≠ item.taskId.getD "")
          undo := some rest }
  | stuck {item : StepResult} {rest : List StepResult} :
      s.done = false → s.undo = some (item :: rest) →
      LaneStep runtime s (.stuck (item.taskId.getD "")) { s with done := true }
  | answered :
      s.done = false → s.ended →
      (s.lane = .plan → ∀ reason, s.run.halt = some (.stopped reason) → s.undo = some []) →
      LaneStep runtime s .quiet { s with done := true }

/-! ## What a lane owes -/

/-- The results a lane reports: a streaming lane those of its last slice, the others those
of the ledger. -/
def LaneRun.reported (s : LaneRun) : List StepResult :=
  if s.lane = .streaming then s.run.visits.reverse.filterMap Visit.result
  else (ids s.run.plan).filterMap s.run.capability.ledger

/-- No schedule of the run is registered, and the reported results mark exactly the steps
that created one as rolled back. -/
def LaneRun.Compensated (s : LaneRun) : Prop :=
  s.tasks = [] ∧ ∀ id, (∃ r ∈ s.reported, r.stepId = id ∧ r.kind = .schedule ∧
    r.status = "rolled_back") ↔ ∃ taskId, (id, taskId) ∈ s.created

/-- What compensation rests on: a schedule is only created by `execute_plan` and meets its
step's success criteria, and every removal succeeds. -/
def LaneEvent.inOrder (lane : Lane) : LaneEvent → Prop
  | .created step taskId =>
    lane = .plan ∧ meetsCriteria step (step.result (createdOutcome taskId)) = true
  | .stuck _ => False
  | _ => True

end Plan
