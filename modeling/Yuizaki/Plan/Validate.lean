import Yuizaki.Lib.Deps
import Yuizaki.Lib.Fallible
import Yuizaki.Plan.Step
import Mathlib.Algebra.Ring.Int.Defs
import Mathlib.Algebra.Ring.Rat

/- Validating a plan (`validate_plan` in `modules/agent/planner.py`) and ordering its
   steps (`_order_steps` in `modules/agent/step_executor.py`).

   Every check of `validate_plan` is one `ensure`, in the source's order and with its
   message. What the executor relies on is collected in `Validated`: identifiers are
   unique and not empty, every dependency names a step, and the steps can be ordered so
   that each comes after its dependencies, which the depth-first search for cycles
   establishes. -/
namespace Plan

open Deps Fallible

/-- Raise the message unless the condition holds. -/
def ensure (c : Prop) [Decidable c] (message : String) : Except String Unit :=
  if c then .ok () else .error message

theorem ensure_bind {α : Type} {c : Prop} [Decidable c] {message : String}
    {f : Unit → Except String α} {a : α} :
    (ensure c message >>= f) = .ok a ↔ c ∧ f () = .ok a := by
  unfold ensure
  by_cases h : c
  · rw [if_pos h]
    exact ⟨fun hf => ⟨h, hf⟩, fun hf => hf.2⟩
  · rw [if_neg h]
    exact ⟨fun hf => (nomatch hf), fun hf => absurd hf.1 h⟩

/-- The `repr` of a text without quotes or backslashes. -/
def quoted (s : String) : String := "'" ++ s ++ "'"

/-! ## Limits -/

structure PlanLimits where
  maxSteps : ℕ := 32
  maxRetryBudget : ℤ := 8
  maxTimeoutSeconds : ℚ := 900
  maxAnalysisInputChars : ℤ := 262144
  maxAnalysisOutputChars : ℤ := 65536
  maxAgentTokens : ℤ := 65536
  maxAgentCapabilityBudget : ℤ := 128
  maxScheduleSeconds : ℤ := 31536000
  maxJoinChars : ℤ := 131072

structure StepCost where
  retries : ℤ := 0
  timeout : ℚ := 0
  analysisInput : ℤ := 0
  analysisOutput : ℤ := 0
  agentTokens : ℤ := 0
  agentCapabilities : ℤ := 0
  scheduleSeconds : ℤ := 0
  joinChars : ℤ := 0

def StepBody.cost : StepBody → StepCost
  | .analysis maxInputChars maxOutputChars =>
    { analysisInput := maxInputChars, analysisOutput := maxOutputChars }
  | .agent _ maxTokens capabilityBudget =>
    { agentTokens := maxTokens, agentCapabilities := capabilityBudget }
  | .tool _ _ timeoutSeconds retryBudget _ _ =>
    { retries := retryBudget, timeout := (timeoutSeconds.map PyNumber.value).getD 0 }
  | .schedule scheduleMode _ runAfterSeconds intervalSeconds _ _ =>
    { scheduleSeconds := if scheduleMode = "once" then runAfterSeconds else intervalSeconds }
  | .join _ maxMergedChars => { joinChars := maxMergedChars }

def total {α : Type} [Add α] [Zero α] (f : StepCost → α) (steps : List Step) : α :=
  (steps.map (fun step => f step.body.cost)).sum

/-! ## Checks of one step -/

def predicateOperators : List String :=
  ["status_in", "status_not_in", "content_contains", "error_contains", "all", "any", "none"]

def combinators : List String := ["all", "any", "none"]

mutual

def validatePredicate (path : String) (known : List String) (implicit : Bool) :
    Predicate → Except String Unit
  | ⟨op, source, values, children⟩ => do
    ensure (op ∈ predicateOperators) (path ++ ".op is not allow-listed: " ++ quoted op)
    if op ∈ combinators then
      ensure (source = none ∧ values = [])
        (path ++ " combinators cannot contain source_step_id or values")
      ensure (children.isEmpty = false) (path ++ ".children must be a non-empty list")
    else
      ensure (children.isEmpty = true) (path ++ " leaf predicates cannot contain children")
      ensure (source.getD "" ≠ "" ∨ implicit = true) (path ++ ".source_step_id is required")
      ensure (values ≠ []) (path ++ ".values must be non-empty")
      ensure (source.getD "" = "" ∨ source.getD "" ∈ known)
        (path ++ " references unknown step " ++ source.getD "")
    validatePredicates path known implicit 0 children

/-- `_validate_predicate` of each child. -/
def validatePredicates (path : String) (known : List String) (implicit : Bool) :
    ℕ → List Predicate → Except String Unit
  | _, [] => .ok ()
  | index, p :: rest => do
    validatePredicate (path ++ ".children[" ++ toString index ++ "]") known implicit p
    validatePredicates path known implicit (index + 1) rest

end

def retryOwners : List String := ["step_executor", "provider", "tool_adapter", "none"]

def notBlank (s : String) : Prop := PyStr.strip s ≠ ""

instance (s : String) : Decidable (notBlank s) := inferInstanceAs (Decidable (_ ≠ _))

/-- The checks of what its kind adds to the step at `index`. `knownZone` tells the time
zones there are. -/
def checkBody (knownZone : String → Bool) (place : String) (step : Step) :
    Except String Unit :=
  match step.body with
  | .tool toolName _ timeoutSeconds retryBudget retryOwner idempotencyKey => do
    ensure (∀ name ∈ toolName, notBlank name) (place ++ ".tool_name must be a non-empty string")
    ensure (0 ≤ retryBudget) (place ++ ".retry_budget must be a non-negative integer")
    ensure (∀ t ∈ timeoutSeconds, 0 < t.value)
      (place ++ ".timeout_seconds must be a finite positive number")
    if 2 ≤ step.planVersion then
      ensure (toolName.getD "" ≠ "") (place ++ ".tool_name is required for typed tool steps")
      ensure (timeoutSeconds.isSome = true)
        (place ++ ".timeout_seconds is required for typed tool steps")
      ensure (notBlank retryOwner) (place ++ ".retry_owner is required")
      ensure (retryOwner ∈ retryOwners)
        (place ++ ".retry_owner is unsupported: " ++ quoted retryOwner)
      ensure (notBlank idempotencyKey) (place ++ ".idempotency_key must be a non-empty string")
      ensure (step.successCriteria.isSome = true) (place ++ ".success_criteria is required")
    else .ok ()
  | .analysis maxInputChars maxOutputChars => do
    ensure (0 < maxInputChars) (place ++ ".max_input_chars must be a positive integer")
    ensure (0 < maxOutputChars) (place ++ ".max_output_chars must be a positive integer")
    .ok ()
  | .agent model maxTokens capabilityBudget => do
    ensure (∀ name ∈ model, notBlank name) (place ++ ".model must be a non-empty string")
    ensure (0 < maxTokens) (place ++ ".max_tokens must be a positive integer")
    ensure (0 < capabilityBudget) (place ++ ".capability_budget must be a positive integer")
    .ok ()
  | .schedule scheduleMode _ runAfterSeconds intervalSeconds timezone cancellationKey => do
    ensure (scheduleMode ∈ ["once", "interval"])
      (place ++ ".schedule_mode is unsupported: " ++ quoted scheduleMode)
    ensure (0 ≤ runAfterSeconds)
      (place ++ ".run_after_seconds must be a non-negative integer")
    ensure (0 < intervalSeconds) (place ++ ".interval_seconds must be a positive integer")
    ensure (timezone = "UTC" ∨ knownZone timezone = true)
      (place ++ ".timezone is invalid: " ++ quoted timezone)
    ensure (notBlank cancellationKey) (place ++ ".cancellation_key is required")
    .ok ()
  | .join mergePolicy maxMergedChars => do
    ensure (mergePolicy ∈ ["any_success", "all_success"])
      (place ++ ".merge_policy is unsupported: " ++ quoted mergePolicy)
    ensure (0 < maxMergedChars) (place ++ ".max_merged_chars must be a positive integer")
    .ok ()

/-- The first loop: each step by itself, and its identifier against those before it. -/
def checkSteps (knownZone : String → Bool) : ℕ → List String → List Step → Except String Unit
  | _, _, [] => .ok ()
  | index, ids, step :: rest => do
    let place := "steps[" ++ toString index ++ "]"
    ensure (step.id ≠ "" ∧ step.id ∉ ids) (place ++ ".id must be unique and non-empty")
    ensure ("" ∉ step.dependsOn) (place ++ ".depends_on contains an invalid id")
    checkBody knownZone place step
    checkSteps knownZone (index + 1) (step.id :: ids) rest

/-! ## References -/

/-- The success criteria of a step, which speak of that step. -/
def checkCriteria (step : Step) : Except String Unit :=
  match step.successCriteria with
  | some criteria =>
    validatePredicate ("step " ++ step.id ++ ".success_criteria") [step.id] true criteria
  | none => .ok ()

def checkDependencies (ids : List String) (step : Step) : Except String Unit :=
  match step.dependsOn.find? (fun d => d ∉ ids) with
  | some dep => .error ("step " ++ step.id ++ " depends on unknown step " ++ dep)
  | none => .ok ()

def checkCondition (ids : List String) (step : Step) : Except String Unit :=
  match step.condition with
  | some condition => do
    ensure (condition.mode ∈ ["continue_if", "skip_if"])
      ("step " ++ step.id ++ " has unsupported condition mode")
    match condition.toPredicate with
    | some predicate =>
      validatePredicate ("step " ++ step.id ++ ".condition.predicate") ids false predicate
    | none => .error ("step " ++ step.id ++ " condition has no predicate")
  | none => .ok ()

def checkReferences (ids : List String) : List Step → Except String Unit
  | [] => .ok ()
  | step :: rest => do
    checkCriteria step
    checkDependencies ids step
    checkCondition ids step
    checkReferences ids rest

/-! ## Cycles -/

def ids (steps : List Step) : List String := steps.map Step.id

/-- The dependencies of a step of the plan. -/
def dependencies (steps : List Step) (id : String) : Option (List String) :=
  (steps.find? (fun step => step.id = id)).map Step.dependsOn

/-- The search for a cycle, from every step in turn. -/
def checkAcyclic (steps : List Step) : Except String (List String) :=
  match (ids steps).foldlM (visit (dependencies steps) steps.length []) [] with
  | .ok visited => .ok visited
  | .error id => .error ("dependency cycle detected at " ++ id)

/-! ## The whole check -/

def checkBudget {α : Type} [LE α] [DecidableLE α] [ToString α] (name : String)
    (spent budget : α) : Except String Unit :=
  ensure (spent ≤ budget) ("plan exceeds " ++ name ++ " budget (" ++ toString spent ++ " > " ++
    toString budget ++ ")")

def checkBudgets (limits : PlanLimits) (steps : List Step) : Except String Unit := do
  checkBudget "retry" (total StepCost.retries steps) limits.maxRetryBudget
  checkBudget "timeout" (total StepCost.timeout steps) limits.maxTimeoutSeconds
  checkBudget "analysis input" (total StepCost.analysisInput steps) limits.maxAnalysisInputChars
  checkBudget "analysis output" (total StepCost.analysisOutput steps)
    limits.maxAnalysisOutputChars
  checkBudget "agent token" (total StepCost.agentTokens steps) limits.maxAgentTokens
  checkBudget "agent capability" (total StepCost.agentCapabilities steps)
    limits.maxAgentCapabilityBudget
  checkBudget "schedule bounds" (total StepCost.scheduleSeconds steps) limits.maxScheduleSeconds
  checkBudget "join merge" (total StepCost.joinChars steps) limits.maxJoinChars

def validatePlan (knownZone : String → Bool) (limits : PlanLimits) (steps : List Step) :
    Except String Unit := do
  checkBudget "step" steps.length limits.maxSteps
  checkSteps knownZone 0 [] steps
  checkReferences (ids steps) steps
  let _ ← checkAcyclic steps
  checkBudgets limits steps

def orderSteps (steps : List Step) : List Step := order Step.id Step.dependsOn steps

/-- What the executor relies on in a plan. -/
structure Validated (steps : List Step) : Prop where
  nodup : (ids steps).Nodup
  nonempty : ∀ step ∈ steps, step.id ≠ ""
  known : ∀ step ∈ steps, ∀ d ∈ step.dependsOn, d ∈ ids steps
  ordered : ReadyOrder Step.id Step.dependsOn (ids steps) [] (orderSteps steps)

theorem checkSteps_ids {knownZone : String → Bool} {index : ℕ} {seen : List String}
    {steps : List Step} (h : checkSteps knownZone index seen steps = .ok ()) :
    (ids steps).Nodup ∧ (∀ id ∈ ids steps, id ∉ seen) ∧ ∀ step ∈ steps, step.id ≠ "" := by
  induction steps generalizing index seen with
  | nil => exact ⟨List.nodup_nil, fun id hid => (nomatch hid), fun step hstep => (nomatch hstep)⟩
  | cons step rest ih =>
    unfold checkSteps at h
    dsimp only at h
    rw [ensure_bind, ensure_bind, bind_ok] at h
    obtain ⟨⟨hempty, hnew⟩, -, -, -, hrest⟩ := h
    obtain ⟨hnodup, hdisjoint, hnonempty⟩ := ih hrest
    refine ⟨?_, ?_, ?_⟩
    · have hfresh : step.id ∉ ids rest :=
        fun hmem => hdisjoint step.id hmem List.mem_cons_self
      exact List.nodup_cons.mpr ⟨hfresh, hnodup⟩
    · intro id hid
      rcases List.mem_cons.mp hid with rfl | hid
      · exact hnew
      · exact fun hseen => hdisjoint id hid (List.mem_cons_of_mem _ hseen)
    · intro s hs
      rcases List.mem_cons.mp hs with rfl | hs
      · exact hempty
      · exact hnonempty s hs

theorem checkDependencies_known {known : List String} {step : Step}
    (h : checkDependencies known step = .ok ()) : ∀ d ∈ step.dependsOn, d ∈ known := by
  intro d hd
  by_contra hunknown
  unfold checkDependencies at h
  split at h
  · cases h
  · rename_i hfind
    exact List.find?_eq_none.mp hfind d hd (decide_eq_true hunknown)

theorem checkReferences_known {known : List String} {steps : List Step}
    (h : checkReferences known steps = .ok ()) :
    ∀ step ∈ steps, ∀ d ∈ step.dependsOn, d ∈ known := by
  induction steps with
  | nil => exact fun step hstep => (nomatch hstep)
  | cons step rest ih =>
    unfold checkReferences at h
    obtain ⟨_, -, h⟩ := bind_ok.mp h
    obtain ⟨_, hdeps, h⟩ := bind_ok.mp h
    obtain ⟨_, -, hrest⟩ := bind_ok.mp h
    intro s hs
    rcases List.mem_cons.mp hs with rfl | hs
    · exact checkDependencies_known hdeps
    · exact ih hrest s hs

theorem find_step {steps : List Step} {step : Step} (hnodup : (ids steps).Nodup) (hstep : step ∈ steps) :
    steps.find? (fun s => s.id = step.id) = some step := by
  induction steps with
  | nil => cases hstep
  | cons s rest ih =>
    obtain ⟨hnew, hrest⟩ := List.nodup_cons.mp hnodup
    rcases List.mem_cons.mp hstep with rfl | hmem
    · exact List.find?_cons_of_pos (by simp)
    · have hne : s.id ≠ step.id := by
        intro heq
        exact hnew (heq ▸ List.mem_map.mpr ⟨step, hmem, rfl⟩)
      rw [List.find?_cons_of_neg (by simpa using hne)]
      exact ih hrest hmem

theorem dependencies_step {steps : List Step} (hnodup : (ids steps).Nodup) {step : Step}
    (hstep : step ∈ steps) : dependencies steps step.id = some step.dependsOn := by
  unfold dependencies
  rw [find_step hnodup hstep]
  rfl

theorem checkAcyclic_settled {steps : List Step} {visited : List String}
    (h : checkAcyclic steps = .ok visited) :
    Settled (dependencies steps) visited ∧
      ∀ id ∈ ids steps, (dependencies steps id).isSome → id ∈ visited := by
  unfold checkAcyclic at h
  split at h
  · rename_i hfold
    cases h
    have hnil : Settled (dependencies steps) [] := trivial
    obtain ⟨hsettled, -, hall⟩ :=
      foldlM_settled (fun d v v' hv hd => visit_settled hv hd) hnil hfold
    exact ⟨hsettled, hall⟩
  · cases h

theorem validatePlan_ok {knownZone : String → Bool} {limits : PlanLimits} {steps : List Step}
    (h : validatePlan knownZone limits steps = .ok ()) : Validated steps := by
  unfold validatePlan at h
  obtain ⟨_, -, h⟩ := bind_ok.mp h
  obtain ⟨_, hsteps, h⟩ := bind_ok.mp h
  obtain ⟨_, hrefs, h⟩ := bind_ok.mp h
  obtain ⟨visited, hvisited, -⟩ := bind_ok.mp h
  obtain ⟨hnodup, -, hnonempty⟩ := checkSteps_ids hsteps
  obtain ⟨hsettled, hall⟩ := checkAcyclic_settled hvisited
  refine ⟨hnodup, hnonempty, checkReferences_known hrefs, ?_⟩
  refine ready_order (fun step hstep => dependencies_step hnodup hstep) hsettled ?_
  intro step hstep
  refine hall step.id (List.mem_map.mpr ⟨step, hstep, rfl⟩) ?_
  rw [dependencies_step hnodup hstep]
  rfl

end Plan
