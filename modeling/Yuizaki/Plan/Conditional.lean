import Yuizaki.Plan.Planner
import Yuizaki.Plan.Resume

/- Running a conditional plan.

   The two branches have one predicate between them: one is run if it holds of the
   result of the primary step and the other if it does not. The executor holds a step
   back while a dependency is not completed, and lifts that only for a `continue_if`
   condition that the dependency's failure matches. The branch of the condition is
   therefore run wherever the predicate holds, and the other branch only where the
   primary step is completed or the branch is the planner's own analysis step
   (`conditional_follows`). -/
namespace Plan

open Deps Fallible

variable {runtime : Runtime} {invoke : Invoke} {step other : Step} {rest : List Step}
  {st : LoopState} {ledger : Ledger} {result : StepResult} {c : Conditional}

/-! ## What a branch does -/

/-- The choice works the step out or invokes its executor. -/
def StepChoice.executed : StepChoice → Bool
  | .analysis .. | .join .. | .invoke => true
  | .blocked _ | .skipped | .unavailable _ => false

def Executed (visits : List Visit) (step : Step) : Prop :=
  ∃ v ∈ visits, v.step = step ∧ v.choice.executed = true

/-- The texts the filters look for are there. -/
def ConditionFilters.hold (filters : ConditionFilters) (result : StepResult) : Bool :=
  filters.contentContains.all (PyStr.contains result.dependencyText) &&
    filters.errorContains.all (PyStr.contains (result.error.getD ""))

/-- The predicate of both branches holds of a result of the primary step. -/
def Conditional.selects (c : Conditional) (result : StepResult) : Bool :=
  result.status ∈ c.statuses ∧ c.filters.hold result = true

/-- The branch for a primary step that succeeds. -/
def ConditionalSteps.success (steps : ConditionalSteps) (c : Conditional) : Step :=
  if c.onFailure then steps.alternative else steps.consequent

/-- The branch for a primary step that fails. -/
def ConditionalSteps.failure (steps : ConditionalSteps) (c : Conditional) : Step :=
  if c.onFailure then steps.consequent else steps.alternative

/-- The primary step ended with success or with an error. -/
def Ended (result : StepResult) : Prop :=
  (result.status = "ok" ∧ result.success = true) ∨ result.status = "error"

/-- Exactly one branch is executed, the one that the end of the primary step calls for. -/
def FollowsPrimary (steps : ConditionalSteps) (c : Conditional) (visits : List Visit)
    (result : StepResult) : Prop :=
  (Executed visits (steps.success c) ↔ result.status = "ok") ∧
    (Executed visits (steps.failure c) ↔ result.status = "error")

/-- The context has what the step needs to be executed. -/
def Runtime.runs (runtime : Runtime) (step : Step) : Prop :=
  step.kind = .agent → runtime.toolRegistry = true ∧ runtime.toolExecutor = true

/-- Where a plan follows its goal: after a success the goal is about failure or its
filters hold; after an error the goal is about failure and its filters hold, or it is
about success and names no other branch. -/
def Agrees (steps : ConditionalSteps) (c : Conditional) (runtime : Runtime)
    (result : StepResult) : Prop :=
  if result.status = "ok" then
    (c.onFailure = true ∨ c.filters.hold result = true) ∧ runtime.runs (steps.success c)
  else
    (if c.onFailure then c.filters.hold result = true else c.alternative = none) ∧
      runtime.runs (steps.failure c)

/-! ## The predicate of the branches -/

theorem evaluate_leaf {op source : String} {values : List String} (hop : op ∉ combinators)
    (hsource : source ≠ "") : evaluatePredicate ledger none ⟨op, some source, values, []⟩ =
      (ledger source).any (evaluateLeaf op values) := by
  simp only [combinators, List.mem_cons, not_or] at hop
  obtain ⟨hall, hany, hnone, -⟩ := hop
  rw [evaluatePredicate]
  simp only [if_neg hall, if_neg hany, if_neg hnone, Option.getD_some, if_neg hsource]

theorem failureLeaves_leaf {op source : String} {values : List String} (hop : op ∉ combinators)
    (hsource : source ≠ "") (hresult : ledger source = some result)
    (hfailed : result.completed = false) (hleaf : evaluateLeaf op values result = true) :
    failureLeaves ledger ⟨op, some source, values, []⟩ = [source] := by
  rw [failureLeaves]
  simp only [if_neg hop, Option.getD_some]
  rw [if_pos]
  refine ⟨hsource, ?_, ?_⟩
  · rw [hresult]
    simpa using hfailed
  · rw [evaluate_leaf hop hsource, hresult]
    exact hleaf

/-- The leaf on the status, which every condition of a branch has. -/
def Conditional.statusLeaf (c : Conditional) (source : String) : Predicate :=
  ⟨"status_in", some source, c.statuses, []⟩

def ConditionFilters.leaves (filters : ConditionFilters) (source : String) : List Predicate :=
  conditionLeaf "content_contains" source filters.contentContains ++
    conditionLeaf "error_contains" source filters.errorContains

theorem condition_mode (source mode : String) : (c.condition source mode).mode = mode := rfl

theorem condition_leaves (source mode : String) : (c.condition source mode).toPredicate =
    conditionRoot (c.statusLeaf source :: c.filters.leaves source) := by
  have hstatuses : c.statuses ≠ [] := by
    unfold Conditional.statuses
    split <;> exact List.cons_ne_nil _ _
  have hleaf : conditionLeaf "status_in" source c.statuses = [c.statusLeaf source] :=
    if_neg hstatuses
  unfold Conditional.condition
  rw [StepCondition.toPredicate]
  rw [hleaf, toPredicates]
  simp only [conditionNode, conditionLeaf, if_true, List.append_nil, List.cons_append, List.nil_append, ConditionFilters.leaves]

theorem evaluate_statusLeaf {source : String} (hsource : source ≠ "")
    (hresult : ledger source = some result) :
    evaluatePredicate ledger none (c.statusLeaf source) = (result.status ∈ c.statuses : Bool) := by
  unfold Conditional.statusLeaf
  rw [evaluate_leaf (by decide) hsource, hresult]
  rfl

theorem evaluate_leaves {filters : ConditionFilters} {source : String} (hsource : source ≠ "")
    (hresult : ledger source = some result) :
    (evaluatePredicates ledger none (filters.leaves source)).all id = filters.hold result := by
  have hone : ∀ (op : String) (values : List String), op ∉ combinators →
      (values = [] → evaluateLeaf op values result = true) →
      (evaluatePredicates ledger none (conditionLeaf op source values)).all id =
        evaluateLeaf op values result := by
    intro op values hop hnil
    unfold conditionLeaf
    split
    · rename_i hempty
      rw [hnil hempty]
      rfl
    · rw [evaluatePredicates, evaluate_leaf hop hsource, hresult]
      simp [evaluatePredicates]
  have happend : ∀ ps qs : List Predicate, evaluatePredicates ledger none (ps ++ qs) =
      evaluatePredicates ledger none ps ++ evaluatePredicates ledger none qs := by
    intro ps qs
    induction ps with
    | nil => rfl
    | cons p rest ih => rw [List.cons_append, evaluatePredicates, evaluatePredicates, ih,
        List.cons_append]
  unfold ConditionFilters.leaves
  rw [happend, List.all_append, hone _ _ (by decide), hone _ _ (by decide)]
  · rfl
  · intro hnil
    rw [hnil]
    rfl
  · intro hnil
    rw [hnil]
    rfl

/-- What the executor reads off the condition of a branch: whether it holds, that it is
about the primary step, and that it matches a failure it holds of. -/
theorem condition_spec {source : String} (mode : String) (hsource : source ≠ "") :
    ∃ p, (c.condition source mode).toPredicate = some p ∧ p.references source = true ∧
      ∀ (ledger : Ledger) (result : StepResult), ledger source = some result →
        evaluatePredicate ledger none p = c.selects result ∧
        (c.selects result = true → result.completed = false →
          source ∈ failureLeaves ledger p) := by
  have hstatus : ∀ (ledger : Ledger) (result : StepResult), ledger source = some result →
      (result.status ∈ c.statuses : Bool) = true → result.completed = false →
      failureLeaves ledger (c.statusLeaf source) = [source] := fun ledger result hresult hin hfailed =>
    failureLeaves_leaf (by decide) hsource hresult hfailed hin
  rw [condition_leaves]
  cases hleaves : c.filters.leaves source with
  | nil =>
    refine ⟨c.statusLeaf source, rfl, ?_, ?_⟩
    · simp [Conditional.statusLeaf, Predicate.references]
    · intro ledger result hresult
      have hhold : c.filters.hold result = true := by
        rw [← evaluate_leaves hsource hresult, hleaves]
        rfl
      have hselects : c.selects result = (result.status ∈ c.statuses : Bool) := by
        unfold Conditional.selects
        simp [hhold]
      rw [evaluate_statusLeaf hsource hresult, hselects]
      refine ⟨rfl, fun hin hfailed => ?_⟩
      rw [hstatus ledger result hresult hin hfailed]
      exact List.mem_singleton_self _
  | cons q qs =>
    refine ⟨⟨"all", none, [], c.statusLeaf source :: q :: qs⟩, rfl, ?_, ?_⟩
    · simp [Conditional.statusLeaf, Predicate.references, childrenReference]
    · intro ledger result hresult
      have hhold := @evaluate_leaves _ _ c.filters _ hsource hresult
      rw [hleaves] at hhold
      have hselects : c.selects result =
          ((result.status ∈ c.statuses : Bool) && c.filters.hold result) := by
        unfold Conditional.selects
        simp
      constructor
      · rw [evaluatePredicate, evaluatePredicates, hselects, ← hhold]
        dsimp only
        rw [if_pos rfl, List.all_cons, id, evaluate_statusLeaf hsource hresult]
      · intro hselected hfailed
        rw [hselects, Bool.and_eq_true] at hselected
        rw [failureLeaves, if_pos (by decide), failureLeavesList,
          hstatus ledger result hresult hselected.1 hfailed]
        exact List.mem_cons_self

/-! ## What the loop chooses for a branch -/

theorem StepBody.choice_executed (body : StepBody) (runtime : Runtime) :
    (body.choice runtime).executed = true ↔
      (body.kind = .agent → runtime.toolRegistry = true ∧ runtime.toolExecutor = true) := by
  cases body with
  | agent =>
    simp only [StepBody.choice, StepBody.kind, forall_const]
    cases runtime.toolRegistry <;> cases runtime.toolExecutor <;> simp [StepChoice.executed]
  | analysis | tool | schedule | join => simp [StepBody.choice, StepBody.kind, StepChoice.executed]

theorem blockedPredecessors_single {source : String} (hdeps : step.dependsOn = [source]) :
    blockedPredecessors step ledger = [] ↔
      ledger.completed source = true ∨ source ∈ matchedFailureSources step ledger := by
  unfold blockedPredecessors
  rw [hdeps, List.filter_eq_nil_iff]
  simp only [List.mem_singleton, forall_eq, decide_eq_true_eq, not_and_or, not_not,
    Bool.not_eq_true, Bool.not_eq_false']

theorem branch_matches {source mode : String} (hsource : source ≠ "")
    (hcondition : step.condition = some (c.condition source mode))
    (hresult : ledger source = some result) :
    (step.condition.bind StepCondition.toPredicate).any (Predicate.references source) = true ∧
      conditionMatches step ledger =
        if mode = "skip_if" then !c.selects result else c.selects result := by
  obtain ⟨p, hp, hreferences, hspec⟩ := condition_spec (c := c) mode hsource
  obtain ⟨hevaluate, -⟩ := hspec ledger result hresult
  unfold conditionMatches
  rw [hcondition, Option.bind_some, hp]
  dsimp only
  rw [condition_mode, hp]
  dsimp only
  rw [hevaluate]
  exact ⟨hreferences, rfl⟩

theorem choose_consequent {source : String} (hsource : source ≠ "")
    (hdeps : step.dependsOn = [source])
    (hcondition : step.condition = some (c.condition source "continue_if"))
    (hresult : ledger source = some result) :
    (choose runtime step ledger).executed = true ↔ c.selects result = true ∧ runtime.runs step := by
  obtain ⟨p, hp, -, hspec⟩ := condition_spec (c := c) "continue_if" hsource
  obtain ⟨hevaluate, hmatched⟩ := hspec ledger result hresult
  have hmatches : conditionMatches step ledger = c.selects result :=
    (branch_matches hsource hcondition hresult).2
  have hcompleted : ledger.completed source = result.completed := by
    unfold Ledger.completed
    rw [hresult]
    rfl
  unfold choose
  rw [hmatches]
  cases hselects : c.selects result with
  | false =>
    split
    · simp [StepChoice.executed]
    · simp [StepChoice.executed]
  | true =>
    have hfree : blockedPredecessors step ledger = [] := by
      rw [blockedPredecessors_single hdeps, hcompleted]
      cases hdone : result.completed with
      | true => exact Or.inl rfl
      | false =>
        right
        unfold matchedFailureSources
        rw [hcondition]
        dsimp only
        rw [condition_mode, if_neg (not_not_intro rfl), hp]
        dsimp only
        rw [if_pos (hevaluate.trans hselects)]
        exact hmatched hselects hdone
    rw [if_neg (fun h => h.2 hfree), if_neg (fun h => by cases h), step.body.choice_executed]
    exact ⟨fun h => ⟨rfl, h⟩, fun h => h.2⟩

/-- The other branch is executed where the predicate does not hold, and the primary step
is completed or the branch does not wait for it. -/
theorem choose_alternative {source : String} (hsource : source ≠ "")
    (hdeps : step.dependsOn = [source])
    (hcondition : step.condition = some (c.condition source "skip_if"))
    (hresult : ledger source = some result) :
    (choose runtime step ledger).executed = true ↔ c.selects result = false ∧
      (result.completed = true ∨ step.kind.needsPredecessors = false) ∧ runtime.runs step := by
  have hmatches : conditionMatches step ledger = !c.selects result :=
    (branch_matches hsource hcondition hresult).2
  -- only a `continue_if` condition can lift the wait for a failed dependency
  have hunmatched : matchedFailureSources step ledger = [] := by
    unfold matchedFailureSources
    rw [hcondition]
    dsimp only
    rw [condition_mode]
    exact if_pos (by decide)
  have hblocked : blockedPredecessors step ledger = [] ↔ result.completed = true := by
    rw [blockedPredecessors_single hdeps, hunmatched]
    unfold Ledger.completed
    rw [hresult]
    simp
  unfold choose
  rw [hmatches]
  by_cases hwaits : step.kind.needsPredecessors = true ∧ blockedPredecessors step ledger ≠ []
  · rw [if_pos hwaits]
    have hincomplete : result.completed ≠ true := fun hdone => hwaits.2 (hblocked.mpr hdone)
    simp [StepChoice.executed, hincomplete, hwaits.1]
  · have hready : result.completed = true ∨ step.kind.needsPredecessors = false := by
      rw [← hblocked]
      by_cases hnil : blockedPredecessors step ledger = []
      · exact Or.inl hnil
      · exact Or.inr (Bool.eq_false_iff.mpr (fun hneeds => hwaits ⟨hneeds, hnil⟩))
    rw [if_neg hwaits]
    cases hselects : c.selects result with
    | true => simp [StepChoice.executed]
    | false =>
      rw [if_neg (by decide), step.body.choice_executed]
      exact ⟨fun h => ⟨rfl, hready, h⟩, fun h => h.2.2⟩

/-! ## One turn of the loop, again -/

theorem takeStep_visits {v : Visit} (hv : v ∈ (takeStep runtime invoke step rest st).visits) :
    v ∈ st.visits ∨ v.step = step := by
  rcases takeStep_cases runtime invoke step rest st with
    ⟨-, _, heq⟩ | ⟨_, -, -, heq⟩ | ⟨_, -, -, heq⟩
  · rw [heq] at hv
    exact Or.inl hv
  · rw [heq] at hv
    rcases List.mem_cons.mp hv with rfl | hv
    · exact Or.inr rfl
    · exact Or.inl hv
  · rw [heq] at hv
    rcases List.mem_cons.mp hv with rfl | hv
    · exact Or.inr rfl
    · exact Or.inl hv

theorem runLoop_visits {steps : List Step} {v : Visit}
    (hv : v ∈ (runLoop runtime invoke steps st).visits) : v ∈ st.visits ∨ v.step ∈ steps := by
  induction steps generalizing st with
  | nil => exact Or.inl hv
  | cons step rest ih =>
    have hturn : v ∈ (takeStep runtime invoke step rest st).visits →
        v ∈ st.visits ∨ v.step ∈ step :: rest := by
      intro hmem
      rcases takeStep_visits hmem with hold | rfl
      · exact Or.inl hold
      · exact Or.inr List.mem_cons_self
    unfold runLoop at hv
    dsimp only at hv
    split at hv
    · rcases ih hv with hmem | hmem
      · exact hturn hmem
      · exact Or.inr (List.mem_cons_of_mem _ hmem)
    · exact hturn hv

theorem takeStep_visit (runtime : Runtime) (invoke : Invoke) (rest : List Step)
    (hpending : st.capability.states step.id = .pending) :
    ∃ result, (takeStep runtime invoke step rest st).visits =
      ⟨step, choose runtime step st.capability.ledger, result⟩ :: st.visits := by
  rcases takeStep_cases runtime invoke step rest st with
    ⟨hnot, -⟩ | ⟨reason, -, hchoice, heq⟩ | ⟨outcome, -, -, heq⟩
  · exact absurd hpending hnot
  · rw [heq, hchoice]
    exact ⟨none, rfl⟩
  · rw [heq]
    exact ⟨_, rfl⟩

theorem visits_head (hrest : step ∉ rest) {v : Visit} (hv : v.step = step) :
    v ∈ (runLoop runtime invoke (step :: rest) st).visits ↔
      v ∈ (takeStep runtime invoke step rest st).visits := by
  unfold runLoop
  dsimp only
  split
  · constructor
    · intro hmem
      rcases runLoop_visits hmem with hmem | hmem
      · exact hmem
      · exact absurd (hv ▸ hmem) hrest
    · exact mem_runLoop
  · exact Iff.rfl

theorem executed_head (hpending : st.capability.states step.id = .pending)
    (hfresh : ∀ v ∈ st.visits, v.step ≠ step) (hrest : step ∉ rest) :
    Executed (runLoop runtime invoke (step :: rest) st).visits step ↔
      (choose runtime step st.capability.ledger).executed = true := by
  obtain ⟨result, hvisits⟩ := takeStep_visit runtime invoke rest hpending
  constructor
  · intro h
    obtain ⟨v, hv, hstep, hexecuted⟩ := h
    rw [visits_head hrest hstep, hvisits] at hv
    rcases List.mem_cons.mp hv with rfl | hv
    · exact hexecuted
    · exact absurd hstep (hfresh v hv)
  · intro h
    have hmem : (⟨step, choose runtime step st.capability.ledger, result⟩ : Visit) ∈
        (runLoop runtime invoke (step :: rest) st).visits := by
      rw [visits_head hrest rfl, hvisits]
      exact List.mem_cons_self
    exact ⟨_, hmem, rfl, h⟩

theorem executed_tail (hne : other ≠ step) (hfresh : ∀ v ∈ st.visits, v.step ≠ other) :
    Executed (runLoop runtime invoke (step :: rest) st).visits other ↔
      (takeStep runtime invoke step rest st).halt = none ∧
        Executed (runLoop runtime invoke rest (takeStep runtime invoke step rest st)).visits
          other := by
  rw [runLoop]
  by_cases hhalt : (takeStep runtime invoke step rest st).halt = none
  · rw [if_pos hhalt]
    exact ⟨fun h => ⟨hhalt, h⟩, fun h => h.2⟩
  · rw [if_neg hhalt]
    constructor
    · intro h
      obtain ⟨v, hv, hstep, -⟩ := h
      rcases takeStep_visits hv with hold | hmine
      · exact absurd hstep (hfresh v hold)
      · exact absurd (hstep.symm.trans hmine) hne
    · exact fun h => absurd h.1 hhalt

theorem takeStep_unmatched (hpending : st.capability.states step.id = .pending)
    (hunmatched : conditionMatches step st.capability.ledger = false) :
    (takeStep runtime invoke step rest st).halt = none := by
  have hchoice : choose runtime step st.capability.ledger =
      .blocked (blockedPredecessors step st.capability.ledger) ∨
      choose runtime step st.capability.ledger = .skipped := by
    unfold choose
    rw [hunmatched]
    split
    · exact Or.inl rfl
    · exact Or.inr rfl
  rcases takeStep_cases runtime invoke step rest st with
    ⟨hnot, -⟩ | ⟨reason, -, hunavailable, -⟩ | ⟨outcome, -, -, heq⟩
  · exact absurd hpending hnot
  · rw [hunavailable] at hchoice
    rcases hchoice with h | h <;> cases h
  · rw [heq]
    unfold LoopState.recorded
    dsimp only
    rcases hchoice with h | h <;> rw [h] <;> rfl

theorem takeStep_other (runtime : Runtime) (invoke : Invoke) (step : Step) (rest : List Step)
    (st : LoopState) {id : String} (hne : id ≠ step.id) :
    (takeStep runtime invoke step rest st).capability.ledger id = st.capability.ledger id ∧
      (takeStep runtime invoke step rest st).capability.states id =
        st.capability.states id := by
  rcases takeStep_cases runtime invoke step rest st with
    ⟨-, _, heq⟩ | ⟨_, -, -, heq⟩ | ⟨_, -, -, heq⟩
  · rw [heq]
    exact ⟨rfl, rfl⟩
  · rw [heq]
    exact ⟨rfl, Function.update_of_ne hne _ _⟩
  · rw [heq, recorded_ledger, Function.update_of_ne hne, recorded_states _ _ hne]
    exact ⟨rfl, rfl⟩

/-! ## The turns of a conditional plan -/

theorem takeStep_analysis (runtime : Runtime) (invoke : Invoke) (rest : List Step)
    (hkind : step.kind = .analysis) (hcondition : step.condition = none)
    (hcriteria : step.successCriteria = none)
    (hpending : st.capability.states step.id = .pending) :
    (takeStep runtime invoke step rest st).halt = none ∧
      (takeStep runtime invoke step rest st).capability.ledger.completed step.id = true := by
  obtain ⟨maxInputChars, maxOutputChars, hbody⟩ :
      ∃ maxInputChars maxOutputChars, step.body = .analysis maxInputChars maxOutputChars := by
    unfold Step.kind at hkind
    cases hbody : step.body with
    | analysis maxInputChars maxOutputChars => exact ⟨_, _, rfl⟩
    | agent | tool | schedule | join =>
      rw [hbody] at hkind
      cases hkind
  have hchoose : choose runtime step st.capability.ledger =
      .analysis maxInputChars maxOutputChars := by
    unfold choose conditionMatches
    rw [hkind, hcondition, hbody]
    rfl
  rcases takeStep_cases runtime invoke step rest st with
    ⟨hnot, -⟩ | ⟨reason, -, hunavailable, -⟩ | ⟨outcome, -, houtcome, heq⟩
  · exact absurd hpending hnot
  · rw [hchoose] at hunavailable
    cases hunavailable
  · rw [hchoose] at houtcome heq
    have hsettled : settle step (step.result outcome) = step.result outcome := by
      unfold settle meetsCriteria
      rw [hcriteria]
      exact if_neg (fun h => by cases h.2)
    rw [heq]
    refine ⟨rfl, ?_⟩
    unfold Ledger.completed
    rw [recorded_ledger, Function.update_self, hsettled]
    cases houtcome
    rfl

theorem stopAfter_handled (hended : Ended result)
    (hhandled : hasResultHandler result rest ledger = true) :
    stopAfter step result rest ledger = none := by
  have hstatus : result.status = "ok" ∨ result.status = "error" :=
    hended.imp (fun h => h.1) (fun h => h)
  unfold stopAfter
  rw [hhandled]
  rcases hstatus with hstatus | hstatus <;> rw [hstatus] <;> cases step.kind <;> rfl

/-- What the executor relies on in the steps of a conditional plan. -/
structure Compiled (c : Conditional) (steps : ConditionalSteps) : Prop where
  analysisKind : steps.analysis.kind = .analysis
  analysisDeps : steps.analysis.dependsOn = []
  analysisCondition : steps.analysis.condition = none
  analysisCriteria : steps.analysis.successCriteria = none
  primaryKind : steps.primary.kind = .tool ∨ steps.primary.kind = .agent
  primaryDeps : steps.primary.dependsOn = [steps.analysis.id]
  primaryCondition : steps.primary.condition = none
  consequentDeps : steps.consequent.dependsOn = [steps.primary.id]
  consequentCondition :
    steps.consequent.condition = some (c.condition steps.primary.id "continue_if")
  alternativeKind : steps.alternative.kind.needsPredecessors = c.alternative.isSome
  alternativeDeps : steps.alternative.dependsOn = [steps.primary.id]
  alternativeCondition :
    steps.alternative.condition = some (c.condition steps.primary.id "skip_if")
  joinDeps : steps.join.dependsOn = [steps.consequent.id, steps.alternative.id]
  synthesisDeps : steps.synthesis.dependsOn = [steps.join.id]

theorem makeStep_kind (env : PlannerEnv) (title : String) (kind : StepKind) (description : String)
    (dependsOn : List String) (condition : Option StepCondition) :
    (makeStep env title kind description dependsOn condition).kind = madeKind kind description := by
  change (madeBody _ _ _).kind = _
  cases madeKind kind description <;> rfl

theorem madeKind_prompt (prompt : String) :
    madeKind (promptKind prompt) prompt = .tool ∨ madeKind (promptKind prompt) prompt = .agent := by
  unfold promptKind
  split
  · unfold madeKind
    split
    · exact Or.inr rfl
    · exact Or.inl rfl
  · exact Or.inr rfl

theorem compile_compiled (env : PlannerEnv) (c : Conditional) : Compiled c (c.compile env) where
  analysisKind := makeStep_kind _ _ _ _ _ _
  analysisDeps := rfl
  analysisCondition := rfl
  analysisCriteria := rfl
  primaryKind := by
    change (makeStep _ _ _ _ _ _).kind = _ ∨ (makeStep _ _ _ _ _ _).kind = _
    rw [makeStep_kind]
    exact madeKind_prompt _
  primaryDeps := rfl
  primaryCondition := rfl
  consequentDeps := rfl
  consequentCondition := rfl
  alternativeKind := by
    unfold Conditional.compile
    dsimp only
    cases c.alternative with
    | none =>
      dsimp only
      rw [makeStep_kind]
      rfl
    | some prompt =>
      dsimp only
      rw [makeStep_kind]
      rcases madeKind_prompt prompt with h | h <;> rw [h] <;> rfl
  alternativeDeps := by
    unfold Conditional.compile
    dsimp only
    cases c.alternative <;> rfl
  alternativeCondition := by
    unfold Conditional.compile
    dsimp only
    cases c.alternative <;> rfl
  joinDeps := rfl
  synthesisDeps := rfl

/-- The state after the primary step has ended: it has a result, the loop goes on, and
the branches are to come. -/
structure PrimaryDone (steps : ConditionalSteps) (result : StepResult) (st : LoopState) : Prop where
  going : st.halt = none
  recorded : st.capability.ledger steps.primary.id = some result
  consequentPending : st.capability.states steps.consequent.id = .pending
  alternativePending : st.capability.states steps.alternative.id = .pending
  visited : ∀ v ∈ st.visits, v.step = steps.analysis ∨ v.step = steps.primary

variable {steps : ConditionalSteps}

theorem ne_of_ids {a b : Step} (h : a.id ≠ b.id) : a ≠ b := fun heq => h (heq ▸ rfl)

theorem distinct_ids (hnodup : (ids steps.all).Nodup) :
    steps.analysis.id ≠ steps.primary.id ∧ steps.analysis.id ≠ steps.consequent.id ∧
      steps.analysis.id ≠ steps.alternative.id ∧ steps.primary.id ≠ steps.consequent.id ∧
      steps.primary.id ≠ steps.alternative.id ∧ steps.consequent.id ≠ steps.alternative.id ∧
      steps.primary ∉ [steps.consequent, steps.alternative, steps.join, steps.synthesis] ∧
      steps.consequent ∉ [steps.alternative, steps.join, steps.synthesis] ∧
      steps.alternative ∉ [steps.join, steps.synthesis] := by
  unfold ids ConditionalSteps.all at hnodup
  simp only [List.map_cons, List.map_nil, List.nodup_cons, List.mem_cons, List.not_mem_nil,
    or_false, not_or] at hnodup
  obtain ⟨⟨h₁, h₂, h₃, -⟩, ⟨h₄, h₅, h₆, h₇⟩, ⟨h₈, h₉, h₁₀⟩, ⟨h₁₁, h₁₂⟩, -⟩ := hnodup
  refine ⟨h₁, h₂, h₃, h₄, h₅, h₈, ?_, ?_, ?_⟩
  · simp only [List.mem_cons, List.not_mem_nil, or_false, not_or]
    exact ⟨ne_of_ids h₄, ne_of_ids h₅, ne_of_ids h₆, ne_of_ids h₇⟩
  · simp only [List.mem_cons, List.not_mem_nil, or_false, not_or]
    exact ⟨ne_of_ids h₈, ne_of_ids h₉, ne_of_ids h₁₀⟩
  · simp only [List.mem_cons, List.not_mem_nil, or_false, not_or]
    exact ⟨ne_of_ids h₁₁, ne_of_ids h₁₂⟩

/-- Once the primary step has ended, the branch of the condition is executed where the
predicate holds, and the other one where it does not and nothing holds it back. -/
theorem branches_executed (hcompiled : Compiled c steps) (hnodup : (ids steps.all).Nodup)
    (hsource : steps.primary.id ≠ "") (hdone : PrimaryDone steps result st) :
    (Executed (runLoop runtime invoke
        [steps.consequent, steps.alternative, steps.join, steps.synthesis] st).visits
          steps.consequent ↔ c.selects result = true ∧ runtime.runs steps.consequent) ∧
    (Executed (runLoop runtime invoke
        [steps.consequent, steps.alternative, steps.join, steps.synthesis] st).visits
          steps.alternative ↔ c.selects result = false ∧
            (result.completed = true ∨ c.alternative.isSome = false) ∧
            runtime.runs steps.alternative) := by
  obtain ⟨-, hac, hao, hpc, hpo, hco, -, hconsequent, halternative⟩ := distinct_ids hnodup
  have hfresh : ∀ other : Step, steps.analysis.id ≠ other.id → steps.primary.id ≠ other.id →
      ∀ v ∈ st.visits, v.step ≠ other := by
    intro other ha hp v hv heq
    rcases hdone.visited v hv with h | h
    · exact ha (h.symm.trans heq ▸ rfl)
    · exact hp (h.symm.trans heq ▸ rfl)
  constructor
  · rw [executed_head hdone.consequentPending (hfresh _ hac hpc) hconsequent]
    exact choose_consequent hsource hcompiled.consequentDeps hcompiled.consequentCondition
      hdone.recorded
  · -- the turn of the other branch finds the primary step's result where it was
    obtain ⟨hledger, -⟩ := takeStep_other runtime invoke steps.consequent
      [steps.alternative, steps.join, steps.synthesis] st hpc
    obtain ⟨-, hstates⟩ := takeStep_other runtime invoke steps.consequent
      [steps.alternative, steps.join, steps.synthesis] st hco.symm
    have hfresh' : ∀ v ∈ (takeStep runtime invoke steps.consequent
        [steps.alternative, steps.join, steps.synthesis] st).visits,
        v.step ≠ steps.alternative := by
      intro v hv
      rcases takeStep_visits hv with hold | hmine
      · exact hfresh _ hao hpo v hold
      · exact hmine ▸ ne_of_ids hco
    rw [executed_tail (ne_of_ids hco.symm) (hfresh _ hao hpo),
      executed_head (hstates.trans hdone.alternativePending) hfresh' halternative,
      choose_alternative hsource hcompiled.alternativeDeps hcompiled.alternativeCondition
        (hledger.trans hdone.recorded), hcompiled.alternativeKind]
    refine ⟨fun h => h.2, fun h => ⟨?_, h⟩⟩
    refine takeStep_unmatched hdone.consequentPending ?_
    exact (branch_matches hsource hcompiled.consequentCondition hdone.recorded).2.trans h.1

theorem branches_handle (hcompiled : Compiled c steps) (hsource : steps.primary.id ≠ "")
    (hid : result.stepId = steps.primary.id) (ledger : Ledger) :
    hasResultHandler result
      [steps.consequent, steps.alternative, steps.join, steps.synthesis] ledger = true := by
  have hprobe : Function.update ledger result.stepId (some result) steps.primary.id =
      some result := by
    rw [hid, Function.update_self]
  obtain ⟨habout, hmatches⟩ :=
    branch_matches hsource hcompiled.consequentCondition hprobe
  obtain ⟨habout', hmatches'⟩ :=
    branch_matches hsource hcompiled.alternativeCondition hprobe
  unfold hasResultHandler
  dsimp only
  rw [List.any_cons, List.any_cons, hmatches, hmatches', hid, habout, habout']
  cases c.selects result <;> rfl

theorem primary_turn (hcompiled : Compiled c steps) (hnodup : (ids steps.all).Nodup)
    (hsource : steps.primary.id ≠ "") (hpending : ∀ id, id ≠ steps.analysis.id →
      st.capability.states id = .pending)
    (hvisited : ∀ v ∈ st.visits, v.step = steps.analysis) {v : Visit}
    (hstep : v.step = steps.primary) (hresult : v.result = some result) (hended : Ended result)
    (hv : v ∈ (takeStep runtime invoke steps.primary
      [steps.consequent, steps.alternative, steps.join, steps.synthesis] st).visits) :
    PrimaryDone steps result (takeStep runtime invoke steps.primary
      [steps.consequent, steps.alternative, steps.join, steps.synthesis] st) := by
  obtain ⟨hap, hac, hao, hpc, hpo, -⟩ := distinct_ids hnodup
  have hold : v ∉ st.visits := fun hmem => ne_of_ids hap ((hvisited v hmem).symm.trans hstep)
  have hstates : ∀ id, id ≠ steps.analysis.id → id ≠ steps.primary.id →
      (takeStep runtime invoke steps.primary
        [steps.consequent, steps.alternative, steps.join, steps.synthesis] st).capability.states
          id = .pending := fun id ha hp =>
    (takeStep_other runtime invoke steps.primary _ st hp).2.trans (hpending id ha)
  have hvisits : ∀ w ∈ (takeStep runtime invoke steps.primary
      [steps.consequent, steps.alternative, steps.join, steps.synthesis] st).visits,
      w.step = steps.analysis ∨ w.step = steps.primary := fun w hw =>
    (takeStep_visits hw).imp (hvisited w) (fun hmine => hmine)
  -- a result was recorded for it, and it is the one asked about
  obtain ⟨outcome, heq, hsettled⟩ : ∃ outcome, takeStep runtime invoke steps.primary
      [steps.consequent, steps.alternative, steps.join, steps.synthesis] st =
        st.recorded steps.primary (choose runtime steps.primary st.capability.ledger) outcome
          [steps.consequent, steps.alternative, steps.join, steps.synthesis] ∧
      settle steps.primary (steps.primary.result outcome) = result := by
    rcases takeStep_cases runtime invoke steps.primary
      [steps.consequent, steps.alternative, steps.join, steps.synthesis] st with
      ⟨hnot, -⟩ | ⟨reason, -, -, heq⟩ | ⟨outcome, -, -, heq⟩
    · exact absurd (hpending _ hap.symm) hnot
    · rw [heq] at hv
      rcases List.mem_cons.mp hv with rfl | hmem
      · cases hresult
      · exact absurd hmem hold
    · refine ⟨outcome, heq, ?_⟩
      rw [heq] at hv
      rcases List.mem_cons.mp hv with rfl | hmem
      · exact Option.some.inj hresult
      · exact absurd hmem hold
  refine ⟨?_, ?_, hstates _ hac.symm hpc.symm, hstates _ hao.symm hpo.symm, hvisits⟩
  · have hid : result.stepId = steps.primary.id := by
      rw [← hsettled]
      exact settle_stepId _ _
    rw [heq]
    unfold LoopState.recorded
    dsimp only
    rw [hsettled, stopAfter_handled hended (branches_handle hcompiled hsource hid _)]
    split <;> rfl
  · rw [heq, recorded_ledger, Function.update_self, hsettled]

/-- In the loop of a conditional plan whose primary step ends, the branch of the condition
is executed where the predicate holds, and the other one where it does not and nothing
holds it back. -/
theorem loop_branches (hcompiled : Compiled c steps) (hnodup : (ids steps.all).Nodup)
    (hsource : steps.primary.id ≠ "") {v : Visit} (hstep : v.step = steps.primary)
    (hresult : v.result = some result) (hended : Ended result)
    (hpending : ∀ id, st.capability.states id = .pending) (hfresh : st.visits = [])
    (hv : v ∈ (runLoop runtime invoke steps.all st).visits) :
    (Executed (runLoop runtime invoke steps.all st).visits steps.consequent ↔
      c.selects result = true ∧ runtime.runs steps.consequent) ∧
    (Executed (runLoop runtime invoke steps.all st).visits steps.alternative ↔
      c.selects result = false ∧ (result.completed = true ∨ c.alternative.isSome = false) ∧
        runtime.runs steps.alternative) := by
  obtain ⟨-, -, -, -, -, -, hprimary, -, -⟩ := distinct_ids hnodup
  obtain ⟨hgoing, -⟩ := takeStep_analysis runtime invoke
    [steps.primary, steps.consequent, steps.alternative, steps.join, steps.synthesis]
    hcompiled.analysisKind hcompiled.analysisCondition hcompiled.analysisCriteria
    (hpending steps.analysis.id)
  have hstates := fun (id : String) (hne : id ≠ steps.analysis.id) =>
    (takeStep_other runtime invoke steps.analysis
      [steps.primary, steps.consequent, steps.alternative, steps.join, steps.synthesis] st
      hne).2.trans (hpending id)
  have hvisited : ∀ w ∈ (takeStep runtime invoke steps.analysis
      [steps.primary, steps.consequent, steps.alternative, steps.join, steps.synthesis]
      st).visits, w.step = steps.analysis := by
    intro w hw
    rcases takeStep_visits hw with hold | hmine
    · rw [hfresh] at hold
      cases hold
    · exact hmine
  unfold ConditionalSteps.all at hv ⊢
  rw [runLoop, if_pos hgoing] at hv ⊢
  rw [visits_head hprimary hstep] at hv
  have hdone := primary_turn hcompiled hnodup hsource hstates hvisited hstep hresult hended hv
  rw [runLoop, if_pos hdone.going]
  exact branches_executed hcompiled hnodup hsource hdone

/-! ## The whole plan -/

theorem executePlan_visits {pre : Preflight} {remove : String → Bool} {plan : List Step}
    {e : Execution} (h : executePlan pre runtime invoke remove plan = .ok e)
    (hready : ReadyOrder Step.id Step.dependsOn (ids plan) [] plan) (hvisited : e.visits ≠ []) :
    e.visits = (runLoop runtime invoke plan
      { capability := Capability.mint plan, visits := [], halt := none }).visits := by
  have horder : orderSteps plan = plan := order_ready hready
  unfold executePlan at h
  obtain ⟨cap, hcap, h⟩ := bind_ok.mp h
  unfold preflightPlan at hcap
  obtain ⟨_, -, hcap⟩ := bind_ok.mp hcap
  obtain ⟨_, -, hcap⟩ := bind_ok.mp hcap
  cases hcap
  have hsame : e.visits =
      (executeImmediate runtime invoke (Capability.mint plan) (orderSteps plan)).visits := by
    dsimp only at h
    split at h
    · split at h <;> cases h <;> rfl
    · cases h
      rfl
  rw [hsame, horder] at hvisited ⊢
  unfold executeImmediate at hvisited ⊢
  split
  · rename_i hsilent
    rw [if_pos hsilent] at hvisited
    exact absurd rfl hvisited
  rename_i hsilent
  rw [if_neg hsilent] at hvisited
  split
  · rename_i hempty
    rw [if_pos hempty] at hvisited
    exact absurd rfl hvisited
  rename_i hempty
  rw [if_neg hempty] at hvisited
  cases hvalidate : validateExecutionSlice (Capability.mint plan) plan with
  | error message =>
    rw [hvalidate] at hvisited
    exact absurd rfl hvisited
  | ok _ =>
    dsimp only
    rw [horder]

theorem ready_all (hcompiled : Compiled c steps) :
    ReadyOrder Step.id Step.dependsOn (ids steps.all) [] steps.all := by
  unfold ConditionalSteps.all
  simp [ReadyOrder, hcompiled.analysisDeps, hcompiled.primaryDeps, hcompiled.consequentDeps,
    hcompiled.alternativeDeps, hcompiled.joinDeps, hcompiled.synthesisDeps]

theorem follows_iff {visits : List Visit} (hended : Ended result)
    (hconsequent : Executed visits steps.consequent ↔
      c.selects result = true ∧ runtime.runs steps.consequent)
    (halternative : Executed visits steps.alternative ↔ c.selects result = false ∧
      (result.completed = true ∨ c.alternative.isSome = false) ∧
      runtime.runs steps.alternative) :
    FollowsPrimary steps c visits result ↔ Agrees steps c runtime result := by
  have hnone : c.alternative.isSome = false ↔ c.alternative = none := by
    cases c.alternative <;> simp
  unfold FollowsPrimary Agrees ConditionalSteps.success ConditionalSteps.failure
  unfold Conditional.selects Conditional.statuses at hconsequent halternative
  rcases hended with ⟨hstatus, hsuccess⟩ | hstatus
  · have hcompleted : result.completed = true := by
      unfold StepResult.completed
      rw [hstatus, hsuccess]
      rfl
    rw [hstatus] at hconsequent halternative ⊢
    cases hfailure : c.onFailure with
    | true =>
      rw [hfailure] at hconsequent halternative
      simp [hconsequent, halternative, hcompleted]
    | false =>
      rw [hfailure] at hconsequent halternative
      simp [hconsequent, halternative]
      -- the filters cannot both hold and not hold
      intro hhold _ hnot
      rw [hhold] at hnot
      cases hnot
  · have hincomplete : result.completed = false := by
      unfold StepResult.completed
      rw [hstatus]
      simp
    rw [hstatus] at hconsequent halternative ⊢
    cases hfailure : c.onFailure with
    | true =>
      rw [hfailure] at hconsequent halternative
      simp [hconsequent, halternative, hincomplete]
      intro hhold _ hnot
      rw [hhold] at hnot
      cases hnot
    | false =>
      rw [hfailure] at hconsequent halternative
      simp [hconsequent, halternative, hincomplete]

/-- For every conditional goal, every plan of it that is accepted and run, and every end of
its primary step: exactly one branch is executed, the one for that end, precisely where
after a success the goal is about failure or its filters hold, and after an error the goal
is about failure and its filters hold or it is about success and names no other branch. -/
theorem conditional_follows {env : PlannerEnv} {goal : String} {plan immediate : List Step}
    {pre : Preflight} {remove : String → Bool} {e : Execution} {v : Visit}
    (hgoal : Plan.plan env goal = .conditional c plan immediate)
    (hrun : executePlan pre runtime invoke remove plan = .ok e)
    (hv : v ∈ e.visits) (hid : v.step.id = (c.compile env).primary.id)
    (hresult : v.result = some result) (hended : Ended result) :
    FollowsPrimary (c.compile env) c e.visits result ↔ Agrees (c.compile env) c runtime result := by
  have hplan : plan = (c.compile env).all := by
    unfold Plan.plan at hgoal
    dsimp only at hgoal
    split at hgoal
    · cases hgoal
    split at hgoal
    · cases hgoal
    split at hgoal
    · cases hgoal
    split at hgoal
    · cases hgoal
      rfl
    · cases hgoal
  subst hplan
  have hcompiled := compile_compiled env c
  have hvalid := executePlan_valid hrun
  have hvisits := executePlan_visits hrun (ready_all hcompiled) (List.ne_nil_of_mem hv)
  have hprimary : (c.compile env).primary ∈ (c.compile env).all :=
    List.mem_cons_of_mem _ List.mem_cons_self
  have hsource : (c.compile env).primary.id ≠ "" := hvalid.nonempty _ hprimary
  have hstep : v.step = (c.compile env).primary := by
    rcases runLoop_visits (hvisits ▸ hv) with hold | hmem
    · cases hold
    · have hfind := find_step hvalid.nodup hmem
      rw [hid, find_step hvalid.nodup hprimary] at hfind
      exact (Option.some.inj hfind).symm
  obtain ⟨hconsequent, halternative⟩ := loop_branches hcompiled hvalid.nodup hsource hstep hresult
    hended (fun _ => rfl) rfl (hvisits ▸ hv)
  rw [← hvisits] at hconsequent halternative
  exact follows_iff hended hconsequent halternative

/-! ## A conditional plan, evaluated -/

/-- The Unicode tables on the characters of the goals below, and a digest that tells the
steps of one plan apart. -/
def plannerEnv : PlannerEnv where
  lower := PyStr.lowerAscii
  word := fun c => c.isAlphanum ∨ c = '_' ∨ 0x4E00 ≤ c.toNat
  fingerprint := fun contract =>
    match contract.get "title" with
    | .str title => title
    | _ => ""

def failsTitled (title : String) : Invoke := fun step _ =>
  if step.title = title then { status := "error", success := false, error := some "tool_failed" }
  else { status := "ok", success := true }

/-- The parts of "read file a, if that succeeds do B, otherwise do C". -/
def readGoal : Conditional where
  goal := "读文件 a，如果成功，做B，否则做C"
  primary := "读文件 a"
  onFailure := false
  filters := ⟨[], []⟩
  consequent := "做B"
  alternative := some "做C"

theorem plan_readGoal : plan plannerEnv readGoal.goal = .conditional readGoal
    (readGoal.compile plannerEnv).all (readGoal.compile plannerEnv).all.tail := by
  have hstrip : PyStr.strip readGoal.goal = readGoal.goal := by decide +kernel
  have hempty : readGoal.goal ≠ "" := by decide +kernel
  have hsafe : destructiveVerb plannerEnv readGoal.goal = false := by decide +kernel
  have hharmless : destructive plannerEnv readGoal.goal = false := by decide +kernel
  have hparts : parseConditional readGoal.goal = some readGoal := by decide +kernel
  unfold plan
  dsimp only
  rw [hstrip, if_neg hempty, hsafe, hharmless, hparts]
  rfl

/-- The run of a conditional plan, with the visit of its primary step and its result. -/
def runConditional (invoke : Invoke) (c : Conditional) : Option (Execution × Visit × StepResult) := do
  let e ← (executePlan openPreflight fullRuntime invoke (fun _ => true)
    (c.compile plannerEnv).all).toOption
  let v ← e.visits.find? (fun v => v.step.id = (c.compile plannerEnv).primary.id)
  let result ← v.result
  some (e, v, result)

theorem runConditional_some {r : Execution × Visit × StepResult}
    (h : runConditional invoke c = some r) :
    executePlan openPreflight fullRuntime invoke (fun _ => true)
        (c.compile plannerEnv).all = .ok r.1 ∧
      r.2.1 ∈ r.1.visits ∧ r.2.1.step.id = (c.compile plannerEnv).primary.id ∧
      r.2.1.result = some r.2.2 := by
  obtain ⟨e, he, h⟩ := Option.bind_eq_some_iff.mp h
  obtain ⟨v, hv, h⟩ := Option.bind_eq_some_iff.mp h
  obtain ⟨result, hresult, h⟩ := Option.bind_eq_some_iff.mp h
  have hsame := List.find?_some hv
  cases h
  exact ⟨toOption_some he, List.mem_of_find?_eq_some hv, of_decide_eq_true hsame, hresult⟩

/-- After a success the goal's plan runs the branch for it and only that. -/
theorem conditional_follows_success : ∃ e v result,
    executePlan openPreflight fullRuntime allOk (fun _ => true)
      (readGoal.compile plannerEnv).all = .ok e ∧ v ∈ e.visits ∧ v.result = some result ∧
    result.status = "ok" ∧
    (FollowsPrimary (readGoal.compile plannerEnv) readGoal e.visits result ↔
      Agrees (readGoal.compile plannerEnv) readGoal fullRuntime result) := by
  have heval : (runConditional allOk readGoal).map
      (fun r => (r.2.2.status, r.2.2.success)) = some ("ok", true) := by
    decide +kernel
  obtain ⟨r, hr, hstatus⟩ := Option.map_eq_some_iff.mp heval
  obtain ⟨hrun, hv, hid, hresult⟩ := runConditional_some hr
  obtain ⟨hok, hsuccess⟩ := Prod.mk.inj hstatus
  exact ⟨r.1, r.2.1, r.2.2, hrun, hv, hresult, hok,
    conditional_follows plan_readGoal hrun hv hid hresult (Or.inl ⟨hok, hsuccess⟩)⟩

/-- After an error it runs neither branch. -/
theorem conditional_skips_both : ∃ goal c steps immediate e v result,
    plan plannerEnv goal = .conditional c steps immediate ∧
    executePlan openPreflight fullRuntime (failsTitled "Execute primary branch") (fun _ => true)
      steps = .ok e ∧ v ∈ e.visits ∧ v.step.id = (c.compile plannerEnv).primary.id ∧
    v.result = some result ∧ Ended result ∧
    ¬ FollowsPrimary (c.compile plannerEnv) c e.visits result ∧
    ¬ Executed e.visits (c.compile plannerEnv).consequent ∧
    ¬ Executed e.visits (c.compile plannerEnv).alternative := by
  have heval : (runConditional (failsTitled "Execute primary branch") readGoal).map
      (fun r => (r.2.2.status, r.1.visits.all (fun v => v.choice.executed = true →
        v.step.title ∉ ["Execute success branch", "Execute else branch"]))) =
      some ("error", true) := by
    decide +kernel
  obtain ⟨r, hr, hall⟩ := Option.map_eq_some_iff.mp heval
  obtain ⟨hrun, hv, hid, hresult⟩ := runConditional_some hr
  obtain ⟨herror, hnone⟩ := Prod.mk.inj hall
  have hidle : ∀ step : Step, step.title ∈ ["Execute success branch", "Execute else branch"] →
      ¬ Executed r.1.visits step := by
    intro step htitle hexecuted
    obtain ⟨w, hw, hstep, hchoice⟩ := hexecuted
    have hw' := of_decide_eq_true (List.all_eq_true.mp hnone w hw)
    exact hw' hchoice (hstep ▸ htitle)
  have hconsequent := hidle (readGoal.compile plannerEnv).consequent (by decide)
  have halternative := hidle (readGoal.compile plannerEnv).alternative (by decide)
  refine ⟨readGoal.goal, readGoal, _, _, r.1, r.2.1, r.2.2, plan_readGoal, hrun, hv, hid, hresult,
    Or.inr herror, ?_, hconsequent, halternative⟩
  exact fun hfollows => halternative (hfollows.2.mpr herror)

end Plan
