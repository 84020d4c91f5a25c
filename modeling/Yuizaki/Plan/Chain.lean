import Yuizaki.Lib.Run
import Yuizaki.Plan.Hash
import Yuizaki.Plan.Resume

/- Chains of a plan's execution and its resumes.

   `execute_plan` and every resume run under a capability of their own. A run gives way
   to others wherever it awaits an executor, so one turn of its loop is two steps here,
   the claim of a plan step and the record of its result. A run that ends may issue a
   resume token; anyone may present any token at any time, with any plan; a valid token
   is spent and starts a run under a new capability. Tokens are what they say: the
   scope, the plan hash, the failed step and two times, with no nonce. -/
namespace Plan

variable {δ : Type}

/-! ## Tokens -/

structure TokenScope where
  workspaceId : String
  sessionId : String
  turnId : String
deriving DecidableEq

structure ResumeToken (δ : Type) where
  scope : TokenScope
  planHash : δ
  failedStepId : String
  issuedAt : ℤ
  expiresAt : ℤ
deriving DecidableEq

/-- `ResumeTokenCodec.decode` accepts the token for a request. -/
def ResumeToken.valid (token : ResumeToken δ) (codec : Codec δ) (scope : TokenScope) (now : ℤ)
    (steps : List Step) (failed : String) : Prop :=
  token.issuedAt < token.expiresAt ∧ now < token.expiresAt ∧ token.scope = scope ∧
    token.planHash = Plan.planHash codec steps ∧ token.failedStepId = failed

/-! ## Runs -/

/-- One call of `execute_immediate_steps`: its capability, the plan its token is for, the
steps to come, and the step whose executor it awaits. `compensates` marks the call of
`execute_plan`. -/
structure PlanRun where
  capability : Capability
  plan : List Step
  compensates : Bool
  visits : List Visit
  todo : List Step
  running : Option (Step × StepChoice)
  halt : Option Halt
  closed : Bool

/-- The run as the execution it answers. -/
def PlanRun.execution (run : PlanRun) : Execution where
  capability := run.capability
  visits := run.visits
  halt := run.halt
  error := none

/-- A run at its start: in silent mode, or where the slice is refused, it has nothing to
do. -/
def PlanRun.start (runtime : Runtime) (cap : Capability) (plan slice : List Step)
    (compensates : Bool) : PlanRun where
  capability := cap
  plan := plan
  compensates := compensates
  visits := []
  todo := if runtime.silent then [] else
    match validateExecutionSlice cap slice with
    | .ok () => orderSteps slice
    | .error _ => []
  running := none
  halt := none
  closed := false

def PlanRun.claim (run : PlanRun) (step : Step) (choice : StepChoice) (rest : List Step) :
    PlanRun :=
  { run with
    capability := run.capability.claim step.id, todo := rest, running := some (step, choice) }

/-- The run after it records a result of the step it awaited. -/
def PlanRun.settled (run : PlanRun) (step : Step) (choice : StepChoice) (result : StepResult) :
    PlanRun :=
  let capability := run.capability.record result
  let stop := if choice = .invoke then stopAfter step result run.todo capability.ledger else none
  { run with
    capability, visits := ⟨step, choice, some result⟩ :: run.visits, running := none
    halt := stop.map Halt.stopped }

/-- The run after a step that has no executor. -/
def PlanRun.unavailable (run : PlanRun) (step : Step) (reason : String) : PlanRun :=
  { run with
    visits := ⟨step, .unavailable reason, none⟩ :: run.visits, running := none
    halt := some (.stopped reason) }

def PlanRun.raise (run : PlanRun) (message : String) : PlanRun :=
  { run with running := none, halt := some (.raised message) }

/-- The run after it removes a schedule it created. -/
def PlanRun.compensate (run : PlanRun) (item : StepResult) : PlanRun :=
  { run with capability := run.capability.record item.rollback }

def PlanRun.close (run : PlanRun) : PlanRun := { run with closed := true }

inductive RunLabel where
  | claimed (stepId : String) (choice : StepChoice)
  | settled (result : StepResult)
  | halted
  | compensated (result : StepResult)

inductive RunStep (runtime : Runtime) (run : PlanRun) : RunLabel → PlanRun → Prop
  | claimed {step : Step} {rest : List Step} :
      run.running = none → run.halt = none → run.todo = step :: rest →
      run.capability.states step.id = .pending →
      RunStep runtime run (.claimed step.id (choose runtime step run.capability.ledger))
        (run.claim step (choose runtime step run.capability.ledger) rest)
  | replayed {step : Step} {rest : List Step} {message : String} :
      run.running = none → run.halt = none → run.todo = step :: rest →
      run.capability.states step.id ≠ .pending →
      RunStep runtime run .halted (run.raise message)
  | settled {step : Step} {choice : StepChoice} {invoked outcome : Outcome} :
      run.running = some (step, choice) →
      choice.outcome step run.capability.ledger invoked = some outcome →
      RunStep runtime run (.settled (settle step (step.result outcome)))
        (run.settled step choice (settle step (step.result outcome)))
  | unavailable {step : Step} {reason : String} :
      run.running = some (step, .unavailable reason) →
      RunStep runtime run .halted (run.unavailable step reason)
  | broken {message : String} :
      -- the executor raises, or the run is cancelled while it waits
      run.running ≠ none → RunStep runtime run .halted (run.raise message)
  | compensated {item : StepResult} {reason : String} :
      run.compensates = true → run.closed = true → run.halt = some (.stopped reason) →
      runtime.scheduler = true → run.capability.ledger item.stepId = some item →
      item.createdSchedule = true → item.taskId.getD "" ≠ "" →
      RunStep runtime run (.compensated item.rollback) (run.compensate item)

theorem RunStep.frame {runtime : Runtime} {run run' : PlanRun} {l : RunLabel}
    (h : RunStep runtime run l run') : run'.plan = run.plan ∧ run'.closed = run.closed := by
  cases h <;> exact ⟨rfl, rfl⟩

/-! ## The system -/

structure ChainEnv (δ : Type) where
  codec : Codec δ
  knownZone : String → Bool
  limits : PlanLimits
  runtime : Runtime

/-- The runs so far, by capability, and the tokens: `_resume_capabilities` and
`_consumed_resume_tokens`. -/
structure Chain (δ : Type) where
  runs : ℕ → Option PlanRun
  next : ℕ
  tokens : ResumeToken δ → Option ℕ
  consumed : List (ResumeToken δ)

/-- `execute_plan` of an accepted plan, before its first step. -/
def Chain.initial (env : ChainEnv δ) (plan : List Step) : Chain δ where
  runs := Function.update (fun _ => none) 0
    (some (PlanRun.start env.runtime (Capability.mint plan) (orderSteps plan) (orderSteps plan)
      true))
  next := 1
  tokens := fun _ => none
  consumed := []

inductive ChainLabel (δ : Type) where
  | ran (i : ℕ) (l : RunLabel)
  | concluded (i : ℕ) (token : Option (ResumeToken δ))
  | refused (token : ResumeToken δ)
  | resumed (token : ResumeToken δ) (i : ℕ)
  | pruned

def ChainLabel.invoked : ChainLabel δ → Option String
  | .ran _ (.claimed stepId .invoke) => some stepId
  | _ => none

def ChainLabel.result : ChainLabel δ → Option StepResult
  | .ran _ (.settled result) => some result
  | .ran _ (.compensated result) => some result
  | _ => none

def Chain.setRun (s : Chain δ) (i : ℕ) (run : PlanRun) : Chain δ :=
  { s with runs := Function.update s.runs i (some run) }

section Step

variable [DecidableEq δ]

def Chain.spend (s : Chain δ) (token : ResumeToken δ) : Chain δ :=
  { s with
    tokens := Function.update s.tokens token none
    consumed := token :: s.consumed }

def Chain.issue (s : Chain δ) (token : ResumeToken δ) (i : ℕ) : Chain δ :=
  { s with tokens := Function.update s.tokens token (some i) }

def Chain.begin (s : Chain δ) (run : PlanRun) : Chain δ :=
  { s with runs := Function.update s.runs s.next (some run), next := s.next + 1 }

inductive ChainStep (env : ChainEnv δ) (s : Chain δ) : ChainLabel δ → Chain δ → Prop
  | ran {i : ℕ} {run run' : PlanRun} {l : RunLabel} :
      s.runs i = some run → RunStep env.runtime run l run' →
      ChainStep env s (.ran i l) (s.setRun i run')
  | concluded {i : ℕ} {run : PlanRun} :
      s.runs i = some run → run.running = none → run.todo = [] ∨ run.halt ≠ none →
      run.closed = false → run.execution.recoverable = none →
      ChainStep env s (.concluded i none) (s.setRun i run.close)
  | failed {i : ℕ} {run : PlanRun} {failed : String} (scope : TokenScope) (now : ℤ) :
      -- a resume first issues and withdraws a token for its slice: see `pruned`
      s.runs i = some run → run.running = none → run.todo = [] ∨ run.halt ≠ none →
      run.closed = false → run.execution.recoverable = some failed →
      ChainStep env s
        (.concluded i (some ⟨scope, planHash env.codec run.plan, failed, now, now + 900⟩))
        ((s.setRun i run.close).issue
          ⟨scope, planHash env.codec run.plan, failed, now, now + 900⟩ i)
  | refused {token : ResumeToken δ} :
      -- an unknown, spent or invalid token
      ChainStep env s (.refused token) s
  | wasted {token : ResumeToken δ} {j : ℕ} :
      -- the token is valid, but the resume fails before it runs anything
      s.tokens token = some j → token ∉ s.consumed →
      ChainStep env s (.refused token) (s.spend token)
  | resumed {token : ResumeToken δ} {j : ℕ} {old : PlanRun} {steps : List Step}
      {failed : String} (scope : TokenScope) (now : ℤ) :
      s.tokens token = some j → token ∉ s.consumed → s.runs j = some old →
      token.valid env.codec scope now steps failed → failed ∈ ids steps →
      validatePlan env.knownZone env.limits steps = .ok () →
      ChainStep env s (.resumed token s.next)
        ((s.spend token).begin (PlanRun.start env.runtime (old.capability.resume steps failed)
          steps (retrySlice old.capability steps failed) false))
  | pruned {tokens : ResumeToken δ → Option ℕ} {consumed : List (ResumeToken δ)} :
      -- the bounded tables forget entries; `_consumed_resume_tokens` is cleared at once
      (∀ token j, tokens token = some j → s.tokens token = some j) →
      consumed = s.consumed ∨ consumed = [] →
      ChainStep env s .pruned { s with tokens, consumed }

end Step

/-! ## What a run counts -/

/-- How often the executor of a step is invoked. -/
def invocations (id : String) (hist : List (ChainLabel δ)) : ℕ :=
  hist.countP (fun l => l.invoked = some id)

/-- The step of a result that failed or was rolled back. -/
def StepResult.failedStep (result : StepResult) : Option String :=
  if result.status ∈ "rolled_back" :: failureStatuses then some result.stepId else none

/-- The steps that failed or were rolled back. -/
def failedSteps (hist : List (ChainLabel δ)) : List String :=
  hist.filterMap (fun l => l.result.bind StepResult.failedStep)

/-! ## The loop of the executor is a run -/

section Loop

open Transition

variable {runtime : Runtime} {invoke : Invoke} {run : PlanRun} {st : LoopState}

/-- The run is between two turns of the loop. -/
structure Follows (run : PlanRun) (st : LoopState) : Prop where
  idle : run.running = none
  capability : run.capability = st.capability
  visits : run.visits = st.visits
  halt : run.halt = st.halt

theorem takeStep_run {step : Step} {rest : List Step} (h : Follows run st) (hgoing : st.halt = none)
    (htodo : run.todo = step :: rest) :
    ∃ ls run', Run (RunStep runtime) run ls run' ∧
      Follows run' (takeStep runtime invoke step rest st) ∧
      ((takeStep runtime invoke step rest st).halt = none → run'.todo = rest) := by
  have hhalt : run.halt = none := h.halt.trans hgoing
  rcases takeStep_cases runtime invoke step rest st with
    ⟨hstate, message, heq⟩ | ⟨reason, hpending, hchoice, heq⟩ | ⟨outcome, hpending, houtcome, heq⟩
  · rw [← h.capability] at hstate
    have hrefused : Run (RunStep runtime) run [.halted] (run.raise message) :=
      Run.next Run.start (RunStep.replayed h.idle hhalt htodo hstate)
    rw [heq]
    exact ⟨_, _, hrefused, ⟨rfl, h.capability, h.visits, rfl⟩, fun hnone => (nomatch hnone)⟩
  · rw [← h.capability] at hpending hchoice
    have hclaimed := Run.next Run.start
      (@RunStep.claimed runtime run _ _ h.idle hhalt htodo hpending)
    rw [hchoice] at hclaimed
    rw [heq]
    refine ⟨_, _, hclaimed.next (RunStep.unavailable rfl), ?_, fun hnone => (nomatch hnone)⟩
    exact ⟨rfl, congrArg (fun cap => cap.claim step.id) h.capability,
      congrArg (List.cons _) h.visits, rfl⟩
  · rw [← h.capability] at hpending houtcome
    rw [heq, ← h.capability]
    have hcap : (run.capability.claim step.id).ledger = run.capability.ledger := rfl
    refine ⟨_, _, Run.next (Run.next Run.start (RunStep.claimed h.idle hhalt htodo hpending))
      (RunStep.settled rfl (hcap ▸ houtcome)), ?_, fun _ => rfl⟩
    refine ⟨rfl, ?_, ?_, ?_⟩
    · unfold LoopState.recorded
      dsimp only
      rw [← h.capability]
      rfl
    · exact congrArg (List.cons _) h.visits
    · unfold LoopState.recorded
      dsimp only
      rw [← h.capability]
      rfl

theorem runLoop_run (invoke : Invoke) {steps : List Step} (h : Follows run st) (hgoing : st.halt = none)
    (htodo : run.todo = steps) :
    ∃ ls run', Run (RunStep runtime) run ls run' ∧
      Follows run' (runLoop runtime invoke steps st) ∧ (run'.todo = [] ∨ run'.halt ≠ none) := by
  induction steps generalizing run st with
  | nil => exact ⟨[], run, Run.start, h, Or.inl htodo⟩
  | cons step rest ih =>
    obtain ⟨ls, run', hrun, hfollows, hrest⟩ :=
      takeStep_run  h hgoing htodo
    unfold runLoop
    dsimp only
    split
    · rename_i hnone
      obtain ⟨ls', run'', hrun', hfollows', hdone⟩ := ih hfollows hnone (hrest hnone)
      exact ⟨_, _, hrun.append hrun', hfollows', hdone⟩
    · rename_i hsome
      exact ⟨ls, run', hrun, hfollows, Or.inr (hfollows.halt ▸ hsome)⟩

/-- The run has come to the answer of an execution. -/
structure Answers (run : PlanRun) (e : Execution) : Prop where
  idle : run.running = none
  finished : run.todo = [] ∨ run.halt ≠ none
  capability : run.capability = e.capability
  visits : run.visits = e.visits
  recoverable : run.execution.recoverable = e.recoverable

theorem recoverable_nil {e : Execution} (h : e.visits = []) : e.recoverable = none := by
  unfold Execution.recoverable Execution.failure
  rw [h]
  cases e.halt with
  | none => rfl
  | some halt => cases halt <;> rfl

theorem executeImmediate_run (runtime : Runtime) (invoke : Invoke) (cap : Capability)
    (plan slice : List Step) (compensates : Bool) :
    ∃ ls run', Run (RunStep runtime) (PlanRun.start runtime cap plan slice compensates) ls run' ∧
      Answers run' (executeImmediate runtime invoke cap slice) := by
  have hnothing : ∀ e : Execution, e.capability = cap → e.visits = [] →
      (PlanRun.start runtime cap plan slice compensates).todo = [] →
      Answers (PlanRun.start runtime cap plan slice compensates) e := by
    intro e hcap hvisits htodo
    exact ⟨rfl, Or.inl htodo, hcap.symm, hvisits.symm,
      (recoverable_nil rfl).trans (recoverable_nil hvisits).symm⟩
  unfold executeImmediate
  split
  · rename_i hsilent
    exact ⟨[], _, Run.start, hnothing _ rfl rfl (if_pos hsilent)⟩
  rename_i hsilent
  split
  · rename_i hempty
    have hnil := List.isEmpty_iff.mp hempty
    refine ⟨[], _, Run.start, hnothing _ rfl rfl ?_⟩
    unfold PlanRun.start
    dsimp only
    rw [if_neg hsilent, hnil]
    split <;> rfl
  cases hvalidate : validateExecutionSlice cap slice with
  | error message =>
    refine ⟨[], _, Run.start, hnothing _ rfl rfl ?_⟩
    unfold PlanRun.start
    dsimp only
    rw [if_neg hsilent, hvalidate]
  | ok _ =>
    have htodo : (PlanRun.start runtime cap plan slice compensates).todo = orderSteps slice := by
      unfold PlanRun.start
      dsimp only
      rw [if_neg hsilent, hvalidate]
    have hfollows : Follows (PlanRun.start runtime cap plan slice compensates)
        { capability := cap, visits := [], halt := none } := ⟨rfl, rfl, rfl, rfl⟩
    obtain ⟨ls, run', hrun, h, hdone⟩ := runLoop_run invoke hfollows rfl htodo
    refine ⟨ls, run', hrun, h.idle, hdone, h.capability, h.visits, ?_⟩
    unfold PlanRun.execution Execution.recoverable Execution.failure
    dsimp only
    rw [h.halt, h.visits]

theorem ran_run [DecidableEq δ] {env : ChainEnv δ} {s : Chain δ} {i : ℕ} {run run' : PlanRun}
    {ls : List RunLabel} (hi : s.runs i = some run) (h : Run (RunStep env.runtime) run ls run') :
    Run (ChainStep env) s (ls.map (ChainLabel.ran i)) (s.setRun i run') := by
  induction h with
  | start =>
    have hself : s.setRun i run = s := by
      unfold Chain.setRun
      rw [← hi, Function.update_eq_self]
    rw [hself]
    exact Run.start
  | next _ hstep ih =>
    have hset : ∀ a b : PlanRun, (s.setRun i a).setRun i b = s.setRun i b := by
      intro a b
      unfold Chain.setRun
      rw [Function.update_idem]
    rw [← hset]
    exact Run.next ih (ChainStep.ran (Function.update_self _ _ _) hstep)

/-- Wherever a run starts, the first one or a resumed one, the chain can go on as
`execute_immediate_steps` does, whatever the executors make of their steps. -/
theorem executes [DecidableEq δ] {env : ChainEnv δ} {s : Chain δ} {i : ℕ} {cap : Capability}
    {plan slice : List Step} {compensates : Bool} (invoke : Invoke)
    (hi : s.runs i = some (PlanRun.start env.runtime cap plan slice compensates)) :
    ∃ hist run', Run (ChainStep env) s hist (s.setRun i run') ∧
      Answers run' (executeImmediate env.runtime invoke cap slice) ∧
      run'.plan = plan ∧ run'.closed = false := by
  obtain ⟨ls, run', hrun, hanswers⟩ :=
    executeImmediate_run env.runtime invoke cap plan slice compensates
  have hframe : run'.plan = plan ∧ run'.closed = false := by
    refine hrun.invariant (I := fun r => r.plan = plan ∧ r.closed = false) ⟨rfl, rfl⟩ ?_
    intro r l r' h hstep
    exact ⟨hstep.frame.1.trans h.1, hstep.frame.2.trans h.2⟩
  exact ⟨_, run', ran_run hi hrun, hanswers, hframe⟩

theorem resume_executes [DecidableEq δ] {env : ChainEnv δ} {s : Chain δ} {token : ResumeToken δ}
    {j : ℕ} {old : PlanRun} {steps : List Step} {failed : String} {scope : TokenScope} {now : ℤ}
    (invoke : Invoke) (hissued : s.tokens token = some j) (hfresh : token ∉ s.consumed)
    (hold : s.runs j = some old) (htoken : token.valid env.codec scope now steps failed)
    (hmem : failed ∈ ids steps) (hvalid : validatePlan env.knownZone env.limits steps = .ok ()) :
    ∃ hist s' run, Run (ChainStep env) s hist s' ∧ s'.next = s.next + 1 ∧
      s'.runs s.next = some run ∧
      Answers run (resumed env.runtime invoke old.capability steps failed) := by
  have hstart := Run.next Run.start (ChainStep.resumed scope now hissued hfresh hold htoken hmem hvalid)
  have hbegun : ∀ run : PlanRun, ((s.spend token).begin run).runs s.next = some run := by
    intro run
    unfold Chain.begin Chain.spend
    dsimp only
    rw [Function.update_self]
  obtain ⟨hist, run, hrun, hanswers, -, -⟩ := executes invoke (hbegun _)
  refine ⟨_, _, run, hstart.append hrun, rfl, ?_, hanswers⟩
  exact Function.update_self _ _ _

theorem failure_resumes [DecidableEq δ] {env : ChainEnv δ} {plan : List Step} {failed : String}
    (invoke invoke' : Invoke) (hvalid : validatePlan env.knownZone env.limits (orderSteps plan) = .ok ())
    (hmem : failed ∈ ids (orderSteps plan))
    (hfailed : (executeImmediate env.runtime invoke (Capability.mint plan)
      (orderSteps plan)).recoverable = some failed) :
    ∃ hist s run, Run (ChainStep env) (Chain.initial env plan) hist s ∧ s.next = 2 ∧
      s.runs 1 = some run ∧
      Answers run (resumed env.runtime invoke' (executeImmediate env.runtime invoke
        (Capability.mint plan) (orderSteps plan)).capability (orderSteps plan) failed) := by
  obtain ⟨hist, run, hrun, hanswers, hplan, hopen⟩ := executes (s := Chain.initial env plan)
    (i := 0) invoke rfl
  have hself : ∀ (s : Chain δ) (i : ℕ) (r : PlanRun), (s.setRun i r).runs i = some r := by
    intro s i r
    unfold Chain.setRun
    dsimp only
    rw [Function.update_self]
  have hissued := hrun.next (ChainStep.failed ⟨"", "", ""⟩ 0 (hself _ 0 run) hanswers.idle
    hanswers.finished hopen (hanswers.recoverable.trans hfailed))
  have htoken : (⟨⟨"", "", ""⟩, planHash env.codec run.plan, failed, 0, 0 + 900⟩ :
      ResumeToken δ).valid env.codec ⟨"", "", ""⟩ 0 (orderSteps plan) failed :=
    ⟨Int.lt_add_of_pos_right 0 (by decide), Int.lt_add_of_pos_right 0 (by decide), rfl,
      congrArg (planHash env.codec) hplan, rfl⟩
  generalize (⟨⟨"", "", ""⟩, planHash env.codec run.plan, failed, 0, 0 + 900⟩ :
    ResumeToken δ) = token at hissued htoken
  have hfresh : token ∉ ((((Chain.initial env plan).setRun 0 run).setRun 0 run.close).issue
      token 0).consumed := List.not_mem_nil
  have hold : ((((Chain.initial env plan).setRun 0 run).setRun 0 run.close).issue
      token 0).runs 0 = some run.close :=
    hself ((Chain.initial env plan).setRun 0 run) 0 run.close
  obtain ⟨hist', s', run', hrun', hnext, hruns, hanswers'⟩ :=
    resume_executes invoke' (Function.update_self _ _ _) hfresh hold htoken hmem hvalid
  refine ⟨_, s', run', hissued.append hrun', hnext, hruns, ?_⟩
  rw [← hanswers.capability]
  exact hanswers'

end Loop

end Plan
