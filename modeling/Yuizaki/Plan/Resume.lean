import Yuizaki.Plan.Executor

/- Resuming a plan (`resume_immediate_steps`).

   A resume runs the steps downstream of the failed one and of the rolled-back ones.
   Every other step keeps what the ledger holds for it, and where the ledger holds
   nothing it is never run: the plan is completed exactly where the ledger already
   covers the steps outside the retry (`resume_completes`). -/
namespace Plan

open Deps Fallible

variable {runtime : Runtime} {invoke : Invoke} {step : Step} {rest : List Step}
  {st : LoopState} {cap : Capability} {id : String}

/-! ## One turn of the loop -/

def StepChoice.ran : StepChoice → Bool
  | .blocked _ => false
  | .skipped => false
  | _ => true

theorem takeStep_cases (runtime : Runtime) (invoke : Invoke) (step : Step) (rest : List Step)
    (st : LoopState) :
    (st.capability.states step.id ≠ .pending ∧ ∃ message,
      takeStep runtime invoke step rest st = { st with halt := some (.raised message) }) ∨
    (∃ reason, st.capability.states step.id = .pending ∧
      choose runtime step st.capability.ledger = .unavailable reason ∧
      takeStep runtime invoke step rest st =
        { capability := st.capability.claim step.id
          visits := ⟨step, .unavailable reason, none⟩ :: st.visits
          halt := some (.stopped reason) }) ∨
    ∃ outcome, st.capability.states step.id = .pending ∧
      (choose runtime step st.capability.ledger).outcome step st.capability.ledger
        (invoke step st.results) = some outcome ∧
      takeStep runtime invoke step rest st =
        st.recorded step (choose runtime step st.capability.ledger) outcome rest := by
  unfold takeStep
  by_cases hpending : st.capability.states step.id = .pending
  · rw [if_neg (not_not_intro hpending)]
    right
    dsimp only
    cases hchoice : choose runtime step st.capability.ledger with
    | unavailable reason => exact Or.inl ⟨reason, hpending, rfl, rfl⟩
    | blocked | skipped | analysis | join | invoke => exact Or.inr ⟨_, hpending, rfl, rfl⟩
  · rw [if_pos hpending]
    exact Or.inl ⟨hpending, _, rfl⟩

theorem settle_stepId (step : Step) (result : StepResult) :
    (settle step result).stepId = result.stepId := by
  unfold settle
  split <;> rfl

theorem recorded_ledger (choice : StepChoice) (outcome : Outcome) :
    (st.recorded step choice outcome rest).capability.ledger =
      Function.update st.capability.ledger step.id
        (some (settle step (step.result outcome))) := by
  unfold LoopState.recorded Capability.record
  dsimp only
  rw [settle_stepId]
  rfl

theorem recorded_states (choice : StepChoice) (outcome : Outcome) (hne : id ≠ step.id) :
    (st.recorded step choice outcome rest).capability.states id = st.capability.states id := by
  unfold LoopState.recorded Capability.record Capability.claim
  dsimp only
  rw [settle_stepId]
  change Function.update _ step.id _ id = _
  rw [Function.update_of_ne hne, Function.update_of_ne hne]

/-! ## The loop -/

theorem mem_runLoop {v : Visit} {steps : List Step} (hv : v ∈ st.visits) :
    v ∈ (runLoop runtime invoke steps st).visits := by
  induction steps generalizing st with
  | nil => exact hv
  | cons step rest ih =>
    unfold runLoop
    dsimp only
    have hnext : v ∈ (takeStep runtime invoke step rest st).visits := by
      rcases takeStep_cases runtime invoke step rest st with
        ⟨-, _, heq⟩ | ⟨_, -, -, heq⟩ | ⟨_, -, -, heq⟩
      · rw [heq]
        exact hv
      · rw [heq]
        exact List.mem_cons_of_mem _ hv
      · rw [heq]
        exact List.mem_cons_of_mem _ hv
    split
    · exact ih hnext
    · exact hnext

theorem runLoop_ledger {steps : List Step} (hid : id ∉ ids steps) :
    (runLoop runtime invoke steps st).capability.ledger id = st.capability.ledger id := by
  induction steps generalizing st with
  | nil => rfl
  | cons step rest ih =>
    have hne : id ≠ step.id := fun heq => hid (heq ▸ List.mem_cons_self)
    have hrest : id ∉ ids rest := fun hmem => hid (List.mem_cons_of_mem _ hmem)
    have hnext : (takeStep runtime invoke step rest st).capability.ledger id =
        st.capability.ledger id := by
      rcases takeStep_cases runtime invoke step rest st with
        ⟨-, _, heq⟩ | ⟨_, -, -, heq⟩ | ⟨_, -, -, heq⟩
      · rw [heq]
      · rw [heq]
        rfl
      · rw [heq, recorded_ledger, Function.update_of_ne hne]
    unfold runLoop
    dsimp only
    split
    · rw [ih hrest, hnext]
    · exact hnext

/-! ## A resume in which everything succeeds -/

/-- Every step that ran has a completed result. -/
def AllSucceed (visits : List Visit) : Prop :=
  ∀ v ∈ visits, v.choice.ran = true → v.result.any (·.completed) = true

/-- Every condition that was evaluated selected its step. -/
def AllSelected (visits : List Visit) : Prop := ∀ v ∈ visits, v.choice ≠ .skipped

instance (visits : List Visit) : Decidable (AllSucceed visits) :=
  inferInstanceAs (Decidable (∀ v ∈ visits, _))

instance (visits : List Visit) : Decidable (AllSelected visits) :=
  inferInstanceAs (Decidable (∀ v ∈ visits, _))

theorem stopAfter_completed {result : StepResult} {ledger : Ledger}
    (h : result.completed = true) : stopAfter step result rest ledger = none := by
  have hstatus : result.status = "ok" ∨ result.status = "created" := by
    have hmem := (of_decide_eq_true h).2
    simpa using hmem
  unfold stopAfter
  rcases hstatus with hstatus | hstatus <;> rw [hstatus] <;> cases step.kind <;> simp

theorem choose_ready (hready : ∀ d ∈ step.dependsOn, st.capability.ledger.completed d = true) :
    choose runtime step st.capability.ledger = .skipped ∨
      choose runtime step st.capability.ledger = step.body.choice runtime := by
  have hnone : blockedPredecessors step st.capability.ledger = [] := by
    unfold blockedPredecessors
    rw [List.filter_eq_nil_iff]
    intro d hd hblocked
    have hincomplete := (of_decide_eq_true hblocked).1
    rw [hready d hd] at hincomplete
    cases hincomplete
  unfold choose
  rw [if_neg (fun h => h.2 hnone)]
  split
  · exact Or.inl rfl
  · exact Or.inr rfl

theorem StepBody.choice_ran (body : StepBody) (runtime : Runtime) :
    (body.choice runtime).ran = true := by
  cases body with
  | agent =>
    simp only [StepBody.choice]
    split
    · rfl
    split <;> rfl
  | analysis | tool | schedule | join => rfl

theorem takeStep_completes (hpending : st.capability.states step.id = .pending)
    (hdeps : ∀ d ∈ step.dependsOn, st.capability.ledger.completed d = true)
    (hsucceed : AllSucceed (takeStep runtime invoke step rest st).visits)
    (hselected : AllSelected (takeStep runtime invoke step rest st).visits) :
    ∃ outcome, (settle step (step.result outcome)).completed = true ∧
      (choose runtime step st.capability.ledger).ran = true ∧
      (takeStep runtime invoke step rest st).halt = none ∧
      takeStep runtime invoke step rest st =
        st.recorded step (choose runtime step st.capability.ledger) outcome rest := by
  rcases takeStep_cases runtime invoke step rest st with
    ⟨hnot, -⟩ | ⟨reason, -, -, heq⟩ | ⟨outcome, -, -, heq⟩
  · exact absurd hpending hnot
  · rw [heq] at hsucceed
    have hnone := hsucceed _ List.mem_cons_self rfl
    cases hnone
  · rw [heq] at hsucceed hselected ⊢
    have hran : (choose runtime step st.capability.ledger).ran = true := by
      rcases (choose_ready hdeps :
          choose runtime step _ = _ ∨ _) with hskip | hbody
      · exact absurd hskip (hselected _ List.mem_cons_self)
      · rw [hbody]
        exact step.body.choice_ran runtime
    have hcompleted : (settle step (step.result outcome)).completed = true :=
      hsucceed _ List.mem_cons_self hran
    refine ⟨outcome, hcompleted, hran, ?_, rfl⟩
    unfold LoopState.recorded
    dsimp only
    rw [stopAfter_completed hcompleted]
    split <;> rfl

/-- Where every step finds its dependencies completed or still to come, and everything
that runs succeeds, the loop runs every step and completes it. -/
theorem runLoop_completes {known done : List String} {steps : List Step}
    (hready : ReadyOrder Step.id Step.dependsOn known done steps)
    (hnodup : (ids steps).Nodup) (hknown : ∀ s ∈ steps, s.id ∈ known)
    (hpending : ∀ s ∈ steps, st.capability.states s.id = .pending)
    (hdone : ∀ d ∈ done, st.capability.ledger.completed d = true)
    (hout : ∀ s ∈ steps, ∀ d ∈ s.dependsOn, d ∉ known →
      st.capability.ledger.completed d = true)
    (hsucceed : AllSucceed (runLoop runtime invoke steps st).visits)
    (hselected : AllSelected (runLoop runtime invoke steps st).visits) :
    ∀ s ∈ steps, (runLoop runtime invoke steps st).capability.ledger.completed s.id = true ∧
      ∃ v ∈ (runLoop runtime invoke steps st).visits, v.step = s ∧ v.choice.ran = true := by
  induction steps generalizing st done with
  | nil => exact fun s hs => (nomatch hs)
  | cons step rest ih =>
    obtain ⟨hfresh, hnodup'⟩ := List.nodup_cons.mp hnodup
    have hdeps : ∀ d ∈ step.dependsOn, st.capability.ledger.completed d = true := by
      intro d hd
      by_cases hk : d ∈ known
      · exact hdone d (hready.1 d hd hk)
      · exact hout step List.mem_cons_self d hd hk
    -- the visits of this turn are among the visits of the whole loop
    have hvisit : ∀ v ∈ (takeStep runtime invoke step rest st).visits,
        v ∈ (runLoop runtime invoke (step :: rest) st).visits := by
      intro v hv
      unfold runLoop
      dsimp only
      split
      · exact mem_runLoop hv
      · exact hv
    obtain ⟨outcome, hcompleted, hran, hhalt, hturn⟩ :=
      takeStep_completes (hpending step List.mem_cons_self) hdeps
        (fun v hv => hsucceed v (hvisit v hv)) (fun v hv => hselected v (hvisit v hv))
    have hloop : runLoop runtime invoke (step :: rest) st =
        runLoop runtime invoke rest (takeStep runtime invoke step rest st) := by
      rw [runLoop, if_pos hhalt]
    have hledger : ∀ d, st.capability.ledger.completed d = true ∨ d = step.id →
        (takeStep runtime invoke step rest st).capability.ledger.completed d = true := by
      intro d hd
      rw [hturn, Ledger.completed, recorded_ledger]
      by_cases hstep : d = step.id
      · rw [hstep, Function.update_self]
        exact hcompleted
      · rw [Function.update_of_ne hstep]
        exact hd.resolve_right hstep
    have hmine : (⟨step, choose runtime step st.capability.ledger,
        some (settle step (step.result outcome))⟩ : Visit) ∈
        (takeStep runtime invoke step rest st).visits := by
      rw [hturn]
      exact List.mem_cons_self
    rw [hloop] at hsucceed hselected ⊢
    intro s hs
    rcases List.mem_cons.mp hs with rfl | hs
    · refine ⟨?_, _, mem_runLoop hmine, rfl, hran⟩
      rw [Ledger.completed, runLoop_ledger hfresh]
      exact hledger _ (Or.inr rfl)
    refine ih hready.2 hnodup' (fun s hs => hknown s (List.mem_cons_of_mem _ hs)) ?_ ?_ ?_
      hsucceed hselected s hs
    · intro s hs
      have hne : s.id ≠ step.id := fun heq => hfresh (heq ▸ List.mem_map.mpr ⟨s, hs, rfl⟩)
      rw [hturn, recorded_states _ _ hne]
      exact hpending s (List.mem_cons_of_mem _ hs)
    · intro d hd
      rcases List.mem_cons.mp hd with rfl | hd
      · exact hledger _ (Or.inr rfl)
      · exact hledger _ (Or.inl (hdone d hd))
    · intro s hs d hd hk
      exact hledger _ (Or.inl (hout s (List.mem_cons_of_mem _ hs) d hd hk))

/-! ## The steps a resume runs again -/

/-- A step depends on another through the plan, or is that step. -/
def DependsOn (steps : List Step) (a b : String) : Prop :=
  Downstream Step.id Step.dependsOn steps a b

/-- The step is downstream of the failed step or of a rolled-back one. -/
def Retried (steps : List Step) (ledger : Ledger) (failed id : String) : Prop :=
  DependsOn steps failed id ∨
    ∃ r ∈ ids steps, (ledger r).any (fun result => result.status = "rolled_back") = true ∧
      DependsOn steps r id

variable {steps : List Step} {failed : String} {old : Capability}

theorem mem_retryClosure : id ∈ retryClosure steps failed ↔ DependsOn steps failed id := by
  unfold retryClosure
  rw [mem_closure]
  constructor
  · rintro ⟨a, ha, hd⟩
    rw [List.mem_singleton.mp ha] at hd
    exact hd
  · intro hd
    exact ⟨failed, List.mem_singleton_self _, hd⟩

theorem mem_retryIds {ledger : Ledger} :
    id ∈ retryIds steps ledger failed ↔ Retried steps ledger failed id := by
  unfold retryIds Retried
  rw [List.mem_append, mem_retryClosure, List.mem_flatMap]
  refine or_congr_right ?_
  constructor
  · rintro ⟨r, hr, hid⟩
    obtain ⟨hmem, hrolled⟩ := List.mem_filter.mp hr
    exact ⟨r, hmem, hrolled, mem_retryClosure.mp hid⟩
  · rintro ⟨r, hmem, hrolled, hid⟩
    exact ⟨r, List.mem_filter.mpr ⟨hmem, hrolled⟩, mem_retryClosure.mpr hid⟩

theorem mem_retrySlice : step ∈ retrySlice old steps failed ↔
    step ∈ steps ∧ Retried steps old.ledger failed step.id := by
  unfold retrySlice orderSteps
  rw [List.mem_filter, mem_order, decide_eq_true_iff, mem_retryIds]

theorem ids_retrySlice : id ∈ ids (retrySlice old steps failed) ↔
    id ∈ ids steps ∧ Retried steps old.ledger failed id := by
  unfold ids
  rw [List.mem_map, List.mem_map]
  constructor
  · rintro ⟨s, hs, rfl⟩
    obtain ⟨hmem, hretried⟩ := mem_retrySlice.mp hs
    exact ⟨⟨s, hmem, rfl⟩, hretried⟩
  · rintro ⟨⟨s, hmem, rfl⟩, hretried⟩
    exact ⟨s, mem_retrySlice.mpr ⟨hmem, hretried⟩, rfl⟩

theorem resume_ledger_other (h : ¬ Retried steps old.ledger failed id) :
    (old.resume steps failed).ledger id = old.ledger id := by
  unfold Capability.resume
  dsimp only
  rw [if_neg (fun hmem => h (mem_retryIds.mp hmem))]

theorem nodup_retrySlice (hvalid : Validated steps) :
    (ids (retrySlice old steps failed)).Nodup := by
  have hperm : (ids (orderSteps steps)).Perm (ids steps) := order_perm.map Step.id
  have hsub : (ids (retrySlice old steps failed)).Sublist (ids (orderSteps steps)) :=
    List.filter_sublist.map Step.id
  exact hsub.nodup (hperm.nodup_iff.mpr hvalid.nodup)

theorem ready_retrySlice (hvalid : Validated steps) :
    ReadyOrder Step.id Step.dependsOn (ids (retrySlice old steps failed)) []
      (retrySlice old steps failed) := by
  refine readyOrder_filter hvalid.ordered ?_ (fun d hd => (nomatch hd)) ?_
  · intro d hd
    exact (ids_retrySlice.mp hd).1
  · intro s hs hout hmem
    have hretried := mem_retryIds.mpr (ids_retrySlice.mp hmem).2
    rw [decide_eq_true hretried] at hout
    cases hout

/-! ## What completes a plan -/

/-- After the resume every step has a result, no step was refused, and the steps that
had none were run. -/
structure Completes (plan : List Step) (before : Ledger) (e : Execution) : Prop where
  accepted : e.error = none
  results : ∀ step ∈ plan, (e.capability.ledger step.id).isSome = true
  reached : ∀ step ∈ plan, before step.id = none →
    ∃ v ∈ e.visits, v.step = step ∧ v.choice.ran = true

/-- The ledger covers every step outside the retry, and shows every step that the retry
depends on as completed. -/
structure Reconciled (plan : List Step) (ledger : Ledger) (failed : String) : Prop where
  covered : ∀ step ∈ plan, ¬ Retried plan ledger failed step.id → ledger step.id ≠ none
  proved : ∀ step ∈ plan, Retried plan ledger failed step.id → ∀ d ∈ step.dependsOn,
    ¬ Retried plan ledger failed d → ledger.completed d = true

theorem validateExecutionSlice_ok {slice : List Step} (hnodup : (ids cap.steps).Nodup)
    (hsub : ∀ s ∈ slice, s ∈ cap.steps) :
    validateExecutionSlice cap slice = .ok () ↔ ∀ s ∈ slice, ∀ d ∈ s.dependsOn,
      d ∉ ids slice → cap.ledger.completed d = true := by
  have hids : ∀ id ∈ ids slice, id ∈ ids cap.steps := by
    intro id hid
    obtain ⟨s, hs, rfl⟩ := List.mem_map.mp hid
    exact List.mem_map.mpr ⟨s, hsub s hs, rfl⟩
  have hsame : slice.find? (fun step =>
      (cap.steps.find? (fun s => s.id = step.id)).map Step.toDict ≠ some step.toDict) = none := by
    rw [List.find?_eq_none]
    intro s hs hne
    rw [find_step hnodup (hsub s hs)] at hne
    simp at hne
  have hmissing : (∀ s ∈ slice, missingProof cap slice s = []) ↔ ∀ s ∈ slice,
      ∀ d ∈ s.dependsOn, d ∉ ids slice → cap.ledger.completed d = true := by
    refine forall₂_congr fun s _ => ?_
    unfold missingProof
    rw [List.filter_eq_nil_iff]
    refine forall₂_congr fun d _ => ?_
    simp
  unfold validateExecutionSlice
  rw [if_neg (not_not_intro hids), hsame]
  rw [← hmissing]
  dsimp only
  cases hfind : slice.find? (fun step => missingProof cap slice step ≠ []) with
  | some s =>
    refine ⟨fun h => (nomatch h), fun h => ?_⟩
    have hs := List.find?_some hfind
    have hnil := h s (List.mem_of_find?_eq_some hfind)
    simp [hnil] at hs
  | none =>
    refine ⟨fun _ s hs => ?_, fun _ => rfl⟩
    have hs' := List.find?_eq_none.mp hfind s hs
    simpa using hs'

section Resumed

def resumed (runtime : Runtime) (invoke : Invoke) (old : Capability) (steps : List Step)
    (failed : String) : Execution :=
  executeImmediate runtime invoke (old.resume steps failed) (retrySlice old steps failed)

def resumedLoop (runtime : Runtime) (invoke : Invoke) (old : Capability) (steps : List Step)
    (failed : String) : LoopState :=
  runLoop runtime invoke (retrySlice old steps failed)
    { capability := old.resume steps failed, visits := [], halt := none }

theorem validate_retrySlice (hvalid : Validated steps) :
    validateExecutionSlice (old.resume steps failed) (retrySlice old steps failed) = .ok () ↔
      ∀ s ∈ steps, Retried steps old.ledger failed s.id → ∀ d ∈ s.dependsOn,
        ¬ Retried steps old.ledger failed d → old.ledger.completed d = true := by
  have hsub : ∀ s ∈ retrySlice old steps failed, s ∈ (old.resume steps failed).steps :=
    fun s hs => (mem_retrySlice.mp hs).1
  rw [validateExecutionSlice_ok hvalid.nodup hsub]
  have hledger : ∀ d, ¬ Retried steps old.ledger failed d →
      (old.resume steps failed).ledger.completed d = old.ledger.completed d := by
    intro d hd
    unfold Ledger.completed
    rw [resume_ledger_other hd]
  constructor
  · intro h s hs hretried d hd hout
    rw [← hledger d hout]
    refine h s (mem_retrySlice.mpr ⟨hs, hretried⟩) d hd ?_
    exact fun hmem => hout (ids_retrySlice.mp hmem).2
  · intro h s hs d hd hout
    obtain ⟨hmem, hretried⟩ := mem_retrySlice.mp hs
    have hother : ¬ Retried steps old.ledger failed d :=
      fun hd' => hout (ids_retrySlice.mpr ⟨hvalid.known s hmem d hd, hd'⟩)
    rw [hledger d hother]
    exact h s hmem hretried d hd hother

theorem resumed_cases (invoke : Invoke) (old : Capability) (hvalid : Validated steps)
    (hfailed : failed ∈ ids steps) (hsilent : runtime.silent = false) :
    ((resumed runtime invoke old steps failed).error = none ∧
      validateExecutionSlice (old.resume steps failed) (retrySlice old steps failed) = .ok () ∧
      (resumed runtime invoke old steps failed).capability =
        (resumedLoop runtime invoke old steps failed).capability ∧
      (resumed runtime invoke old steps failed).visits =
        (resumedLoop runtime invoke old steps failed).visits) ∨
    ((resumed runtime invoke old steps failed).error ≠ none ∧
      validateExecutionSlice (old.resume steps failed) (retrySlice old steps failed) ≠
        .ok ()) := by
  obtain ⟨s, hs, hid⟩ := List.mem_map.mp hfailed
  have hmem : s ∈ retrySlice old steps failed :=
    mem_retrySlice.mpr ⟨hs, Or.inl (hid ▸ Relation.ReflTransGen.refl)⟩
  have hempty : (retrySlice old steps failed).isEmpty = false := by
    cases hslice : retrySlice old steps failed with
    | nil =>
      rw [hslice] at hmem
      cases hmem
    | cons => rfl
  have horder : orderSteps (retrySlice old steps failed) = retrySlice old steps failed :=
    order_ready (ready_retrySlice hvalid)
  unfold resumed executeImmediate resumedLoop
  rw [hsilent, hempty, if_neg Bool.false_ne_true, if_neg Bool.false_ne_true]
  cases hvalidate : validateExecutionSlice (old.resume steps failed)
      (retrySlice old steps failed) with
  | error message =>
    right
    exact ⟨fun h => (nomatch h), fun h => (nomatch h)⟩
  | ok _ =>
    left
    dsimp only
    rw [horder]
    exact ⟨rfl, rfl, rfl, rfl⟩

theorem resumedLoop_completes (hvalid : Validated steps)
    (hproved : ∀ s ∈ steps, Retried steps old.ledger failed s.id → ∀ d ∈ s.dependsOn,
      ¬ Retried steps old.ledger failed d → old.ledger.completed d = true)
    (hsucceed : AllSucceed (resumedLoop runtime invoke old steps failed).visits)
    (hselected : AllSelected (resumedLoop runtime invoke old steps failed).visits) :
    ∀ s ∈ retrySlice old steps failed,
      (resumedLoop runtime invoke old steps failed).capability.ledger.completed s.id = true ∧
      ∃ v ∈ (resumedLoop runtime invoke old steps failed).visits,
        v.step = s ∧ v.choice.ran = true := by
  refine runLoop_completes (ready_retrySlice hvalid) (nodup_retrySlice hvalid) ?_ ?_ ?_ ?_
    hsucceed hselected
  · intro s hs
    exact List.mem_map.mpr ⟨s, hs, rfl⟩
  · intro s hs
    exact if_pos (mem_retryIds.mpr (mem_retrySlice.mp hs).2)
  · exact fun d hd => (nomatch hd)
  · intro s hs d hd hout
    obtain ⟨hmem, hretried⟩ := mem_retrySlice.mp hs
    have hother : ¬ Retried steps old.ledger failed d :=
      fun hd' => hout (ids_retrySlice.mpr ⟨hvalid.known s hmem d hd, hd'⟩)
    change (old.resume steps failed).ledger.completed d = true
    unfold Ledger.completed
    rw [resume_ledger_other hother]
    exact hproved s hmem hretried d hd hother

/-- Where everything a resume runs succeeds and every condition selects its step, the
resume completes the plan exactly where the ledger before it was reconciled. -/
theorem resumed_completes (hvalid : Validated steps) (hfailed : failed ∈ ids steps)
    (hsilent : runtime.silent = false)
    (hsucceed : AllSucceed (resumed runtime invoke old steps failed).visits)
    (hselected : AllSelected (resumed runtime invoke old steps failed).visits) :
    Completes steps old.ledger (resumed runtime invoke old steps failed) ↔
      Reconciled steps old.ledger failed := by
  rcases resumed_cases invoke old hvalid hfailed hsilent with
    ⟨herror, hvalidate, hcap, hvisits⟩ | ⟨herror, hrefused⟩
  · have hproved := (validate_retrySlice hvalid).mp hvalidate
    rw [hvisits] at hsucceed hselected
    have hloop := resumedLoop_completes hvalid hproved hsucceed hselected
    have hother : ∀ id, ¬ Retried steps old.ledger failed id →
        (resumed runtime invoke old steps failed).capability.ledger id = old.ledger id := by
      intro id hid
      rw [hcap, ← resume_ledger_other hid]
      exact runLoop_ledger (fun hmem => hid (ids_retrySlice.mp hmem).2)
    constructor
    · intro h
      refine ⟨?_, hproved⟩
      intro s hs hid hnone
      have hsome := h.results s hs
      rw [hother s.id hid, hnone] at hsome
      cases hsome
    · intro h
      refine ⟨herror, ?_, ?_⟩
      · intro s hs
        by_cases hid : Retried steps old.ledger failed s.id
        · obtain ⟨hcompleted, -⟩ := hloop s (mem_retrySlice.mpr ⟨hs, hid⟩)
          rw [hcap]
          exact Option.isSome_of_any hcompleted
        · rw [hother s.id hid]
          exact Option.isSome_iff_ne_none.mpr (h.covered s hs hid)
      · intro s hs hnone
        have hid : Retried steps old.ledger failed s.id := by
          by_contra hid
          exact h.covered s hs hid hnone
        rw [hvisits]
        exact (hloop s (mem_retrySlice.mpr ⟨hs, hid⟩)).2
  · constructor
    · exact fun h => absurd h.accepted herror
    · exact fun h => absurd ((validate_retrySlice hvalid).mpr h.proved) hrefused

end Resumed

/-! ## From a failed run to its resume -/

theorem executePlan_valid {pre : Preflight} {remove : String → Bool} {plan : List Step}
    {e : Execution} (h : executePlan pre runtime invoke remove plan = .ok e) :
    Validated plan := by
  unfold executePlan at h
  obtain ⟨cap, hcap, -⟩ := bind_ok.mp h
  unfold preflightPlan at hcap
  obtain ⟨_, hvalid, -⟩ := bind_ok.mp hcap
  exact validatePlan_ok hvalid

theorem resumeSteps_ok {pre : Preflight} {e : Execution}
    (h : resumeSteps pre runtime invoke old steps failed = .ok e) :
    failed ∈ ids steps ∧ e = resumed runtime invoke old steps failed := by
  unfold resumeSteps at h
  obtain ⟨hfailed, h⟩ := ensure_bind.mp h
  obtain ⟨_, -, h⟩ := bind_ok.mp h
  cases h
  exact ⟨hfailed, rfl⟩

theorem silent_not_completes (hfailed : failed ∈ ids steps) (hsilent : runtime.silent = true)
    {before : Ledger} : ¬ Completes steps before (resumed runtime invoke old steps failed) := by
  intro h
  obtain ⟨s, hs, rfl⟩ := List.mem_map.mp hfailed
  have hsome := h.results s hs
  have hledger : (resumed runtime invoke old steps s.id).capability.ledger s.id = none := by
    unfold resumed executeImmediate
    rw [if_pos hsilent]
    exact if_pos (mem_retryIds.mpr (Or.inl Relation.ReflTransGen.refl))
  rw [hledger] at hsome
  cases hsome

/-- A plan has run and is resumed at a step, and on resume everything that runs succeeds
and every condition selects its step: every step then has a result, and the unreached ones
were run, exactly where the resume may run at all, and the first run left no step outside
the retry without a result and no incomplete one that the retry depends on. -/
theorem resume_completes {pre pre' : Preflight} {runtime runtime' : Runtime}
    {invoke invoke' : Invoke} {remove : String → Bool} {plan : List Step} {e e' : Execution}
    (hrun : executePlan pre runtime invoke remove plan = .ok e)
    (hresume : resumeSteps pre' runtime' invoke' e.capability plan failed = .ok e')
    (hsucceed : AllSucceed e'.visits) (hselected : AllSelected e'.visits) :
    Completes plan e.capability.ledger e' ↔
      runtime'.silent = false ∧ Reconciled plan e.capability.ledger failed := by
  obtain ⟨hmem, rfl⟩ := resumeSteps_ok hresume
  cases hsilent : runtime'.silent with
  | true =>
    refine ⟨fun h => absurd h (silent_not_completes hmem hsilent), ?_⟩
    exact fun h => (nomatch h.1)
  | false =>
    rw [resumed_completes (executePlan_valid hrun) hmem hsilent hsucceed hselected]
    exact ⟨fun h => ⟨rfl, h⟩, fun h => h.2⟩

/-! ## A run and its resume, evaluated -/

/-- A tool step with the default contract. -/
def toolStep (id : String) (dependsOn : List String) : Step where
  id
  title := id
  description := ""
  payload := none
  dependsOn
  condition := none
  ownerAgentId := none
  ownerAgentRole := none
  routeReason := none
  successCriteria := some defaultCriteria
  planVersion := 2
  compatibilityTrace := none
  body := .tool (some "browser.open_page") [] (some (.int 30)) 0 "step_executor" ("plan:" ++ id)

/-- A preflight with the default limits whose gates let everything pass. -/
def openPreflight : Preflight where
  knownZone := fun _ => false
  limits := {}
  gate := fun _ => .ok ()

def fullRuntime : Runtime where
  silent := false
  toolRegistry := true
  toolExecutor := true
  scheduler := true

def allOk : Invoke := fun _ _ => { status := "ok", success := true }

def failsAt (id : String) : Invoke := fun step _ =>
  if step.id = id then { status := "error", success := false, error := some "tool_failed" }
  else { status := "ok", success := true }

/-- A run in which one step fails, and its resume in which nothing does. -/
def runThenResume (plan : List Step) (failed : String) : Except String (Execution × Execution) := do
  let e ← executePlan openPreflight fullRuntime (failsAt failed) (fun _ => true) plan
  let e' ← resumeSteps openPreflight fullRuntime allOk e.capability plan failed
  .ok (e, e')

theorem runThenResume_ok {plan : List Step} {r : Execution × Execution}
    (h : runThenResume plan failed = .ok r) :
    executePlan openPreflight fullRuntime (failsAt failed) (fun _ => true) plan = .ok r.1 ∧
      resumeSteps openPreflight fullRuntime allOk r.1.capability plan failed = .ok r.2 := by
  obtain ⟨e, he, h⟩ := bind_ok.mp h
  obtain ⟨e', he', h⟩ := bind_ok.mp h
  cases h
  exact ⟨he, he'⟩

/-- In a chain of steps the resume completes the plan. -/
theorem resume_completes_chain : ∃ e e',
    executePlan openPreflight fullRuntime (failsAt "b") (fun _ => true)
      [toolStep "a" [], toolStep "b" ["a"]] = .ok e ∧
    resumeSteps openPreflight fullRuntime allOk e.capability
      [toolStep "a" [], toolStep "b" ["a"]] "b" = .ok e' ∧
    (Completes [toolStep "a" [], toolStep "b" ["a"]] e.capability.ledger e' ↔
      fullRuntime.silent = false ∧
        Reconciled [toolStep "a" [], toolStep "b" ["a"]] e.capability.ledger "b") := by
  have heval : (runThenResume [toolStep "a" [], toolStep "b" ["a"]] "b").toOption.map
      (fun r => (decide (AllSucceed r.2.visits), decide (AllSelected r.2.visits))) =
      some (true, true) := by
    decide +kernel
  obtain ⟨r, hr, hall⟩ := Option.map_eq_some_iff.mp heval
  obtain ⟨hrun, hresume⟩ := runThenResume_ok (toOption_some hr)
  simp only [Prod.mk.injEq] at hall
  obtain ⟨hsucceed, hselected⟩ := hall
  exact ⟨r.1, r.2, hrun, hresume, resume_completes hrun hresume (of_decide_eq_true hsucceed)
    (of_decide_eq_true hselected)⟩

/-- Two independent steps: the first fails before the second is reached, the failure is
recoverable, and after a resume in which everything succeeds the second has no result. -/
theorem resume_leaves_unreached : ∃ plan e e' failed,
    executePlan openPreflight fullRuntime (failsAt failed) (fun _ => true) plan = .ok e ∧
    e.recoverable = some failed ∧
    resumeSteps openPreflight fullRuntime allOk e.capability plan failed = .ok e' ∧
    AllSucceed e'.visits ∧ AllSelected e'.visits ∧ ¬ Completes plan e.capability.ledger e' := by
  have heval : (runThenResume [toolStep "a" [], toolStep "b" []] "a").toOption.map
      (fun r => (r.1.recoverable, decide (AllSucceed r.2.visits),
        decide (AllSelected r.2.visits), (r.2.capability.ledger "b").isSome)) =
      some (some "a", true, true, false) := by
    decide +kernel
  obtain ⟨r, hr, hall⟩ := Option.map_eq_some_iff.mp heval
  obtain ⟨hrun, hresume⟩ := runThenResume_ok (toOption_some hr)
  simp only [Prod.mk.injEq] at hall
  obtain ⟨hfailed, hsucceed, hselected, hnone⟩ := hall
  refine ⟨[toolStep "a" [], toolStep "b" []], r.1, r.2, "a", hrun, hfailed, hresume, of_decide_eq_true hsucceed,
    of_decide_eq_true hselected, ?_⟩
  intro h
  have hsome := h.results (toolStep "b" []) (by simp)
  change (r.2.capability.ledger "b").isSome = true at hsome
  rw [hnone] at hsome
  cases hsome

end Plan
