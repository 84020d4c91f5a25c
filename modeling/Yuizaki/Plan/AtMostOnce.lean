import Yuizaki.Lib.Run
import Yuizaki.Plan.Chain
import Yuizaki.Plan.Resume

/- No step that is clear of failures runs twice.

   Everything hangs on three facts, each kept by every step of a chain. A capability
   moves a step only forwards, and claims it only where it is pending (`RunStep.advance`,
   `RunStep.claimed_spec`). A token names a step that failed and carries the hash of its
   run's plan, so whatever plan it is presented with has the same dependencies
   (`SamePlan`). A resume leaves pending only what lies downstream of a failed or a
   rolled-back step (`resume_states`). So the executor of any other step is invoked by the
   first run or not at all (`at_most_once`). -/
namespace Plan

open Deps Transition

variable {δ : Type} {plan steps steps' : List Step} {runtime : Runtime} {run run' : PlanRun}
  {failed failed' : List String} {id : String}

/-! ## States only move forwards -/

/-- One move of the state of a step, or none. -/
inductive StepState.Advance : StepState → StepState → Prop
  | stays (a : StepState) : Advance a a
  | claimed : Advance .pending .running
  | settled : Advance .running .terminal

theorem StepState.Advance.of_terminal {b : StepState} (h : StepState.Advance .terminal b) :
    b = .terminal := by
  cases h
  rfl

theorem StepState.Advance.to_pending {a : StepState} (h : StepState.Advance a .pending) :
    a = .pending := by
  cases h
  rfl

/-! ## Plans with the same dependencies -/

/-- The same identifiers with the same dependencies. -/
structure SamePlan (steps steps' : List Step) : Prop where
  ids : ∀ id, id ∈ ids steps ↔ id ∈ ids steps'
  edge : ∀ a b, Edge Step.id Step.dependsOn steps a b ↔ Edge Step.id Step.dependsOn steps' a b

theorem SamePlan.trans {steps'' : List Step} (h : SamePlan steps steps')
    (h' : SamePlan steps' steps'') : SamePlan steps steps'' where
  ids id := (h.ids id).trans (h'.ids id)
  edge a b := (h.edge a b).trans (h'.edge a b)

theorem SamePlan.dependsOn (h : SamePlan steps steps') {a b : String} :
    DependsOn steps a b ↔ DependsOn steps' a b := by
  have hedge : Edge Step.id Step.dependsOn steps = Edge Step.id Step.dependsOn steps' := by
    funext a b
    exact propext (h.edge a b)
  unfold DependsOn Downstream
  rw [hedge]

theorem samePlan_of_steps
    (h : ∀ s ∈ steps, ∃ s' ∈ steps', s'.id = s.id ∧ s'.dependsOn.Perm s.dependsOn)
    (h' : ∀ s ∈ steps', ∃ s' ∈ steps, s'.id = s.id ∧ s'.dependsOn.Perm s.dependsOn) :
    SamePlan steps steps' := by
  have hids : ∀ {p q : List Step},
      (∀ s ∈ p, ∃ s' ∈ q, s'.id = s.id ∧ s'.dependsOn.Perm s.dependsOn) →
      ∀ id ∈ Plan.ids p, id ∈ Plan.ids q := by
    intro p q hpq id hid
    obtain ⟨s, hs, rfl⟩ := List.mem_map.mp hid
    obtain ⟨s', hs', heq, -⟩ := hpq s hs
    exact List.mem_map.mpr ⟨s', hs', heq⟩
  have hedge : ∀ {p q : List Step},
      (∀ s ∈ p, ∃ s' ∈ q, s'.id = s.id ∧ s'.dependsOn.Perm s.dependsOn) →
      ∀ a b, Edge Step.id Step.dependsOn p a b → Edge Step.id Step.dependsOn q a b := by
    intro p q hpq a b hab
    obtain ⟨s, hs, rfl, ha⟩ := hab
    obtain ⟨s', hs', heq, hperm⟩ := hpq s hs
    exact ⟨s', hs', heq, hperm.mem_iff.mpr ha⟩
  exact ⟨fun id => ⟨hids h id, hids h' id⟩, fun a b => ⟨hedge h a b, hedge h' a b⟩⟩

theorem samePlan_of_perm (h : steps.Perm steps') : SamePlan steps steps' := by
  refine samePlan_of_steps ?_ ?_
  · intro s hs
    exact ⟨s, h.mem_iff.mp hs, rfl, List.Perm.refl _⟩
  · intro s hs
    exact ⟨s, h.mem_iff.mpr hs, rfl, List.Perm.refl _⟩

theorem samePlan_of_planHash {codec : Codec δ} (hdigest : Function.Injective codec.digest)
    (hnodup : (ids steps).Nodup) (hnodup' : (ids steps').Nodup)
    (h : planHash codec steps = planHash codec steps') : SamePlan steps steps' :=
  samePlan_of_steps (planHash_steps hdigest hnodup hnodup' h)
    (planHash_steps hdigest hnodup' hnodup h.symm)

/-! ## One run -/

/-- What holds of a run of the plan; `failed` are the steps that failed or were rolled
back so far. -/
structure RunInv (plan : List Step) (failed : List String) (run : PlanRun) : Prop where
  same : SamePlan plan run.plan
  nodup : (ids run.plan).Nodup
  todo : ∀ step ∈ run.todo, step.id ∈ ids plan
  running : ∀ step choice, run.running = some (step, choice) →
    step.id ∈ ids plan ∧ run.capability.states step.id = .running
  ledger : ∀ id result, run.capability.ledger id = some result →
    id ∈ ids plan ∧ run.capability.states id = .terminal ∧
      (result.status = "rolled_back" → id ∈ failed)
  visits : ∀ v ∈ run.visits, ∀ result, v.result = some result →
    result.status ∈ failureStatuses → result.stepId ∈ failed

theorem RunInv.close (h : RunInv plan failed run) : RunInv plan failed run.close where
  same := h.same
  nodup := h.nodup
  todo := h.todo
  running := h.running
  ledger := h.ledger
  visits := h.visits

theorem RunInv.mono (h : RunInv plan failed run) (hsub : ∀ f ∈ failed, f ∈ failed') :
    RunInv plan failed' run where
  same := h.same
  nodup := h.nodup
  todo := h.todo
  running := h.running
  ledger id result hresult := by
    obtain ⟨hmem, hstate, hrolled⟩ := h.ledger id result hresult
    exact ⟨hmem, hstate, fun hstatus => hsub id (hrolled hstatus)⟩
  visits v hv result hresult hstatus := hsub _ (h.visits v hv result hresult hstatus)

theorem RunInv.start {cap : Capability} {slice : List Step} {compensates : Bool}
    (hsame : SamePlan plan steps) (hnodup : (ids steps).Nodup)
    (hslice : ∀ step ∈ slice, step.id ∈ ids plan)
    (hledger : ∀ id result, cap.ledger id = some result → id ∈ ids plan ∧
      cap.states id = .terminal ∧ (result.status = "rolled_back" → id ∈ failed)) :
    RunInv plan failed (PlanRun.start runtime cap steps slice compensates) where
  same := hsame
  nodup := hnodup
  todo := by
    intro step hstep
    unfold PlanRun.start at hstep
    dsimp only at hstep
    split at hstep
    · cases hstep
    split at hstep
    · exact hslice step (mem_order.mp hstep)
    · cases hstep
  running step choice h := by cases h
  ledger := hledger
  visits v hv := by cases hv

theorem ledger_record {cap : Capability} {result : StepResult}
    (hcap : ∀ id r, cap.ledger id = some r →
      id ∈ ids plan ∧ cap.states id = .terminal ∧ (r.status = "rolled_back" → id ∈ failed))
    (hmem : result.stepId ∈ ids plan)
    (hrolled : result.status = "rolled_back" → result.stepId ∈ failed) :
    ∀ id r, (cap.record result).ledger id = some r → id ∈ ids plan ∧
      (cap.record result).states id = .terminal ∧ (r.status = "rolled_back" → id ∈ failed) := by
  intro id r hr
  unfold Capability.record at hr ⊢
  dsimp only at hr ⊢
  by_cases hid : id = result.stepId
  · rw [hid, Function.update_self] at hr
    rw [hid, Function.update_self]
    cases hr
    exact ⟨hmem, rfl, hrolled⟩
  · rw [Function.update_of_ne hid] at hr
    rw [Function.update_of_ne hid]
    exact hcap id r hr

def RunLabel.result : RunLabel → Option StepResult
  | .settled result => some result
  | .compensated result => some result
  | _ => none

theorem RunInv.step (h : RunInv plan failed run) {l : RunLabel}
    (hstep : RunStep runtime run l run') (hsub : ∀ f ∈ failed, f ∈ failed')
    (hnew : ∀ result, l.result = some result → result.status ∈ "rolled_back" :: failureStatuses →
      result.stepId ∈ failed') : RunInv plan failed' run' := by
  have hmono := h.mono hsub
  cases hstep with
  | claimed hidle hgoing htodo hpending =>
    rename_i step rest
    have hmem : step.id ∈ ids plan := h.todo step (htodo ▸ List.mem_cons_self)
    refine ⟨h.same, h.nodup, ?_, ?_, ?_, hmono.visits⟩
    · intro s hs
      exact h.todo s (htodo ▸ List.mem_cons_of_mem _ hs)
    · intro s choice hs
      cases hs
      exact ⟨hmem, Function.update_self _ _ _⟩
    · intro id result hresult
      obtain ⟨hid, hstate, hrolled⟩ := hmono.ledger id result hresult
      -- what the ledger holds is terminal, so it is not the step that is claimed
      have hne : id ≠ step.id := by
        intro heq
        rw [heq, hpending] at hstate
        cases hstate
      exact ⟨hid, (Function.update_of_ne hne _ _).trans hstate, hrolled⟩
  | replayed hidle hgoing htodo hstate =>
    exact ⟨h.same, h.nodup, h.todo, (fun s choice hs => by cases hs), hmono.ledger, hmono.visits⟩
  | settled hrunning houtcome =>
    rename_i step choice invoked outcome
    obtain ⟨hmem, -⟩ := h.running step choice hrunning
    have hid : (settle step (step.result outcome)).stepId = step.id := settle_stepId _ _
    refine ⟨h.same, h.nodup, h.todo, (fun s choice hs => by cases hs), ?_, ?_⟩
    · refine ledger_record hmono.ledger (hid ▸ hmem) ?_
      intro hstatus
      exact hnew _ rfl (hstatus ▸ List.mem_cons_self)
    · intro v hv result hresult hstatus
      rcases List.mem_cons.mp hv with rfl | hv
      · cases hresult
        exact hnew _ rfl (List.mem_cons_of_mem _ hstatus)
      · exact hmono.visits v hv result hresult hstatus
  | unavailable hrunning =>
    refine ⟨h.same, h.nodup, h.todo, (fun s choice hs => by cases hs), hmono.ledger, ?_⟩
    intro v hv result hresult hstatus
    rcases List.mem_cons.mp hv with rfl | hv
    · cases hresult
    · exact hmono.visits v hv result hresult hstatus
  | broken hrunning =>
    exact ⟨h.same, h.nodup, h.todo, (fun s choice hs => by cases hs), hmono.ledger, hmono.visits⟩
  | compensated hmarked hclosed hhalt hscheduler hitem hcreated htask =>
    rename_i item reason
    obtain ⟨hmem, hterminal, -⟩ := h.ledger item.stepId item hitem
    refine ⟨h.same, h.nodup, h.todo, ?_, ?_, hmono.visits⟩
    · intro s choice hs
      obtain ⟨hs', hstate⟩ := h.running s choice hs
      have hne : s.id ≠ item.stepId := by
        intro heq
        rw [heq, hterminal] at hstate
        cases hstate
      exact ⟨hs', (Function.update_of_ne hne _ _).trans hstate⟩
    · refine ledger_record hmono.ledger hmem ?_
      intro _
      exact hnew _ rfl List.mem_cons_self

theorem RunStep.advance (h : RunInv plan failed run) {l : RunLabel}
    (hstep : RunStep runtime run l run') (id : String) :
    (run.capability.states id).Advance (run'.capability.states id) := by
  have hupdate : ∀ {a : String} {b : StepState}, (run.capability.states a).Advance b →
      (run.capability.states id).Advance (Function.update run.capability.states a b id) := by
    intro a b hab
    by_cases hid : id = a
    · rw [hid, Function.update_self]
      exact hab
    · rw [Function.update_of_ne hid]
      exact .stays _
  cases hstep with
  | claimed hidle hgoing htodo hpending => exact hupdate (hpending ▸ .claimed)
  | settled hrunning houtcome =>
    rename_i step choice invoked outcome
    obtain ⟨-, hstate⟩ := h.running step choice hrunning
    exact hupdate ((settle_stepId step (step.result outcome)) ▸ hstate ▸ .settled)
  | compensated hmarked hclosed hhalt hscheduler hitem hcreated htask =>
    obtain ⟨-, hterminal, -⟩ := h.ledger _ _ hitem
    exact hupdate (hterminal ▸ .stays _)
  | replayed | unavailable | broken => exact .stays _

theorem RunStep.claimed_spec (h : RunInv plan failed run) {choice : StepChoice}
    (hstep : RunStep runtime run (.claimed id choice) run') :
    id ∈ ids plan ∧ run.capability.states id = .pending ∧
      run'.capability.states id = .running := by
  cases hstep with
  | claimed hidle hgoing htodo hpending =>
    exact ⟨h.todo _ (htodo ▸ List.mem_cons_self), hpending, Function.update_self _ _ _⟩

theorem RunInv.recoverable (h : RunInv plan failed run) {f : String}
    (hf : run.execution.recoverable = some f) : f ∈ failed := by
  obtain ⟨result, hresult, hretry⟩ := Option.bind_eq_some_iff.mp hf
  have hid : result.stepId = f := by
    split at hretry
    · exact Option.some.inj hretry
    · cases hretry
  have hfind : (run.visits.filterMap Visit.result).find? (fun r => r.status ∈ failureStatuses) =
      some result := by
    unfold Execution.failure at hresult
    split at hresult
    · exact hresult
    · cases hresult
  obtain ⟨v, hv, hvisit⟩ := List.mem_filterMap.mp (List.mem_of_find?_eq_some hfind)
  have hstatus := List.find?_some hfind
  rw [← hid]
  exact h.visits v hv result hvisit (of_decide_eq_true hstatus)

/-! ## Resuming a run -/

theorem retried_downstream {old : PlanRun} {f : String} (h : RunInv plan failed old)
    (hsame : SamePlan plan steps) (hf : f ∈ failed)
    (hretried : Retried steps old.capability.ledger f id) :
    ∃ g ∈ failed, DependsOn plan g id := by
  rcases hretried with hdown | ⟨r, hr, hrolled, hdown⟩
  · exact ⟨f, hf, hsame.dependsOn.mpr hdown⟩
  · obtain ⟨result, hresult, hstatus⟩ := (Option.any_eq_true _ _).mp hrolled
    obtain ⟨-, -, hmem⟩ := h.ledger r result hresult
    exact ⟨r, hmem (of_decide_eq_true hstatus), hsame.dependsOn.mpr hdown⟩

theorem resume_states {old : Capability} {f : String} (hmem : id ∈ ids steps)
    (h : ¬ Retried steps old.ledger f id) : (old.resume steps f).states id = .terminal := by
  unfold Capability.resume
  dsimp only
  rw [if_neg (fun hid => h (mem_retryIds.mp hid)), if_pos hmem]

theorem RunInv.resume {old : PlanRun} {f : String} (h : RunInv plan failed old)
    (hsame : SamePlan plan steps) (hnodup : (ids steps).Nodup) :
    RunInv plan failed (PlanRun.start runtime (old.capability.resume steps f) steps
      (retrySlice old.capability steps f) false) := by
  refine RunInv.start hsame hnodup ?_ ?_
  · intro step hstep
    have hmem := (mem_retrySlice.mp hstep).1
    exact (hsame.ids _).mpr (List.mem_map.mpr ⟨step, hmem, rfl⟩)
  · intro id result hresult
    have hout : id ∉ retryIds steps old.capability.ledger f := by
      intro hin
      change (if id ∈ retryIds steps old.capability.ledger f then none
        else old.capability.ledger id) = some result at hresult
      rw [if_pos hin] at hresult
      cases hresult
    have hretried : ¬ Retried steps old.capability.ledger f id :=
      fun hr => hout (mem_retryIds.mpr hr)
    rw [resume_ledger_other hretried] at hresult
    obtain ⟨hmem, -, hrolled⟩ := h.ledger id result hresult
    exact ⟨hmem, resume_states ((hsame.ids id).mp hmem) hretried, hrolled⟩

/-! ## Chains -/

section Chains

variable {env : ChainEnv δ} {hist : List (ChainLabel δ)} {s s' : Chain δ} {l : ChainLabel δ}

/-- Whether a step is clear of every failure. -/
def Clear (plan : List Step) (hist : List (ChainLabel δ)) (id : String) : Prop :=
  ∀ f ∈ failedSteps hist, ¬ DependsOn plan f id

/-- A step that was invoked `n` times: only the first run can still invoke it, where it
has not done so. -/
structure Once (plan : List Step) (s : Chain δ) (n : ℕ) (id : String) : Prop where
  resumed : ∀ i run, i ≠ 0 → s.runs i = some run → id ∈ ids plan →
    run.capability.states id = .terminal
  first : ∀ run, s.runs 0 = some run → run.capability.states id = .pending → n = 0
  once : n ≤ 1

structure ChainInv (env : ChainEnv δ) (plan : List Step) (hist : List (ChainLabel δ))
    (s : Chain δ) : Prop where
  positive : 0 < s.next
  fresh : ∀ i, s.next ≤ i → s.runs i = none
  runs : ∀ i run, s.runs i = some run → RunInv plan (failedSteps hist) run
  tokens : ∀ token j, s.tokens token = some j → ∃ run, s.runs j = some run ∧
    token.planHash = planHash env.codec run.plan ∧ token.failedStepId ∈ failedSteps hist
  once : ∀ id, Clear plan hist id → Once plan s (invocations id hist) id

theorem failedSteps_cons : failedSteps (l :: hist) =
    (l.result.bind StepResult.failedStep).toList ++ failedSteps hist := by
  unfold failedSteps
  rw [List.filterMap_cons]
  cases l.result.bind StepResult.failedStep <;> rfl

theorem subset_failedSteps (l : ChainLabel δ) :
    ∀ f ∈ failedSteps hist, f ∈ failedSteps (l :: hist) := by
  intro f hf
  rw [failedSteps_cons]
  exact List.mem_append_right _ hf

theorem mem_failedSteps {result : StepResult} (hl : l.result = some result)
    (hstatus : result.status ∈ "rolled_back" :: failureStatuses) :
    result.stepId ∈ failedSteps (l :: hist) := by
  rw [failedSteps_cons, hl]
  change result.stepId ∈ result.failedStep.toList ++ _
  unfold StepResult.failedStep
  rw [if_pos hstatus]
  exact List.mem_cons_self

theorem invocations_cons : invocations id (l :: hist) =
    invocations id hist + if l.invoked = some id then 1 else 0 := by
  unfold invocations
  rw [List.countP_cons]
  by_cases h : l.invoked = some id <;> simp [h]

theorem Clear.tail (h : Clear plan (l :: hist) id) : Clear plan hist id :=
  fun f hf => h f (subset_failedSteps l f hf)

theorem runs_setRun {i : ℕ} {k : ℕ} {r : PlanRun} (h : (s.setRun i run).runs k = some r) :
    (k = i ∧ r = run) ∨ (k ≠ i ∧ s.runs k = some r) := by
  change Function.update s.runs i (some run) k = some r at h
  by_cases hk : k = i
  · rw [hk, Function.update_self] at h
    exact Or.inl ⟨hk, (Option.some.inj h).symm⟩
  · rw [Function.update_of_ne hk] at h
    exact Or.inr ⟨hk, h⟩

theorem Once.frame {n : ℕ} (h : Once plan s n id)
    (hruns : ∀ i run', s'.runs i = some run' → ∃ run, s.runs i = some run ∧
      (run.capability.states id).Advance (run'.capability.states id)) :
    Once plan s' n id where
  resumed i run' hi hrun' hmem := by
    obtain ⟨run, hrun, hadvance⟩ := hruns i run' hrun'
    rw [h.resumed i run hi hrun hmem] at hadvance
    exact hadvance.of_terminal
  first run' hrun' hpending := by
    obtain ⟨run, hrun, hadvance⟩ := hruns 0 run' hrun'
    rw [hpending] at hadvance
    exact h.first run hrun hadvance.to_pending
  once := h.once

theorem Once.ran {i : ℕ} {rl : RunLabel} (hinv : RunInv plan failed run) (hrun : s.runs i = some run)
    (hstep : RunStep runtime run rl run') (h : Once plan s (invocations id hist) id) :
    Once plan (s.setRun i run') (invocations id ((.ran i rl : ChainLabel δ) :: hist)) id := by
  have hframe : ∀ k r', (s.setRun i run').runs k = some r' → ∃ r, s.runs k = some r ∧
      (r.capability.states id).Advance (r'.capability.states id) := by
    intro k r' hr'
    rcases runs_setRun hr' with ⟨rfl, rfl⟩ | ⟨-, hr⟩
    · exact ⟨run, hrun, hstep.advance hinv id⟩
    · exact ⟨r', hr, .stays _⟩
  by_cases hinvoked : (.ran i rl : ChainLabel δ).invoked = some id
  · -- only the first run still has the step pending, so this is its first invocation
    obtain ⟨rfl⟩ : rl = .claimed id .invoke := by
      cases rl with
      | claimed stepId choice =>
        cases choice with
        | invoke =>
          cases hinvoked
          rfl
        | _ => cases hinvoked
      | _ => cases hinvoked
    obtain ⟨hmem, hpending, hrunning⟩ := hstep.claimed_spec hinv
    have hzero : i = 0 := by
      by_contra hi
      have hterminal := h.resumed i run hi hrun hmem
      rw [hpending] at hterminal
      cases hterminal
    subst hzero
    have hnone : invocations id hist = 0 := h.first run hrun hpending
    have hone : invocations id ((.ran 0 (.claimed id .invoke) : ChainLabel δ) :: hist) = 1 := by
      rw [invocations_cons, hnone, if_pos hinvoked]
    rw [hone]
    refine ⟨?_, ?_, Nat.le_refl 1⟩
    · exact (h.frame hframe).resumed
    · intro r hr hpend
      rcases runs_setRun hr with ⟨-, rfl⟩ | ⟨hne, -⟩
      · rw [hrunning] at hpend
        cases hpend
      · exact absurd rfl hne
  · rw [invocations_cons, if_neg hinvoked]
    exact h.frame hframe

theorem ChainInv.quiet (h : ChainInv env plan hist s) (hresult : l.result = none)
    (hinvoked : l.invoked = none) : ChainInv env plan (l :: hist) s := by
  have hfailed : failedSteps (l :: hist) = failedSteps hist := by
    rw [failedSteps_cons, hresult]
    rfl
  refine ⟨h.positive, h.fresh, hfailed ▸ h.runs, hfailed ▸ h.tokens, ?_⟩
  intro id hclear
  rw [invocations_cons, hinvoked, if_neg (fun hnone => by cases hnone)]
  exact h.once id hclear.tail

theorem ChainInv.forget (h : ChainInv env plan hist s) {tokens : ResumeToken δ → Option ℕ}
    {consumed : List (ResumeToken δ)}
    (hsub : ∀ token j, tokens token = some j → s.tokens token = some j) :
    ChainInv env plan hist { s with tokens, consumed } :=
  ⟨h.positive, h.fresh, h.runs, fun token j hj => h.tokens token j (hsub token j hj),
    fun id hclear => ⟨(h.once id hclear).resumed, (h.once id hclear).first,
      (h.once id hclear).once⟩⟩

theorem ChainInv.setRun {hist' : List (ChainLabel δ)} (h : ChainInv env plan hist s)
    (hsub : ∀ f ∈ failedSteps hist, f ∈ failedSteps hist') {i : ℕ} (hrun : s.runs i = some run)
    (hinv : RunInv plan (failedSteps hist') run') (hplan : run'.plan = run.plan)
    (honce : ∀ id, Clear plan hist' id →
      Once plan (s.setRun i run') (invocations id hist') id) :
    ChainInv env plan hist' (s.setRun i run') where
  positive := h.positive
  fresh k hk := by
    have hne : k ≠ i := by
      intro heq
      rw [← heq, h.fresh k hk] at hrun
      cases hrun
    exact (Function.update_of_ne hne _ _).trans (h.fresh k hk)
  runs k r hr := by
    rcases runs_setRun hr with ⟨-, rfl⟩ | ⟨-, hr⟩
    · exact hinv
    · exact (h.runs k r hr).mono hsub
  tokens token j hj := by
    obtain ⟨r, hr, hhash, hfailed⟩ := h.tokens token j hj
    by_cases hji : j = i
    · rw [hji, hrun] at hr
      cases hr
      rw [hji]
      exact ⟨run', Function.update_self _ _ _, hplan ▸ hhash, hsub _ hfailed⟩
    · exact ⟨r, (Function.update_of_ne hji _ _).trans hr, hhash, hsub _ hfailed⟩
  once := honce

theorem ChainInv.close (h : ChainInv env plan hist s) {i : ℕ} (hrun : s.runs i = some run) :
    ChainInv env plan hist (s.setRun i run.close) := by
  refine h.setRun (fun f hf => hf) hrun (h.runs i run hrun).close rfl ?_
  intro id hclear
  refine (h.once id hclear).frame ?_
  intro k r hr
  rcases runs_setRun hr with ⟨rfl, rfl⟩ | ⟨-, hr⟩
  · exact ⟨run, hrun, .stays _⟩
  · exact ⟨r, hr, .stays _⟩

theorem ChainInv.begin (h : ChainInv env plan hist s) (hinv : RunInv plan (failedSteps hist) run)
    (hterminal : ∀ id ∈ ids plan, Clear plan hist id → run.capability.states id = .terminal) :
    ChainInv env plan hist (s.begin run) := by
  have hruns : ∀ {k : ℕ} {r : PlanRun}, (s.begin run).runs k = some r →
      (k = s.next ∧ r = run) ∨ (k ≠ s.next ∧ s.runs k = some r) := runs_setRun
  refine ⟨Nat.succ_pos _, ?_, ?_, ?_, ?_⟩
  · intro k hk
    have hne : k ≠ s.next := by
      change s.next + 1 ≤ k at hk
      omega
    exact (Function.update_of_ne hne _ _).trans (h.fresh k (Nat.le_of_succ_le hk))
  · intro k r hr
    rcases hruns hr with ⟨-, rfl⟩ | ⟨-, hr⟩
    · exact hinv
    · exact h.runs k r hr
  · intro token j hj
    obtain ⟨r, hr, hhash, hfailed⟩ := h.tokens token j hj
    have hne : j ≠ s.next := by
      intro heq
      rw [heq, h.fresh s.next (Nat.le_refl _)] at hr
      cases hr
    exact ⟨r, (Function.update_of_ne hne _ _).trans hr, hhash, hfailed⟩
  · intro id hclear
    refine ⟨?_, ?_, (h.once id hclear).once⟩
    · intro k r hk hr hmem
      rcases hruns hr with ⟨-, rfl⟩ | ⟨-, hr⟩
      · exact hterminal id hmem hclear
      · exact (h.once id hclear).resumed k r hk hr hmem
    · intro r hr hpending
      have hpositive := h.positive
      rcases hruns hr with ⟨hzero, -⟩ | ⟨-, hr⟩
      · omega
      · exact (h.once id hclear).first r hr hpending

theorem ChainInv.initial (hvalid : validatePlan env.knownZone env.limits plan = .ok ()) :
    ChainInv env plan [] (Chain.initial env plan) := by
  have hplan := validatePlan_ok hvalid
  have hperm : (orderSteps plan).Perm plan := order_perm
  have hrun : ∀ i run, (Chain.initial env plan).runs i = some run → i = 0 ∧
      run = PlanRun.start env.runtime (Capability.mint plan) (orderSteps plan)
        (orderSteps plan) true := by
    intro i run h
    unfold Chain.initial at h
    dsimp only at h
    by_cases hi : i = 0
    · rw [hi, Function.update_self] at h
      exact ⟨hi, (Option.some.inj h).symm⟩
    · rw [Function.update_of_ne hi] at h
      cases h
  refine ⟨Nat.one_pos, ?_, ?_, fun token j hj => (nomatch hj), ?_⟩
  · intro i hi
    have hne : i ≠ 0 := Nat.one_le_iff_ne_zero.mp hi
    unfold Chain.initial
    dsimp only
    rw [Function.update_of_ne hne]
  · intro i run h
    obtain ⟨-, rfl⟩ := hrun i run h
    refine RunInv.start (samePlan_of_perm hperm.symm) ?_ ?_ (fun id r hr => (nomatch hr))
    · exact (hperm.map Step.id).nodup_iff.mpr hplan.nodup
    · intro step hstep
      exact List.mem_map.mpr ⟨step, hperm.mem_iff.mp hstep, rfl⟩
  · intro id _
    refine ⟨?_, fun _ _ _ => rfl, Nat.zero_le _⟩
    intro i run hi h
    exact absurd (hrun i run h).1 hi

variable [DecidableEq δ]

theorem ChainInv.issue (h : ChainInv env plan hist s) {token : ResumeToken δ} {i : ℕ}
    (hrun : s.runs i = some run) (hhash : token.planHash = planHash env.codec run.plan)
    (hfailed : token.failedStepId ∈ failedSteps hist) :
    ChainInv env plan hist (s.issue token i) where
  positive := h.positive
  fresh := h.fresh
  runs := h.runs
  tokens token' j hj := by
    change Function.update s.tokens token (some i) token' = some j at hj
    by_cases htoken : token' = token
    · rw [htoken, Function.update_self] at hj
      cases hj
      exact ⟨run, hrun, htoken ▸ hhash, htoken ▸ hfailed⟩
    · rw [Function.update_of_ne htoken] at hj
      exact h.tokens token' j hj
  once id hclear := ⟨(h.once id hclear).resumed, (h.once id hclear).first, (h.once id hclear).once⟩

theorem ChainInv.spend (h : ChainInv env plan hist s) (token : ResumeToken δ) :
    ChainInv env plan hist (s.spend token) := by
  refine h.forget ?_
  intro token' j hj
  by_cases htoken : token' = token
  · rw [htoken, Function.update_self] at hj
    cases hj
  · rw [Function.update_of_ne htoken] at hj
    exact hj

theorem ChainInv.step (hdigest : Function.Injective env.codec.digest)
    (h : ChainInv env plan hist s) (hstep : ChainStep env s l s') :
    ChainInv env plan (l :: hist) s' := by
  cases hstep with
  | ran hrun hstep =>
    rename_i i run run' rl
    have hinv := h.runs i run hrun
    have hresult : (.ran i rl : ChainLabel δ).result = rl.result := by
      cases rl <;> rfl
    have hinv' : RunInv plan (failedSteps ((.ran i rl : ChainLabel δ) :: hist)) run' :=
      hinv.step hstep (subset_failedSteps _)
        (fun result hl hstatus => mem_failedSteps (hresult.trans hl) hstatus)
    refine h.setRun (subset_failedSteps _) hrun hinv' hstep.frame.1 ?_
    intro id hclear
    exact (h.once id hclear.tail).ran hinv hrun hstep
  | concluded hrun hidle hdone hopen hnone => exact (h.close hrun).quiet rfl rfl
  | failed scope now hrun hidle hdone hopen hfailed =>
    have hmem := (h.runs _ _ hrun).recoverable hfailed
    refine ((h.close hrun).issue (Function.update_self _ _ _) rfl hmem).quiet rfl rfl
  | refused => exact h.quiet rfl rfl
  | wasted hissued hfresh => exact (h.spend _).quiet rfl rfl
  | resumed scope now hissued hfresh hrun htoken hmem hvalid =>
    rename_i token j old steps failed
    obtain ⟨r, hr, hhash, hfailed⟩ := h.tokens token j hissued
    rw [hrun] at hr
    cases hr
    have hinv := h.runs j old hrun
    obtain ⟨-, -, -, hsteps, rfl⟩ := htoken
    have hnodup := (validatePlan_ok hvalid).nodup
    have hsame : SamePlan plan steps := hinv.same.trans
      (samePlan_of_planHash hdigest hinv.nodup hnodup (hhash.symm.trans hsteps))
    refine ((h.spend token).begin (hinv.resume hsame hnodup) ?_).quiet rfl rfl
    intro id hid hclear
    refine resume_states ((hsame.ids id).mp hid) ?_
    intro hretried
    obtain ⟨g, hg, hdown⟩ := retried_downstream hinv hsame hfailed hretried
    exact hclear g hg hdown
  | pruned hsub hconsumed => exact (h.forget hsub).quiet rfl rfl

theorem ChainStep.advance (h : ChainInv env plan hist s) (hstep : ChainStep env s l s') {i : ℕ}
    (hrun : s.runs i = some run) : ∃ run', s'.runs i = some run' ∧
      ∀ id, (run.capability.states id).Advance (run'.capability.states id) := by
  have hstays : ∀ run : PlanRun, ∀ id,
      (run.capability.states id).Advance (run.capability.states id) := fun _ _ => .stays _
  have hset : ∀ {k : ℕ} {r r' : PlanRun}, s.runs k = some r →
      (∀ id, (r.capability.states id).Advance (r'.capability.states id)) →
      ∃ run', (s.setRun k r').runs i = some run' ∧
        ∀ id, (run.capability.states id).Advance (run'.capability.states id) := by
    intro k r r' hr hadvance
    by_cases hik : i = k
    · rw [← hik, hrun] at hr
      cases hr
      rw [← hik]
      exact ⟨r', Function.update_self _ _ _, hadvance⟩
    · exact ⟨run, (Function.update_of_ne hik _ _).trans hrun, hstays run⟩
  cases hstep with
  | ran hr hstep => exact hset hr (hstep.advance (h.runs _ _ hr))
  | concluded hr => exact hset hr (hstays _)
  | failed _ _ hr => exact hset hr (hstays _)
  | refused | wasted | pruned => exact ⟨run, hrun, hstays run⟩
  | resumed =>
    have hne : i ≠ s.next := by
      intro heq
      rw [heq, h.fresh s.next (Nat.le_refl _)] at hrun
      cases hrun
    exact ⟨run, (Function.update_of_ne hne _ _).trans hrun, hstays run⟩

/-- For every accepted plan and every chain of its execution and its resumes: the executor
of a step that is not downstream of one that failed or was rolled back is invoked at most
once, and whatever happens next moves the state of every step under every capability
forwards by one or leaves it. -/
theorem at_most_once (hvalid : validatePlan env.knownZone env.limits plan = .ok ())
    (hdigest : Function.Injective env.codec.digest)
    (hrun : Run (ChainStep env) (Chain.initial env plan) hist s) :
    (∀ id, (∀ f ∈ failedSteps hist, ¬ DependsOn plan f id) → invocations id hist ≤ 1) ∧
    ∀ l s', ChainStep env s l s' → ∀ i run, s.runs i = some run →
      ∃ run', s'.runs i = some run' ∧
        ∀ id, (run.capability.states id).Advance (run'.capability.states id) := by
  have hinv : ChainInv env plan hist s :=
    hrun.history (ChainInv.initial hvalid) (fun _ _ _ _ h hstep => h.step hdigest hstep)
  refine ⟨fun id hclear => (hinv.once id hclear).once, ?_⟩
  intro l s' hstep i run hi
  exact hstep.advance hinv hi

end Chains

/-! ## A chain, evaluated -/

/-- A codec whose digest is the value itself. -/
def textCodec : Codec Json where
  dumps
    | .str s => "\"" ++ s ++ "\""
    | _ => ""
  digest := fun value => value

/-- An executor with every runtime and the default limits. -/
def openEnv : ChainEnv Json where
  codec := textCodec
  knownZone := fun _ => false
  limits := {}
  runtime := fullRuntime

/-- The second of two steps fails, is resumed and succeeds. -/
theorem at_most_once_resume : ∃ hist s,
    Run (ChainStep openEnv) (Chain.initial openEnv [toolStep "a" [], toolStep "b" ["a"]]) hist s ∧
    s.next = 2 ∧
    (∀ id, (∀ f ∈ failedSteps hist, ¬ DependsOn [toolStep "a" [], toolStep "b" ["a"]] f id) →
      invocations id hist ≤ 1) ∧
    ∀ l s', ChainStep openEnv s l s' → ∀ i run, s.runs i = some run →
      ∃ run', s'.runs i = some run' ∧
        ∀ id, (run.capability.states id).Advance (run'.capability.states id) := by
  have hvalid : validatePlan openEnv.knownZone openEnv.limits
      [toolStep "a" [], toolStep "b" ["a"]] = .ok () := by
    decide +kernel
  have hordered : validatePlan openEnv.knownZone openEnv.limits
      (orderSteps [toolStep "a" [], toolStep "b" ["a"]]) = .ok () := by
    decide +kernel
  have hmem : "b" ∈ ids (orderSteps [toolStep "a" [], toolStep "b" ["a"]]) := by
    decide +kernel
  have hfailed : (executeImmediate openEnv.runtime (failsAt "b")
      (Capability.mint [toolStep "a" [], toolStep "b" ["a"]])
      (orderSteps [toolStep "a" [], toolStep "b" ["a"]])).recoverable = some "b" := by
    decide +kernel
  obtain ⟨hist, s, run, hrun, hnext, -, -⟩ :=
    failure_resumes (failsAt "b") allOk hordered hmem hfailed
  have hdigest : Function.Injective openEnv.codec.digest := fun a b h => h
  exact ⟨hist, s, hrun, hnext, at_most_once hvalid hdigest hrun⟩

end Plan
