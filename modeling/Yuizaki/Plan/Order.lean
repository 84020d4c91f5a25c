import Yuizaki.Plan.Resume

/- The order of a plan (`_order_steps`, `_validate_policy_preflight` and the loop of
   `execute_immediate_steps` in `modules/agent/step_executor.py`).

   The search for cycles of `validate_plan` and the ordering of the executor are two
   algorithms over the same graph. They agree: an accepted plan has no cycle, and its
   ordering puts every step after its dependencies (`accepted_order`). The ordering
   leaves an ordered list alone, so the policy preflight, which orders the plan, and the
   loop, which orders what is already ordered, go through the steps alike, and no step
   that asks for a confirmation comes after an effect (`confirmed_first`). -/
namespace Plan

open Deps Fallible

/-! ## Policy preflight -/

/-- What the policy says of a tool call. -/
structure PolicyDecision where
  allowed : Bool
  requireConfirm : Bool
  reason : String

/-- `preview_policy` of the tool executor, which may raise. -/
abbrev Preview := String → List (String × Json) → Except String PolicyDecision

/-- The loop of `_validate_policy_preflight`. -/
def checkPolicy (preview : Preview) : Bool → List Step → Except String Unit
  | _, [] => .ok ()
  | priorEffectfulStep, step :: rest =>
    match step.body with
    | .tool toolName arguments _ _ _ _ =>
      match preview (toolName.getD "") arguments with
      | .error exc =>
        .error ("policy preview failed for tool step " ++ step.id ++ ": " ++ exc)
      | .ok decision => do
        ensure (decision.allowed = true ∨ decision.requireConfirm = true)
          ("policy denied tool step " ++ step.id ++ ": " ++ decision.reason)
        ensure (¬ (decision.requireConfirm = true ∧ priorEffectfulStep = true))
          ("tool step " ++ step.id ++ " requires confirmation before prior effects")
        checkPolicy preview true rest
    | .agent _ _ _ => checkPolicy preview true rest
    | .schedule _ _ _ _ _ _ => checkPolicy preview true rest
    | .analysis _ _ => checkPolicy preview priorEffectfulStep rest
    | .join _ _ => checkPolicy preview priorEffectfulStep rest

/-- `_validate_policy_preflight`; an executor may lack the preview. -/
def validatePolicyPreflight (preview : Option Preview) (steps : List Step) :
    Except String Unit :=
  if ¬ steps.any (fun step => step.kind = .tool) then .ok ()
  else match preview with
    | none => .error "tool executor does not provide side-effect-free policy preview"
    | some preview => checkPolicy preview false (orderSteps steps)

def NeedsConfirm (preview : Preview) (step : Step) : Prop :=
  ∃ toolName arguments timeoutSeconds retryBudget retryOwner idempotencyKey decision,
    step.body = .tool toolName arguments timeoutSeconds retryBudget retryOwner idempotencyKey ∧
      preview (toolName.getD "") arguments = .ok decision ∧ decision.requireConfirm = true

def StepKind.effectful : StepKind → Bool
  | .agent | .tool | .schedule => true
  | .analysis | .join => false

variable {preview : Preview} {prior : Bool} {step : Step} {steps rest : List Step}

/-- One turn of the preflight: the step is not to be confirmed after an effect, and what
comes later is checked with its own effect counted in. -/
theorem checkPolicy_cons (h : checkPolicy preview prior (step :: rest) = .ok ()) :
    (NeedsConfirm preview step → prior = false) ∧
      checkPolicy preview (prior || step.kind.effectful) rest = .ok () := by
  unfold checkPolicy at h
  cases hbody : step.body with
  | tool toolName arguments timeoutSeconds retryBudget retryOwner idempotencyKey =>
    have hkind : step.kind.effectful = true := by
      rw [Step.kind, hbody]
      rfl
    rw [hbody] at h
    dsimp only at h
    cases hpreview : preview (toolName.getD "") arguments with
    | error exc =>
      rw [hpreview] at h
      cases h
    | ok decision =>
      rw [hpreview] at h
      dsimp only at h
      rw [ensure_bind, ensure_bind] at h
      obtain ⟨-, hconfirm, hrest⟩ := h
      refine ⟨fun hneeds => ?_, by rw [hkind, Bool.or_true]; exact hrest⟩
      obtain ⟨_, _, _, _, _, _, decision', hbody', hdecision, hrequired⟩ := hneeds
      rw [hbody] at hbody'
      obtain ⟨rfl, rfl, -⟩ := StepBody.tool.inj hbody'
      rw [hpreview] at hdecision
      obtain rfl := Except.ok.inj hdecision
      exact Bool.eq_false_iff.mpr fun hprior => hconfirm ⟨hrequired, hprior⟩
  | agent | schedule =>
    rw [hbody] at h
    have hkind : step.kind.effectful = true := by
      rw [Step.kind, hbody]
      rfl
    refine ⟨fun ⟨_, _, _, _, _, _, _, hbody', _⟩ => ?_, by rw [hkind, Bool.or_true]; exact h⟩
    rw [hbody] at hbody'
    cases hbody'
  | analysis | join =>
    rw [hbody] at h
    have hkind : step.kind.effectful = false := by
      rw [Step.kind, hbody]
      rfl
    refine ⟨fun ⟨_, _, _, _, _, _, _, hbody', _⟩ => ?_, by rw [hkind, Bool.or_false]; exact h⟩
    rw [hbody] at hbody'
    cases hbody'

theorem checkPolicy_confirmed (h : checkPolicy preview prior steps = .ok ())
    {before after : List Step} (hsplit : steps = before ++ step :: after)
    (hneeds : NeedsConfirm preview step) :
    prior = false ∧ ∀ s ∈ before, s.kind.effectful = false := by
  induction before generalizing steps prior with
  | nil =>
    subst hsplit
    exact ⟨(checkPolicy_cons h).1 hneeds, fun s hs => absurd hs List.not_mem_nil⟩
  | cons first before ih =>
    subst hsplit
    obtain ⟨hboth, hrest⟩ := ih (checkPolicy_cons h).2 rfl
    obtain ⟨hprior, hfirst⟩ := Bool.or_eq_false_iff.mp hboth
    refine ⟨hprior, fun s hs => ?_⟩
    rcases List.mem_cons.mp hs with rfl | hs
    · exact hfirst
    · exact hrest s hs

/-! ## The steps a loop visits -/

def visited (visits : List Visit) : List Step := visits.reverse.map Visit.step

theorem visited_cons (v : Visit) (visits : List Visit) :
    visited (v :: visits) = visited visits ++ [v.step] := by
  unfold visited
  rw [List.reverse_cons, List.map_append]
  rfl

theorem runLoop_visited (runtime : Runtime) (invoke : Invoke) (steps : List Step)
    (st : LoopState) :
    ∃ taken, taken <+: steps ∧
      visited (runLoop runtime invoke steps st).visits = visited st.visits ++ taken := by
  induction steps generalizing st with
  | nil => exact ⟨[], List.nil_prefix, (List.append_nil _).symm⟩
  | cons step rest ih =>
    have hturn : visited (takeStep runtime invoke step rest st).visits =
          visited st.visits ++ [step] ∨
        (takeStep runtime invoke step rest st).halt ≠ none ∧
          visited (takeStep runtime invoke step rest st).visits = visited st.visits := by
      rcases takeStep_cases runtime invoke step rest st with
        ⟨-, _, heq⟩ | ⟨_, -, -, heq⟩ | ⟨_, -, -, heq⟩
      · rw [heq]
        exact Or.inr ⟨Option.some_ne_none _, rfl⟩
      · rw [heq]
        exact Or.inl (visited_cons _ _)
      · rw [heq]
        exact Or.inl (visited_cons _ _)
    unfold runLoop
    dsimp only
    split
    · rename_i hgoing
      obtain ⟨taken, hprefix, hvisited⟩ := ih (takeStep runtime invoke step rest st)
      rcases hturn with hturn | ⟨hhalt, -⟩
      · rw [hturn, List.append_assoc, List.singleton_append] at hvisited
        exact ⟨step :: taken, List.cons_prefix_cons.mpr ⟨rfl, hprefix⟩, hvisited⟩
      · exact absurd hgoing hhalt
    · rcases hturn with hturn | ⟨-, hturn⟩
      · exact ⟨[step], List.cons_prefix_cons.mpr ⟨rfl, List.nil_prefix⟩, hturn⟩
      · exact ⟨[], List.nil_prefix, by rw [hturn, List.append_nil]⟩

theorem executeImmediate_visited (runtime : Runtime) (invoke : Invoke) (cap : Capability)
    (slice : List Step) :
    visited (executeImmediate runtime invoke cap slice).visits <+: orderSteps slice := by
  unfold executeImmediate
  split
  · exact List.nil_prefix
  split
  · exact List.nil_prefix
  split
  · exact List.nil_prefix
  · obtain ⟨taken, hprefix, hvisited⟩ := runLoop_visited runtime invoke (orderSteps slice)
      { capability := cap, visits := [], halt := none }
    show visited (runLoop runtime invoke (orderSteps slice) _).visits <+: _
    rw [hvisited]
    exact hprefix

/-! ## Accepted plans -/

/-- Each step comes after all its dependencies. -/
def DependenciesFirst (steps : List Step) : Prop :=
  ∀ before step after, steps = before ++ step :: after → ∀ d ∈ step.dependsOn, d ∈ ids before

theorem dependenciesFirst_of_ready {known : List String}
    (hclosed : ∀ step ∈ steps, ∀ d ∈ step.dependsOn, d ∈ known)
    (h : ReadyOrder Step.id Step.dependsOn known [] steps) : DependenciesFirst steps := by
  intro before step after hsplit d hd
  have hstep : step ∈ steps := by
    rw [hsplit]
    exact List.mem_append_right _ List.mem_cons_self
  have hbefore := readyOrder_iff.mp h before step after hsplit d hd (hclosed step hstep d hd)
  exact hbefore.resolve_right List.not_mem_nil

theorem orderSteps_ordered (h : DependenciesFirst steps) : orderSteps steps = steps := by
  apply order_ready
  rw [readyOrder_iff]
  intro before step after hsplit d hd _
  exact Or.inl (h before step after hsplit d hd)

theorem orderSteps_perm : (orderSteps steps).Perm steps := order_perm

theorem Validated.dependenciesFirst (h : Validated steps) : DependenciesFirst (orderSteps steps) := by
  apply dependenciesFirst_of_ready _ h.ordered
  intro step hstep
  exact h.known step (orderSteps_perm.mem_iff.mp hstep)

theorem Validated.acyclic (h : Validated steps) : Acyclic Step.id Step.dependsOn steps := by
  have hnodup : ((orderSteps steps).map Step.id).Nodup :=
    (orderSteps_perm.map Step.id).nodup_iff.mpr h.nodup
  have hordered : Acyclic Step.id Step.dependsOn (orderSteps steps) := by
    apply acyclic_of_readyOrder hnodup _ h.ordered
    intro step hstep
    exact h.known step (orderSteps_perm.mem_iff.mp hstep)
  intro id hcycle
  apply hordered id
  have hedges : Edge Step.id Step.dependsOn steps ≤
      Edge Step.id Step.dependsOn (orderSteps steps) := by
    intro a b ⟨step, hstep, hb, ha⟩
    exact ⟨step, orderSteps_perm.mem_iff.mpr hstep, hb, ha⟩
  exact Relation.TransGen.mono hedges id id hcycle

theorem Validated.policyPreflight (h : Validated steps) (preview : Option Preview) :
    validatePolicyPreflight preview (orderSteps steps) = validatePolicyPreflight preview steps := by
  unfold validatePolicyPreflight
  have hany : (orderSteps steps).any (fun step => decide (step.kind = .tool)) =
      steps.any (fun step => decide (step.kind = .tool)) := orderSteps_perm.any_eq
  rw [hany, orderSteps_ordered h.dependenciesFirst]

theorem confirmed_first
    (hpolicy : validatePolicyPreflight (some preview) steps = .ok ()) {visits : List Step}
    (hvisits : visits <+: orderSteps steps) {before after : List Step}
    (hsplit : visits = before ++ step :: after) (hneeds : NeedsConfirm preview step) :
    ∀ s ∈ before, s.kind.effectful = false := by
  obtain ⟨later, hlater⟩ := hvisits
  have hall : orderSteps steps = before ++ step :: (after ++ later) := by
    rw [← hlater, hsplit, List.append_assoc, List.cons_append]
  have hstep : step ∈ steps := by
    rw [← orderSteps_perm.mem_iff, hall]
    exact List.mem_append_right _ List.mem_cons_self
  have htool : step.kind = .tool := by
    obtain ⟨_, _, _, _, _, _, _, hbody, _⟩ := hneeds
    rw [Step.kind, hbody]
    rfl
  unfold validatePolicyPreflight at hpolicy
  have hany : steps.any (fun step => decide (step.kind = .tool)) = true :=
    List.any_eq_true.mpr ⟨step, hstep, decide_eq_true htool⟩
  rw [if_neg (not_not_intro hany)] at hpolicy
  exact (checkPolicy_confirmed hpolicy hall hneeds).2

/-- An accepted plan has unique identifiers, dependencies of its own and no cycle, and a
plan with a cycle is refused. The ordering of an accepted plan is a permutation of it with
every step after its dependencies, which ordering again leaves alone: the policy preflight
and the execution go through the steps in one order. -/
theorem accepted_order (knownZone : String → Bool) (limits : PlanLimits) (steps : List Step) :
    (validatePlan knownZone limits steps = .ok () →
      (ids steps).Nodup ∧
      (∀ step ∈ steps, ∀ d ∈ step.dependsOn, d ∈ ids steps) ∧
      Acyclic Step.id Step.dependsOn steps ∧
      (orderSteps steps).Perm steps ∧
      DependenciesFirst (orderSteps steps) ∧
      orderSteps (orderSteps steps) = orderSteps steps ∧
      (∀ preview, validatePolicyPreflight preview (orderSteps steps) =
        validatePolicyPreflight preview steps) ∧
      ∀ runtime invoke cap,
        visited (executeImmediate runtime invoke cap (orderSteps steps)).visits <+:
          orderSteps steps ∧
        ∀ preview, validatePolicyPreflight (some preview) steps = .ok () →
          ∀ before step after,
            visited (executeImmediate runtime invoke cap (orderSteps steps)).visits =
              before ++ step :: after →
            NeedsConfirm preview step → ∀ s ∈ before, s.kind.effectful = false) ∧
    ((∃ id, Relation.TransGen (Edge Step.id Step.dependsOn steps) id id) →
      ∃ message, validatePlan knownZone limits steps = .error message) ∧
    ∀ listed, DependenciesFirst listed → orderSteps listed = listed := by
  refine ⟨fun haccepted => ?_, fun ⟨id, hcycle⟩ => ?_, fun listed h => orderSteps_ordered h⟩
  · have h := validatePlan_ok haccepted
    have hagain := orderSteps_ordered h.dependenciesFirst
    refine ⟨h.nodup, h.known, h.acyclic, orderSteps_perm, h.dependenciesFirst, hagain,
      h.policyPreflight, fun runtime invoke cap => ?_⟩
    have hvisits := executeImmediate_visited runtime invoke cap (orderSteps steps)
    rw [hagain] at hvisits
    refine ⟨hvisits, fun preview hpolicy before step after hsplit hneeds => ?_⟩
    exact confirmed_first hpolicy hvisits hsplit hneeds
  · cases hresult : validatePlan knownZone limits steps with
    | error message => exact ⟨message, rfl⟩
    | ok u => exact absurd hcycle ((validatePlan_ok hresult).acyclic id)

/-- A plan listed against its dependencies is accepted and put in order. -/
theorem accepted_order_reversed :
    let steps := [toolStep "b" ["a"], toolStep "a" []]
    DependenciesFirst (orderSteps steps) ∧ (orderSteps steps).map Step.id = ["a", "b"] ∧
      ∃ message, validatePlan (fun _ => false) {} [toolStep "b" ["a"], toolStep "a" ["b"]] =
        .error message := by
  have haccepted : validatePlan (fun _ => false) {} [toolStep "b" ["a"], toolStep "a" []] =
      .ok () := by
    decide +kernel
  have hcycle : ∃ id, Relation.TransGen
      (Edge Step.id Step.dependsOn [toolStep "b" ["a"], toolStep "a" ["b"]]) id id := by
    refine ⟨"a", Relation.TransGen.head (b := "b") ?_ (Relation.TransGen.single ?_)⟩
    · exact ⟨toolStep "b" ["a"], List.mem_cons_self, rfl, List.mem_cons_self⟩
    · exact ⟨toolStep "a" ["b"], List.mem_cons_of_mem _ List.mem_cons_self, rfl,
        List.mem_cons_self⟩
  refine ⟨?_, by decide +kernel, ?_⟩
  · exact ((accepted_order (fun _ => false) {} _).1 haccepted).2.2.2.2.1
  · exact (accepted_order (fun _ => false) {} _).2.1 hcycle

end Plan
