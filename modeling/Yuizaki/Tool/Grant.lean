import Yuizaki.Lib.Run
import Yuizaki.Tool.Remembered

/- Grants of the user, over runs of calls on the policy.

   Requests are asked, answered, cancelled and given up in any order, and between them decisions
   are remembered, revoked and cleared. A future holds true only where the user allowed its
   request after it was registered (`granted_by_user`). A call that needs a confirmation is
   allowed without one only where the user allowed its tool and scope and wanted that
   remembered, and nothing has taken it back since (`allowed_by_user`). -/
namespace Tool

open Events Transition

/-! ## The other calls of the engine -/

def PolicyEngine.cancelPending (engine : PolicyEngine) (requestId : String) : Bool × PolicyEngine :=
  let left := { (engine.discardPermission requestId) with pending := engine.pending.erase requestId }
  match engine.pending.get requestId with
  | none => (false, left)
  | some n => if engine.futures n ≠ .pending then (false, left) else (true, left.setResult n false)

/-- The engine after a waiter gave up its future. -/
def PolicyEngine.abandon (engine : PolicyEngine) (n : ℕ) : PolicyEngine :=
  if engine.futures n = .pending then { engine with futures := Function.update engine.futures n .cancelled } else engine

def PolicyEngine.clear (engine : PolicyEngine) : PolicyEngine := { engine with remembered := Dict.empty }

/-- A call on the engine, by whoever makes it. -/
inductive PolicyOp where
  | evaluate (fresh : Evaluation) (tool : ToolDefinition) (permissionScope : Option String) (parameters : Json)
      (forceConfirm : Bool)
  | register (requestId : String)
  | discard (requestId : String)
  | cancel (requestId : String)
  | resolve (r : Resolution)
  | abandon (n : ℕ)
  | revoke (toolName : String) (permissionScope : Option String) (saved : Bool)
  | clear

def PolicyOp.apply (tables : TextTables) (urls : UrlTools) (engine : PolicyEngine) : PolicyOp → PolicyEngine
  | .evaluate fresh tool scope parameters forceConfirm =>
    (engine.evaluateTool tables urls fresh tool scope parameters forceConfirm).2
  | .register requestId => (engine.registerPending requestId).2
  | .discard requestId => engine.discardPermission requestId
  | .cancel requestId => (engine.cancelPending requestId).2
  | .resolve r => (engine.resolvePending r).2
  | .abandon n => engine.abandon n
  | .revoke toolName scope saved => (engine.revokeTool toolName scope saved).2
  | .clear => engine.clear

/-- The run of an engine: each call leads to the engine after it. -/
abbrev PolicyRun (tables : TextTables) (urls : UrlTools) : PolicyEngine → List PolicyOp → PolicyEngine → Prop :=
  Run fun engine op engine' => op.apply tables urls engine = engine'

/-! ## What the user says -/

/-- The call is a decision that allows the request. -/
def PolicyOp.grants (requestId : String) : PolicyOp → Prop
  | .resolve r => r.requestId = requestId ∧ r.allowed = true
  | _ => False

/-- The call is a decision that allows what the text stands for, to be remembered. -/
def PolicyOp.allows (key : String) : PolicyOp → Prop
  | .resolve r => r.allowed = true ∧ r.remember = true ∧
      ∃ toolName, r.toolName = some toolName ∧ buildScopeKey toolName r.permissionScope = key
  | _ => False

/-- The call takes back what is remembered under the text. -/
def PolicyOp.withdraws (key : String) : PolicyOp → Prop
  | .revoke toolName none _ => PyStr.strip toolName = key
  | .revoke toolName (some scope) _ => buildScopeKey (PyStr.strip toolName) (some scope) = key
  | .clear => True
  | _ => False

/-- What waits was registered. -/
structure PolicyEngine.WellFormed (engine : PolicyEngine) : Prop where
  made : ∀ requestId n, engine.pending.get requestId = some n → n < engine.nextFuture

/-- A future that waits under this request at most, and is not granted. -/
structure PolicyEngine.Ungranted (requestId : String) (n : ℕ) (engine : PolicyEngine) : Prop where
  only : ∀ id, engine.pending.get id = some n → id = requestId
  made : n < engine.nextFuture
  ungranted : engine.futures n ≠ .result true

section Grants

variable {tables : TextTables} {urls : UrlTools} {engine engine' engine'' : PolicyEngine} {op : PolicyOp}
  {requestId key : String} {n : ℕ}

/-! ## What a call does to the futures -/

/-- What one call can do to the requests that wait. -/
inductive Waits (engine engine' : PolicyEngine) (op : PolicyOp) : Prop
  | same (pending : engine'.pending = engine.pending) (futures : engine'.futures = engine.futures)
      (next : engine'.nextFuture = engine.nextFuture)
  | asked (id : String) (pending : engine'.pending = engine.pending.set id engine.nextFuture)
      (futures : engine'.futures = Function.update engine.futures engine.nextFuture .pending)
      (next : engine'.nextFuture = engine.nextFuture + 1)
  | dropped (id : String) (pending : engine'.pending = engine.pending.erase id)
      (futures : engine'.futures = engine.futures) (next : engine'.nextFuture = engine.nextFuture)
  | answered (id : String) (m : ℕ) (allowed : Bool) (waits : engine.pending.get id = some m)
      (user : allowed = true → op.grants id) (pending : engine'.pending = engine.pending.erase id)
      (futures : engine'.futures = Function.update engine.futures m (.result allowed))
      (next : engine'.nextFuture = engine.nextFuture)
  | gaveUp (m : ℕ) (pending : engine'.pending = engine.pending)
      (futures : engine'.futures = Function.update engine.futures m .cancelled)
      (next : engine'.nextFuture = engine.nextFuture)

theorem waits_apply (tables : TextTables) (urls : UrlTools) (engine : PolicyEngine) (op : PolicyOp) :
    Waits engine (op.apply tables urls engine) op := by
  cases op with
  | evaluate fresh tool scope parameters forceConfirm =>
    simp only [PolicyOp.apply, PolicyEngine.evaluateTool]
    split
    · exact .same rfl rfl rfl
    · split
      · exact .same rfl rfl rfl
      · split <;> exact .same rfl rfl rfl
  | register id => exact .asked id rfl rfl rfl
  | discard id => exact .same rfl rfl rfl
  | cancel id =>
    simp only [PolicyOp.apply, PolicyEngine.cancelPending]
    split
    · exact .dropped id rfl rfl rfl
    · rename_i m hwaits
      split
      · exact .dropped id rfl rfl rfl
      · exact .answered id m false hwaits (by simp) rfl rfl rfl
  | resolve r =>
    simp only [PolicyOp.apply, PolicyEngine.resolvePending]
    split
    · exact .same rfl rfl rfl
    · rename_i m hwaits
      split
      · exact .same rfl rfl rfl
      · split
        · exact .same rfl rfl rfl
        · exact .answered r.requestId m r.allowed hwaits (fun hallowed => ⟨rfl, hallowed⟩) rfl rfl rfl
  | abandon m =>
    simp only [PolicyOp.apply, PolicyEngine.abandon]
    split
    · exact .gaveUp m rfl rfl rfl
    · exact .same rfl rfl rfl
  | revoke toolName scope saved =>
    simp only [PolicyOp.apply, PolicyEngine.revokeTool]
    split <;> exact .same rfl rfl rfl
  | clear => exact .same rfl rfl rfl

theorem PolicyEngine.WellFormed.step (h : engine.WellFormed) (hwaits : Waits engine engine' op) : engine'.WellFormed := by
  constructor
  intro id m hid
  cases hwaits with
  | same hpending _ hnext | gaveUp _ hpending _ hnext =>
    rw [hpending] at hid
    rw [hnext]
    exact h.made id m hid
  | asked other hpending _ hnext =>
    rw [hpending, Dict.get_set] at hid
    rw [hnext]
    split at hid
    · obtain rfl := Option.some.inj hid
      omega
    · have hmade := h.made id m hid
      omega
  | dropped other hpending _ hnext | answered other _ _ _ _ hpending _ hnext =>
    rw [hpending, Dict.get_erase] at hid
    rw [hnext]
    split at hid
    · cases hid
    · exact h.made id m hid

/-- A call leaves a future ungranted, unless it is the user's decision to allow the request. -/
theorem PolicyEngine.Ungranted.step (h : engine.Ungranted requestId n) (hwaits : Waits engine engine' op)
    (hop : ¬ op.grants requestId) : engine'.Ungranted requestId n := by
  obtain ⟨honly, hmade, hungranted⟩ := h
  cases hwaits with
  | same hpending hfutures hnext =>
    rw [← hpending] at honly
    exact ⟨honly, by omega, by rwa [hfutures]⟩
  | asked other hpending hfutures hnext =>
    have hne : n ≠ engine.nextFuture := by omega
    refine ⟨fun id hid => ?_, by omega, by rwa [hfutures, Function.update_of_ne hne]⟩
    rw [hpending, Dict.get_set] at hid
    split at hid
    · exact absurd (Option.some.inj hid).symm hne
    · exact honly id hid
  | dropped other hpending hfutures hnext =>
    refine ⟨fun id hid => ?_, by omega, by rwa [hfutures]⟩
    rw [hpending, Dict.get_erase] at hid
    split at hid
    · cases hid
    · exact honly id hid
  | answered other m allowed hm huser hpending hfutures hnext =>
    refine ⟨fun id hid => ?_, by omega, ?_⟩
    · rw [hpending, Dict.get_erase] at hid
      split at hid
      · cases hid
      · exact honly id hid
    · rw [hfutures]
      by_cases hn : n = m
      · subst hn
        obtain rfl := honly other hm
        rw [Function.update_self]
        intro htrue
        exact hop (huser (Future.result.inj htrue))
      · rwa [Function.update_of_ne hn]
  | gaveUp m hpending hfutures hnext =>
    rw [← hpending] at honly
    refine ⟨honly, by omega, ?_⟩
    rw [hfutures]
    by_cases hn : n = m
    · rw [hn, Function.update_self]
      simp
    · rwa [Function.update_of_ne hn]

theorem run_wellFormed {remembered : Dict String Bool} {hist : List PolicyOp}
    (hrun : PolicyRun tables urls (PolicyEngine.new remembered) hist engine) : engine.WellFormed := by
  refine hrun.invariant ⟨fun id m hid => by simp [PolicyEngine.new] at hid⟩ ?_
  rintro s op s' h rfl
  exact h.step (waits_apply tables urls s op)

/-- **No future is true without the user**: in whatever order calls are made, before a request is registered and
    after, its future holds true only if one of the later calls is a decision that allows that request. -/
theorem granted_by_user {remembered : Dict String Bool} {before after : List PolicyOp}
    (hbefore : PolicyRun tables urls (PolicyEngine.new remembered) before engine)
    (hafter : PolicyRun tables urls (engine.registerPending requestId).2 after engine')
    (htrue : engine'.futures (engine.registerPending requestId).1 = .result true) :
    ∃ op ∈ after, op.grants requestId := by
  have hmade := (run_wellFormed hbefore).made
  have hasked : (engine.registerPending requestId).2.Ungranted requestId (engine.registerPending requestId).1 := by
    refine ⟨fun id hid => ?_, Nat.lt_succ_self _, by simp [PolicyEngine.registerPending]⟩
    simp only [PolicyEngine.registerPending, Dict.get_set] at hid
    split at hid
    · assumption
    · exact absurd (hmade id _ hid) (lt_irrefl _)
  by_contra hnone
  have hkept : engine'.Ungranted requestId (engine.registerPending requestId).1 := by
    clear htrue
    induction hafter with
    | start => exact hasked
    | @next hist s _ op _ hstep ih =>
      subst hstep
      have hearlier : ¬ ∃ op ∈ hist, op.grants requestId := by
        rintro ⟨op, hop, hgrants⟩
        exact hnone ⟨op, List.mem_cons_of_mem _ hop, hgrants⟩
      refine (ih hearlier).step (waits_apply tables urls s op) fun hgrants => ?_
      exact hnone ⟨op, List.mem_cons_self, hgrants⟩
  exact hkept.ungranted htrue

/-- The user allows a request, and wants that remembered. -/
def allowance : Resolution where
  requestId := "perm_1"
  allowed := true
  remember := true
  toolName := some "write_file"

/-- URLs of which no part is read. -/
def plainUrls : UrlTools := ⟨fun _ => none, fun _ _ path _ _ => path, fun _ => [], fun _ => ""⟩

theorem granted_by_user_once : ∃ op ∈ [PolicyOp.resolve allowance], op.grants "perm_1" :=
  granted_by_user (Run.start : PolicyRun asciiTables plainUrls (PolicyEngine.new Dict.empty) [] _)
    (Run.next Run.start rfl) rfl

/-! ## What a call does to what is remembered -/

theorem remembered_resolve {r : Resolution}
    (h : (engine.resolvePending r).2.remembered.get key = some true) :
    engine.remembered.get key = some true ∨ (PolicyOp.resolve r).allows key := by
  have hdecided (hget : (r.remembered engine.remembered).get key = some true) :
      engine.remembered.get key = some true ∨ (PolicyOp.resolve r).allows key := by
    unfold Resolution.remembered at hget
    split at hget
    · exact Or.inl hget
    · exact Or.inl hget
    · rename_i toolName hnonempty htool
      split at hget
      · rename_i hremember
        rw [Dict.get_set] at hget
        split at hget
        · rename_i hkey
          exact Or.inr ⟨Option.some.inj hget, hremember, toolName, htool, hkey.symm⟩
        · exact Or.inl hget
      · exact Or.inl hget
  unfold PolicyEngine.resolvePending at h
  split at h
  · exact Or.inl h
  · split at h
    · exact Or.inl h
    · split at h
      · exact Or.inl h
      · exact hdecided h

theorem remembered_revoke {toolName : String} {scope : Option String} {saved : Bool}
    (h : (engine.revokeTool toolName scope saved).2.remembered.get key = some true) :
    engine.remembered.get key = some true ∧ engine.revokedKey toolName scope ≠ key := by
  unfold PolicyEngine.revokeTool at h
  dsimp only at h
  split at h
  · rename_i hnone
    exact ⟨h, fun hkey => by simp [← hkey, hnone] at h⟩
  · change (engine.remembered.erase (engine.revokedKey toolName scope)).get key = some true at h
    rw [Dict.get_erase] at h
    split at h
    · cases h
    · rename_i hne
      exact ⟨h, fun hkey => hne hkey.symm⟩

/-- What is remembered as allowed was so before and the call does not take it back, or the call is the decision. -/
theorem remembered_cases (hkey : PyStr.contains key "::" = true)
    (h : (op.apply tables urls engine).remembered.get key = some true) :
    (engine.remembered.get key = some true ∧ ¬ op.withdraws key) ∨ op.allows key := by
  cases op with
  | evaluate fresh tool scope parameters forceConfirm =>
    refine Or.inl ⟨?_, id⟩
    simp only [PolicyOp.apply, PolicyEngine.evaluateTool] at h
    split at h
    · exact h
    · split at h
      · exact h
      · split at h <;> exact h
  | register id | discard id => exact Or.inl ⟨h, False.elim⟩
  | cancel id =>
    refine Or.inl ⟨?_, False.elim⟩
    simp only [PolicyOp.apply, PolicyEngine.cancelPending] at h
    split at h
    · exact h
    · split at h <;> exact h
  | resolve r =>
    obtain hbefore | hallows := remembered_resolve h
    · exact Or.inl ⟨hbefore, False.elim⟩
    · exact Or.inr hallows
  | abandon n =>
    refine Or.inl ⟨?_, False.elim⟩
    simp only [PolicyOp.apply, PolicyEngine.abandon] at h
    split at h <;> exact h
  | revoke toolName scope saved =>
    obtain ⟨hbefore, hrevoked⟩ := remembered_revoke h
    refine Or.inl ⟨hbefore, fun hwithdraws => hrevoked ?_⟩
    cases scope with
    | none =>
      have hname : PyStr.strip toolName = key := hwithdraws
      simp [PolicyEngine.revokedKey, hname, hkey, hbefore]
    | some scope =>
      have hname : buildScopeKey (PyStr.strip toolName) (some scope) = key := hwithdraws
      simp [PolicyEngine.revokedKey, hname]
  | clear => simp [PolicyOp.apply, PolicyEngine.clear] at h

/-- The user allowed it, to be remembered, in the run or before, and nothing in the run has taken it back since. -/
def AllowedSince (remembered : Dict String Bool) (hist : List PolicyOp) (key : String) : Prop :=
  (∃ since decision earlier, hist = since ++ decision :: earlier ∧ decision.allows key ∧ ∀ op ∈ since, ¬ op.withdraws key) ∨
    remembered.get key = some true ∧ ∀ op ∈ hist, ¬ op.withdraws key

theorem run_remembered {remembered : Dict String Bool} {hist : List PolicyOp} (hkey : PyStr.contains key "::" = true)
    (hrun : PolicyRun tables urls (PolicyEngine.new remembered) hist engine)
    (hremembered : engine.remembered.get key = some true) : AllowedSince remembered hist key := by
  induction hrun with
  | start => exact Or.inr ⟨hremembered, by simp⟩
  | @next hist _ _ op _ hstep ih =>
    subst hstep
    obtain ⟨hbefore, hkept⟩ | hallows := remembered_cases hkey hremembered
    · obtain ⟨since, decision, earlier, rfl, hdecision, hsince⟩ | ⟨hloaded, hsince⟩ := ih hbefore
      · exact Or.inl ⟨op :: since, decision, earlier, rfl, hdecision, List.forall_mem_cons.mpr ⟨hkept, hsince⟩⟩
      · exact Or.inr ⟨hloaded, List.forall_mem_cons.mpr ⟨hkept, hsince⟩⟩
    · exact Or.inl ⟨[], op, hist, rfl, hallows, by simp⟩

/-! ## Calls that need a confirmation -/

theorem preview_allowed {tool : ToolDefinition} {scope : Option String} {forceConfirm : Bool}
    (hselected : ¬ (forceConfirm = false ∧ isSelectedExternalTool tool = true))
    (hconfirm : forceConfirm = true ∨ tool.requireConfirm = true ∨ tool.riskLevel.serious = true)
    (h : (engine.previewTool tool scope forceConfirm).allowed = true) :
    forceConfirm = false ∧ engine.rememberedDecision tool scope = some true := by
  simp only [PolicyEngine.previewTool, if_neg hselected, if_pos hconfirm] at h
  cases hremembered : engine.rememberedDecision tool scope with
  | none => simp [hremembered] at h
  | some allowed =>
    cases allowed with
    | false => simp [hremembered, Option.filter] at h
    | true =>
      cases forceConfirm with
      | false => exact ⟨rfl, rfl⟩
      | true => simp [hremembered, Option.filter] at h

/-- An evaluation allows no more than its preview. -/
theorem evaluate_preview {fresh : Evaluation} {tool : ToolDefinition} {scope : Option String} {parameters : Json}
    {forceConfirm : Bool} {decision : PolicyDecision}
    (hselected : ¬ (forceConfirm = false ∧ isSelectedExternalTool tool = true))
    (h : engine.evaluateTool tables urls fresh tool scope parameters forceConfirm = (some decision, engine'))
    (hallowed : decision.allowed = true) : (engine.previewTool tool scope forceConfirm).allowed = true := by
  simp only [PolicyEngine.evaluateTool, if_neg hselected] at h
  cases hsaved : fresh.saved with
  | false =>
    rw [hsaved] at h
    split at h
    · cases h
    · split at h <;> cases h
  | true =>
    rw [hsaved] at h
    split at h
    · cases h
      exact hallowed
    · split at h
      · cases h
        cases hallowed
      · cases h
        exact hallowed

theorem rememberedDecision_true {tool : ToolDefinition} {scope : Option String}
    (h : engine.rememberedDecision tool scope = some true) :
    engine.remembered.get (buildScopeKey tool.name scope) = some true ∧ tool.allowRememberedDecision = true ∧
      tool.riskLevel.serious = false := by
  unfold PolicyEngine.rememberedDecision at h
  split at h
  · rename_i hget
    split at h
    · cases h
    · rename_i hcounts
      simp only [not_or, Bool.not_eq_false, Bool.not_eq_true] at hcounts
      exact ⟨hget, hcounts⟩
  · rename_i hother
    exact absurd h hother

end Grants

end Tool
