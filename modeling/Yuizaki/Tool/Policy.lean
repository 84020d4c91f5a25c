import Yuizaki.Tool.Receipt
import Yuizaki.Lib.Dict
import Yuizaki.Lib.Run

/- The permission policy (`PolicyEngine` in `modules/agent/policy_engine.py`).

   A tool is allowed, remembered as allowed or denied, or put to the user. A call that asks
   the user registers a future under its permission request; the future gets a result from
   `resolve_pending`, which is the user's decision, or from `cancel_pending`, which is
   false. Forced confirmation leaves nothing but a remembered denial in force. -/
namespace Tool

open Events

/-! ## Tools -/

inductive ToolSource where
  | builtin
  | mcp
  | plugin
deriving DecidableEq

def ToolSource.text : ToolSource → String
  | .builtin => "builtin"
  | .mcp => "mcp"
  | .plugin => "plugin"

inductive RiskLevel where
  | safe
  | low
  | medium
  | high
  | critical
deriving DecidableEq

def RiskLevel.text : RiskLevel → String
  | .safe => "safe"
  | .low => "low"
  | .medium => "medium"
  | .high => "high"
  | .critical => "critical"

/-- Whether a risk always asks the user. -/
def RiskLevel.serious : RiskLevel → Bool
  | .high | .critical => true
  | .safe | .low | .medium => false

inductive EffectKind where
  | read
  | write
  | unknown
deriving DecidableEq

/-- What the policy and the executor read of a `ToolDefinition`. -/
structure ToolDefinition where
  name : String
  source : ToolSource
  requireConfirm : Bool := false
  riskLevel : RiskLevel := .safe
  allowRememberedDecision : Bool := true
  effectKind : EffectKind := .unknown
  hasRecheckHandler : Bool := false
deriving DecidableEq

def toolMayChangeState (tool : ToolDefinition) : Bool := tool.effectKind ≠ .read

/-! ## The engine -/

inductive Future where
  | pending
  | result (allowed : Bool)
  | cancelled
deriving DecidableEq

/-- What the engine notes of a permission request. -/
structure PermissionMetadata where
  agentRequestId : String
  capabilityCallId : String
  permissionScope : String

structure PolicyDecision where
  allowed : Bool
  reason : String := "ok"
  requestId : Option String := none
  requireConfirm : Bool := false
  permissionReceipt : Option PermissionReceipt := none

/-- `PolicyEngine`; the futures are numbered as they are made. -/
structure PolicyEngine where
  pending : Dict String ℕ
  permissionMetadata : Dict String PermissionMetadata
  remembered : Dict String Bool
  futures : ℕ → Future
  nextFuture : ℕ

/-- The scope of a call, with the default for none. -/
def scopeOf (permissionScope : Option String) : String :=
  let scope := PyStr.strip (match permissionScope with
    | none | some "" => "default"
    | some scope => scope)
  if scope = "" then "default" else scope

def buildScopeKey (toolName : String) (permissionScope : Option String) : String :=
  toolName ++ "::" ++ scopeOf permissionScope

def isSelectedExternalTool (tool : ToolDefinition) : Bool :=
  (tool.source = .mcp ∨ tool.source = .plugin) ∧ tool.requireConfirm = false ∧
    tool.riskLevel.serious = false

/-- What is remembered of a call, where the tool lets it count. -/
def PolicyEngine.rememberedDecision (engine : PolicyEngine) (tool : ToolDefinition)
    (permissionScope : Option String) : Option Bool :=
  match engine.remembered.get (buildScopeKey tool.name permissionScope) with
  | some true =>
    if tool.allowRememberedDecision = false ∨ tool.riskLevel.serious = true then none else some true
  | remembered => remembered

def PolicyEngine.previewTool (engine : PolicyEngine) (tool : ToolDefinition)
    (permissionScope : Option String) (forceConfirm : Bool) : PolicyDecision :=
  if forceConfirm = false ∧ isSelectedExternalTool tool = true then { allowed := true }
  else
    let remembered := engine.rememberedDecision tool permissionScope
    match remembered.filter (fun allowed => forceConfirm = false ∨ allowed = false) with
    | some allowed => { allowed, reason := "remembered" }
    | none =>
      if forceConfirm = true ∨ tool.requireConfirm = true ∨ tool.riskLevel.serious = true then
        { allowed := false
          reason := if forceConfirm then "untrusted_mcp_followup_requires_confirmation"
            else "permission_required"
          requireConfirm := true }
      else { allowed := true }

/-- The fresh identifiers of an evaluation, and whether its audit record was saved. -/
structure Evaluation where
  agentRequestId : String
  permissionHex : String
  callHex : String
  saved : Bool

def Evaluation.permissionRequestId (fresh : Evaluation) : String := "perm_" ++ fresh.permissionHex

def Evaluation.capabilityCallId (fresh : Evaluation) : String := "call_" ++ fresh.callHex

def evaluationReceipt (tables : TextTables) (urls : UrlTools) (fresh : Evaluation)
    (tool : ToolDefinition) (scope : String) (parameters : Json) (decision : PermissionDecision)
    (reasonCode : String) (retryable : Bool) : PermissionReceipt :=
  let shown := redactPermissionParameters tables urls (parameters.or (.obj []))
  { agentRequestId := fresh.agentRequestId
    permissionRequestId := fresh.permissionRequestId
    capabilityCallId := fresh.capabilityCallId
    decision
    reasonCode
    retryable
    permissionScope := scope
    capabilityId := tool.name
    capabilityType := "tool"
    capabilityKind := tool.source.text ++ "-tool"
    riskLevel := tool.riskLevel.text
    parameters := shown.1
    redactedPaths := shown.2 }

/-- The engine that has noted a permission request. -/
def PolicyEngine.note (engine : PolicyEngine) (fresh : Evaluation) (scope : String) :
    PolicyEngine :=
  { engine with
    permissionMetadata := engine.permissionMetadata.set fresh.permissionRequestId
      ⟨fresh.agentRequestId, fresh.capabilityCallId, scope⟩ }

/-- `evaluate_tool`: none where the audit record could not be saved. -/
def PolicyEngine.evaluateTool (tables : TextTables) (urls : UrlTools) (engine : PolicyEngine)
    (fresh : Evaluation) (tool : ToolDefinition) (permissionScope : Option String)
    (parameters : Json) (forceConfirm : Bool) : Option PolicyDecision × PolicyEngine :=
  let scope := scopeOf permissionScope
  let receipt := evaluationReceipt tables urls fresh tool scope parameters
  if forceConfirm = false ∧ isSelectedExternalTool tool = true then
    (some { allowed := true }, engine)
  else
    let preview := engine.previewTool tool permissionScope forceConfirm
    if preview.reason = "remembered" then
      (if fresh.saved then
        some {
          allowed := preview.allowed
          reason := "remembered"
          permissionReceipt := some (if preview.allowed then
            receipt .allowed "remembered_allow" true
            else receipt .denied "remembered_deny" false) }
        else none, engine)
    else if preview.requireConfirm then
      (if fresh.saved then
        some {
          allowed := false
          reason := "Tool '" ++ tool.name ++ "' requires user confirmation (risk=" ++
            tool.riskLevel.text ++ ") before execution"
          requestId := some fresh.permissionRequestId
          requireConfirm := true
          permissionReceipt := some (receipt .required
            (if forceConfirm then "untrusted_mcp_followup_requires_confirmation"
              else "permission_required") false) }
        else none, engine.note fresh scope)
    else
      (if fresh.saved then
        some {
          allowed := preview.allowed
          permissionReceipt := some (receipt .allowed "policy_auto_allow" true) }
        else none, engine)

/-- `register_pending`: the new future, and the engine with it. -/
def PolicyEngine.registerPending (engine : PolicyEngine) (requestId : String) :
    ℕ × PolicyEngine :=
  (engine.nextFuture, { engine with
    pending := engine.pending.set requestId engine.nextFuture
    futures := Function.update engine.futures engine.nextFuture .pending
    nextFuture := engine.nextFuture + 1 })

def PolicyEngine.discardPermission (engine : PolicyEngine) (requestId : String) : PolicyEngine :=
  { engine with permissionMetadata := engine.permissionMetadata.erase requestId }

/-- The engine where a future has its result. -/
def PolicyEngine.setResult (engine : PolicyEngine) (n : ℕ) (allowed : Bool) : PolicyEngine :=
  { engine with futures := Function.update engine.futures n (.result allowed) }

/-- A decision on a permission request; `saved` tells whether the store took it. -/
structure Resolution where
  requestId : String
  allowed : Bool
  remember : Bool := false
  toolName : Option String := none
  permissionScope : Option String := none
  saved : Bool := true

/-- What is remembered after a decision. -/
def Resolution.remembered (r : Resolution) (remembered : Dict String Bool) : Dict String Bool :=
  match r.toolName with
  | none | some "" => remembered
  | some toolName =>
    if r.remember then remembered.set (buildScopeKey toolName r.permissionScope) r.allowed
    else remembered

/-- `resolve_pending`: none where the store did not take the decision. -/
def PolicyEngine.resolvePending (engine : PolicyEngine) (r : Resolution) :
    Option Bool × PolicyEngine :=
  match engine.pending.get r.requestId with
  | none => (some false, engine)
  | some n =>
    if engine.futures n ≠ .pending then (some false, engine)
    else if r.saved = false then (none, engine)
    else
      let left := { (engine.discardPermission r.requestId) with
        pending := engine.pending.erase r.requestId
        remembered := r.remembered engine.remembered }
      (some true, left.setResult n r.allowed)

/-- `revoke` of a scope key. -/
def PolicyEngine.revoke (engine : PolicyEngine) (key : String) : PolicyEngine :=
  { engine with remembered := engine.remembered.erase key }

/-- An engine that has asked nothing yet. -/
def PolicyEngine.new (remembered : Dict String Bool) : PolicyEngine where
  pending := Dict.empty
  permissionMetadata := Dict.empty
  remembered
  futures := fun _ => .pending
  nextFuture := 0

end Tool
