import Yuizaki.Tool.Receipt

/- Execution permits (`_mint_execution_permit` and `_verify_execution_permit` in
   `modules/agent/tool_registry.py`).

   A permit is minted for one call that the user allowed. Its payload names the tool, the digest of
   the parameters, the context, the call and the claims of the tool, and is sealed with a key of the
   process; the seal of a permit that was not minted does not hold. -/
namespace Tool

/-- `_ToolExecutionPermit`, by what its payload says. -/
structure ToolExecutionPermit where
  sealed : Bool
  toolName : String
  parametersSha256 : String
  contextId : ℕ
  capabilityCallId : String
  claims : String
  nonce : String
deriving DecidableEq

/-- A receipt that says that the user allowed a call just now. -/
def PermissionReceipt.userAllowed (receipt : PermissionReceipt) (toolName : String) : Bool :=
  decide (receipt.decision = .allowed) && decide (receipt.reasonCode = "user_allowed") && receipt.decidedAt.isSome &&
    decide (receipt.capabilityId = toolName)

namespace ToolExecutionPermit

/-- `_mint_execution_permit`, with a nonce that is drawn for it. -/
def mintExecutionPermit (sha256 : Json → String) (toolName : String) (parameters : Json) (contextId : ℕ)
    (receipt : PermissionReceipt) (claims nonce : String) : Except String ToolExecutionPermit :=
  if receipt.userAllowed toolName = false then .error "execution permit requires a fresh matching user decision"
  else .ok {
    sealed := true
    toolName
    parametersSha256 := sha256 parameters
    contextId
    capabilityCallId := receipt.capabilityCallId
    claims
    nonce }

/-- What `_verify_execution_permit` compares. -/
def covers (permit : ToolExecutionPermit) (sha256 : Json → String) (toolName : String)
    (parameters : Json) (contextId : ℕ) (receipt : PermissionReceipt) (claims : String) : Prop :=
  permit.sealed = true ∧ permit.toolName = toolName ∧ permit.parametersSha256 = sha256 parameters ∧
    permit.contextId = contextId ∧ permit.capabilityCallId = receipt.capabilityCallId ∧ permit.claims = claims

instance (permit : ToolExecutionPermit) (sha256 : Json → String) (toolName : String) (parameters : Json) (contextId : ℕ)
    (receipt : PermissionReceipt) (claims : String) :
    Decidable (permit.covers sha256 toolName parameters contextId receipt claims) :=
  inferInstanceAs (Decidable (_ ∧ _))

def verifyExecutionPermit (sha256 : Json → String) (permit : Option ToolExecutionPermit) (toolName : String)
    (parameters : Json) (contextId : ℕ) (receipt : Option PermissionReceipt) (claims : String) : Option String :=
  match permit, receipt with
  | some permit, some receipt =>
    if permit.covers sha256 toolName parameters contextId receipt claims then some permit.nonce else none
  | _, _ => none

theorem verifyExecutionPermit_some {sha256 : Json → String} {permit : Option ToolExecutionPermit} {toolName : String}
    {parameters : Json} {contextId : ℕ} {receipt : Option PermissionReceipt} {claims nonce : String}
    (h : verifyExecutionPermit sha256 permit toolName parameters contextId receipt claims = some nonce) :
    ∃ p r, permit = some p ∧ receipt = some r ∧ p.covers sha256 toolName parameters contextId r claims ∧ p.nonce = nonce := by
  cases permit with
  | none => cases h
  | some p =>
    cases receipt with
    | none => cases h
    | some r =>
      unfold verifyExecutionPermit at h
      dsimp only at h
      split at h
      · rename_i hcovers
        exact ⟨p, r, rfl, rfl, hcovers, Option.some.inj h⟩
      · cases h

theorem verifyExecutionPermit_minted {sha256 : Json → String} {permit : ToolExecutionPermit} {toolName : String}
    {parameters : Json} {contextId : ℕ} {receipt : PermissionReceipt} {claims nonce : String}
    (h : mintExecutionPermit sha256 toolName parameters contextId receipt claims nonce = .ok permit) :
    verifyExecutionPermit sha256 (some permit) toolName parameters contextId (some receipt) claims = some nonce ∧
      receipt.userAllowed toolName = true := by
  unfold mintExecutionPermit at h
  split at h
  · cases h
  · rename_i hallowed
    obtain rfl := Except.ok.inj h
    refine ⟨?_, Bool.not_eq_false _ ▸ hallowed⟩
    exact if_pos ⟨rfl, rfl, rfl, rfl, rfl, rfl⟩

end ToolExecutionPermit

end Tool
