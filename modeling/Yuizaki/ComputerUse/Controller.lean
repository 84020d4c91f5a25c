import Yuizaki.Lib.Fallible
import Yuizaki.Tool.Permit

/- The controller of mouse and keyboard actions (`ComputerUseController` in
   `modules/agent/computer_use.py`): its state, the actions it accepts, and what each of its lock
   sections does.

   A host issues a session for a scope, with a deadline and a budget, and binds a context to it. An
   invocation verifies its permit against the binding of its context in one section, and is
   accepted by the session it names in another; the adapter is called after that. -/
namespace ComputerUse

open Events Fallible Tool ToolExecutionPermit

structure ComputerUseError where
  code : String
  message : String
  failureCategory : Option String := none
deriving DecidableEq

structure ComputerUseScope where
  workspaceId : String
  sessionId : String
  turnId : String
  requestId : String
  generationId : String
  interruptionEpoch : ℕ
  appId : String
  windowId : String
deriving DecidableEq

def ComputerUseScope.toDict (scope : ComputerUseScope) : Json :=
  .obj [("workspace_id", .str scope.workspaceId), ("session_id", .str scope.sessionId), ("turn_id", .str scope.turnId),
    ("request_id", .str scope.requestId), ("generation_id", .str scope.generationId),
    ("interruption_epoch", .int scope.interruptionEpoch), ("app_id", .str scope.appId), ("window_id", .str scope.windowId)]

/-- `_opaque`. -/
def opaqueText (value : Json) (field : String) : Except ComputerUseError String :=
  match value with
  | .str text =>
    let clean := PyStr.strip text
    if clean = "" ∨ 256 < clean.length ∨ clean.toList.any (fun c => c.toNat < 32) = true then
      .error ⟨"CU_INVALID_SCOPE", s!"{field} is invalid", none⟩
    else .ok clean
  | _ => .error ⟨"CU_INVALID_SCOPE", s!"{field} must be an opaque string", none⟩

def epochOf : Json → Except ComputerUseError ℕ
  | .int (.ofNat n) => .ok n
  | _ => .error ⟨"CU_INVALID_SCOPE", "interruption_epoch must be a non-negative integer", none⟩

/-- `_scope`. -/
def scopeOf (values : Json) : Except ComputerUseError ComputerUseScope := do
  let interruptionEpoch ← epochOf (values.get "interruption_epoch")
  let workspaceId ← opaqueText (values.get "workspace_id") "workspace_id"
  let sessionId ← opaqueText (values.get "session_id") "session_id"
  let turnId ← opaqueText (values.get "turn_id") "turn_id"
  let requestId ← opaqueText (values.get "request_id") "request_id"
  let generationId ← opaqueText (values.get "generation_id") "generation_id"
  let appId ← opaqueText (values.get "app_id") "app_id"
  let windowId ← opaqueText (values.get "window_id") "window_id"
  pure ⟨workspaceId, sessionId, turnId, requestId, generationId, interruptionEpoch, appId, windowId⟩

/-! ## Actions -/

structure ComputerUseAction where
  actionType : String
  parameters : List (String × Json)
deriving DecidableEq

def buttons : List String := ["left", "middle", "right"]

/-- `_KEYS`. -/
def keyNames : List String :=
  ["alt", "backspace", "ctrl", "delete", "down", "end", "enter", "escape", "home", "left", "meta", "pagedown", "pageup",
    "right", "shift", "space", "tab", "up", "f1", "f2", "f3", "f4", "f5", "f6", "f7", "f8", "f9", "f10", "f11", "f12",
    "a", "b", "c", "d", "e", "f", "g", "h", "i", "j", "k", "l", "m", "n", "o", "p", "q", "r", "s", "t", "u", "v", "w", "x",
    "y", "z", "0", "1", "2", "3", "4", "5", "6", "7", "8", "9"]

def invalidAction (message : String) : ComputerUseError := ⟨"CU_INVALID_ACTION", message, none⟩

/-- `_integer`. -/
def integerOf (value : Json) (field : String) (minimum maximum : ℤ) : Except ComputerUseError ℤ :=
  match value with
  | .int n =>
    if minimum ≤ n ∧ n ≤ maximum then .ok n
    else .error (invalidAction s!"{field} must be an integer from {minimum} to {maximum}")
  | _ => .error (invalidAction s!"{field} must be an integer from {minimum} to {maximum}")

def exactKeys (fields : List (String × Json)) (expected : List String) : Except ComputerUseError Unit :=
  require (invalidAction "action contains missing or unsupported parameters")
    ((∀ field ∈ fields, field.1 ∈ expected) ∧ ∀ key ∈ expected, key ∈ fields.map Prod.fst)

def parseMove (fields : List (String × Json)) : Except ComputerUseError ComputerUseAction := do
  exactKeys fields ["type", "x", "y"]
  let x ← integerOf ((Json.obj fields).get "x") "x" 0 100000
  let y ← integerOf ((Json.obj fields).get "y") "y" 0 100000
  pure ⟨"move", [("x", .int x), ("y", .int y)]⟩

/-- The button of a click; a value that cannot be hashed is refused by the set itself. -/
def buttonOf : Json → Except ComputerUseError String
  | .str button => do
    require (invalidAction "button must be left, middle, or right") (button ∈ buttons)
    pure button
  | .arr _ | .obj _ => .error ⟨"TypeError", "unhashable type", none⟩
  | _ => .error (invalidAction "button must be left, middle, or right")

def parseClick (fields : List (String × Json)) : Except ComputerUseError ComputerUseAction := do
  exactKeys fields ["type", "button", "count"]
  let button ← buttonOf ((Json.obj fields).get "button")
  let count ← integerOf ((Json.obj fields).get "count") "count" 1 3
  pure ⟨"click", [("button", .str button), ("count", .int count)]⟩

def normalizedKeys (tables : TextTables) : List Json → Except ComputerUseError (List String)
  | [] => .ok []
  | .str key :: rest => do
    require (invalidAction "keys contains an unsupported key") (PyStr.lower tables.lower key ∈ keyNames)
    let others ← normalizedKeys tables rest
    pure (PyStr.lower tables.lower key :: others)
  | _ :: _ => .error (invalidAction "keys contains an unsupported key")

def parseKeyPress (tables : TextTables) (fields : List (String × Json)) : Except ComputerUseError ComputerUseAction := do
  exactKeys fields ["type", "keys"]
  match (Json.obj fields).get "keys" with
  | .arr keys => do
    require (invalidAction "keys must contain one to four supported keys") (1 ≤ keys.length ∧ keys.length ≤ 4)
    let normalized ← normalizedKeys tables keys
    require (invalidAction "keys must not contain duplicates") normalized.Nodup
    pure ⟨"key_press", [("keys", .arr (normalized.map .str))]⟩
  | _ => .error (invalidAction "keys must contain one to four supported keys")

def parseTextInput (fields : List (String × Json)) : Except ComputerUseError ComputerUseAction := do
  exactKeys fields ["type", "text"]
  match (Json.obj fields).get "text" with
  | .str text => do
    require (invalidAction "text must contain 1 to 4096 characters without NUL")
      (text ≠ "" ∧ text.length ≤ 4096 ∧ '\x00' ∉ text.toList)
    pure ⟨"text_input", [("text", .str text)]⟩
  | _ => .error (invalidAction "text must contain 1 to 4096 characters without NUL")

def parseAction (tables : TextTables) (value : Json) : Except ComputerUseError ComputerUseAction :=
  match value with
  | .obj fields =>
    if value.get "type" = .str "move" then parseMove fields
    else if value.get "type" = .str "click" then parseClick fields
    else if value.get "type" = .str "key_press" then parseKeyPress tables fields
    else if value.get "type" = .str "text_input" then parseTextInput fields
    else .error (invalidAction "action type is not supported")
  | _ => .error (invalidAction "action must be an object")

/-! ## The controller -/

structure ActionSession where
  scope : ComputerUseScope
  dryRun : Bool
  expiresAt : ℚ
  actionBudget : ℕ
  stopEpoch : ℕ
  lastSequence : ℕ
  usedActions : ℕ
deriving DecidableEq

/-- `ComputerUseController`; a context is bound to a session and its scope. -/
structure Controller where
  hasAdapter : Bool
  sessions : Dict String ActionSession
  contextBindings : Dict ℕ (String × ComputerUseScope)
  usedExecutionPermits : List String
  stopEpoch : ℕ
deriving DecidableEq

/-- The arguments of `invoke`; `null` stands for arguments that are not given. -/
structure Invocation where
  actionSessionId : Json
  scopeValues : Json
  sequence : Json
  actionValue : Json
  previewOnly : Bool
  permissionReceipt : Option PermissionReceipt
  toolArgs : Json
  trustedContext : Option ℕ
  executionPermit : Option ToolExecutionPermit

/-- `tool_args or {}`. -/
def Invocation.parameters (i : Invocation) : Json := i.toolArgs.or (.obj [])

/-- An invocation whose arguments were checked, with the nonce of a permit that was verified; the
binding that the permit was verified against is kept for the statements. -/
structure Request where
  invocation : Invocation
  sessionKey : String
  scope : ComputerUseScope
  sequence : ℕ
  action : ComputerUseAction
  nonce : Option String
  binding : Option (String × ComputerUseScope)

/-- What the code takes from outside: tables for text, URLs, and a digest. -/
structure World where
  tables : TextTables
  urls : UrlTools
  sha256 : Json → String

namespace Controller

variable (world : World) (c : Controller) (now : ℚ)

/-- `issue_session`, with the id that is drawn for the session. -/
def issueSession (id : String) (scope : ComputerUseScope) (dryRun : Bool) (ttlSeconds : ℚ) (actionBudget : ℕ) :
    Except ComputerUseError (ActionSession × Controller) := do
  let scope ← scopeOf scope.toDict
  require ⟨"CU_INVALID_SESSION", "ttl_seconds must be greater than 0 and at most 600", none⟩ (0 < ttlSeconds ∧ ttlSeconds ≤ 600)
  require ⟨"CU_INVALID_SESSION", "action_budget must be from 1 to 100", none⟩ (1 ≤ actionBudget ∧ actionBudget ≤ 100)
  let session : ActionSession := {
    scope
    dryRun
    expiresAt := now + ttlSeconds
    actionBudget
    stopEpoch := 0
    lastSequence := 0
    usedActions := 0 }
  pure (session, { c with sessions := c.sessions.set id session })

/-- Whether a stop is meant for a scope. -/
def stops (workspaceId sessionId : Option String) (scope : ComputerUseScope) : Bool :=
  workspaceId.all (fun id => decide (scope.workspaceId = id)) && sessionId.all (fun id => decide (scope.sessionId = id))

def emergencyStop (workspaceId sessionId : Option String) : Controller :=
  { c with
    stopEpoch := c.stopEpoch + 1
    sessions := c.sessions.mapValues fun _ session =>
      if stops workspaceId sessionId session.scope then { session with stopEpoch := session.stopEpoch + 1 } else session }

def bindContext (ctx : ℕ) (actionSessionId : Json) (trustedScope : ComputerUseScope) : Except ComputerUseError Controller := do
  let sessionKey ← opaqueText actionSessionId "action_session_id"
  let scope ← scopeOf trustedScope.toDict
  require ⟨"CU_SCOPE_MISMATCH", "host binding does not match the action session", none⟩
    ((c.sessions.get sessionKey).map (·.scope) = some scope)
  pure { c with contextBindings := c.contextBindings.set ctx (sessionKey, scope) }

def bindingForContext (ctx : Option ℕ) : Except ComputerUseError (String × ComputerUseScope) :=
  match ctx.bind c.contextBindings.get with
  | some binding => .ok binding
  | none => .error ⟨"CU_HOST_BINDING_MISSING", "host computer-use binding is unavailable", none⟩

end Controller

/-- The claims of a session and its scope. -/
def claimsOf (world : World) (sessionKey : String) (scope : ComputerUseScope) : String :=
  world.sha256 (.obj [("action_session_id", .str sessionKey), ("scope", scope.toDict)])

/-- The sequence number of an invocation. -/
def sequenceOf : Json → Except ComputerUseError ℕ
  | .int (.ofNat n) => do
    require ⟨"CU_INVALID_SEQUENCE", "sequence must be a positive integer", none⟩ (1 ≤ n)
    pure n
  | _ => .error ⟨"CU_INVALID_SEQUENCE", "sequence must be a positive integer", none⟩

namespace Controller

variable (world : World) (c : Controller) (now : ℚ)

/-- `invoke` up to the lock: the permit is verified against what the context is bound to now. -/
def verify (i : Invocation) : Except ComputerUseError Request := do
  let sessionKey ← opaqueText i.actionSessionId "action_session_id"
  let scope ← scopeOf i.scopeValues
  let sequence ← sequenceOf i.sequence
  let action ← parseAction world.tables i.actionValue
  match i.trustedContext with
  | none => pure ⟨i, sessionKey, scope, sequence, action, none, none⟩
  | some ctx =>
    let binding ← c.bindingForContext (some ctx)
    let nonce := verifyExecutionPermit world.sha256 i.executionPermit "computer.perform_action" i.parameters ctx
      i.permissionReceipt (claimsOf world binding.1 binding.2)
    pure ⟨i, sessionKey, scope, sequence, action, nonce, some binding⟩

/-- The receipt of a live action says that the user allowed it, with the parameters as they are. -/
def confirmed (i : Invocation) : Bool :=
  match i.permissionReceipt with
  | none => false
  | some receipt => receipt.userAllowed "computer.perform_action" && Json.same receipt.parameters i.parameters

/-- What a live action needs of the user. -/
def checkPermission (r : Request) : Except ComputerUseError Unit := do
  require ⟨"CU_CONFIRMATION_REQUIRED", "a fresh matching user confirmation is required", none⟩ (confirmed r.invocation = true)
  match r.nonce with
  | none => .error ⟨"CU_CONFIRMATION_REQUIRED", "a verified execution permit is required", none⟩
  | some nonce =>
    require ⟨"CU_PERMISSION_REPLAY", "the execution permission was already consumed", none⟩ (nonce ∉ c.usedExecutionPermits)

/-- Whether an action is a dry run in a session. -/
def dryRun (r : Request) (session : ActionSession) : Bool := r.invocation.previewOnly || session.dryRun

/-- A dry run needs nothing of the user. -/
def checkConfirmation (r : Request) (session : ActionSession) : Except ComputerUseError Unit :=
  if dryRun r session = true then .ok () else c.checkPermission r

/-- What the lock section of `invoke` checks; the session that accepts the action. -/
def admitAction (r : Request) : Except ComputerUseError ActionSession :=
  match c.sessions.get r.sessionKey with
  | none => .error ⟨"CU_SESSION_NOT_FOUND", "action session is unknown", none⟩
  | some session => do
    require ⟨"CU_EMERGENCY_STOPPED", "action session was invalidated by emergency stop", none⟩ (session.stopEpoch = 0)
    require ⟨"CU_SESSION_EXPIRED", "action session has expired", none⟩ (now < session.expiresAt)
    require ⟨"CU_SCOPE_MISMATCH", "action scope does not match the host-issued session", none⟩ (r.scope = session.scope)
    c.checkConfirmation r session
    require ⟨"CU_SEQUENCE_MISMATCH", s!"expected sequence {session.lastSequence + 1}", none⟩
      (r.sequence = session.lastSequence + 1)
    require ⟨"CU_ACTION_BUDGET_EXHAUSTED", "action session budget is exhausted", none⟩
      (session.usedActions < session.actionBudget)
    pure session

/-- An accepted action is counted, and a live one uses up its permit. -/
def consume (r : Request) (session : ActionSession) : Controller :=
  { c with
    sessions := c.sessions.set r.sessionKey { session with
      lastSequence := r.sequence
      usedActions := session.usedActions + 1 }
    usedExecutionPermits := if dryRun r session = true then c.usedExecutionPermits
      else c.usedExecutionPermits ++ [r.nonce.getD ""] }

/-- `ComputerUseStopFence.stopped`: the session has another stop epoch by now. -/
def fenceStopped (sessionKey : String) (issuedEpoch : ℕ) : Bool :=
  decide ((c.sessions.get sessionKey).map (·.stopEpoch) ≠ some issuedEpoch)

end Controller

end ComputerUse
