import Yuizaki.Desktop.Controller
import Yuizaki.Lib.Run

/- Calls of the desktop controller, one lock section at a time.

   A call is a sequence of lock sections, and between two of them the sections of any other call
   can come in; what a call has still to do is its `Pending` part. A live action runs in a thread
   of its own once its fence is issued: it looks at the fence, discovers the windows, checks
   everything once more under the lock, and enters the adapter. What the waiting side does
   meanwhile is to look at the state, and to latch it when the time is over. -/
namespace Desktop

open Transition

/-- `PermissionReceipt`, as far as an action looks at it. -/
structure PermissionReceipt where
  decision : String
  reasonCode : String
  decidedAt : Option ℚ
  capabilityId : String
  capabilityCallId : String
deriving DecidableEq

/-- `_ToolExecutionPermit`, by what its payload says; the seal of a minted permit holds. -/
structure ExecutionPermit where
  sealed : Bool
  toolName : String
  parameters : Json
  ctx : ℕ
  capabilityCallId : String
  claims : String
  nonce : String
deriving DecidableEq

def verifyExecutionPermit (permit : Option ExecutionPermit) (toolName : String) (parameters : Json) (ctx : ℕ)
    (receipt : Option PermissionReceipt) (claims : String) : Option String := do
  let permit ← permit
  let receipt ← receipt
  guard (permit.sealed = true)
  guard (permit.toolName = toolName ∧ permit.parameters = parameters ∧ permit.ctx = ctx ∧
    permit.capabilityCallId = receipt.capabilityCallId ∧ permit.claims = claims)
  pure permit.nonce

/-- `" ".join(text.split())[:160]`. -/
def boundedLabel (text : String) : String :=
  let words := (text.toList.map fun c => if c = '\x00' then ' ' else c).splitOnP PyStr.isSpace
  PyStr.textPrefix 160 (" ".intercalate ((words.filter (· ≠ [])).map String.ofList))

def confirmationSummary (lease : TargetLease) (action : Action) : Json :=
  .obj [("action", .str action.text),
    ("application", .str (if boundedLabel lease.target.appLabel = "" then "Application"
      else boundedLabel lease.target.appLabel)),
    ("window_title", .str (if boundedLabel lease.target.title = "" then "Untitled window"
      else boundedLabel lease.target.title))]

def digest (host : Host) (leaseId : String) (lease : TargetLease) (action : Action) : String :=
  host.sha256 (.obj [("lease", .str leaseId), ("fingerprint", .str lease.target.fingerprint),
    ("scope", lease.scope.toDict), ("action", .str action.text), ("app_scope_id", .str lease.appScopeId),
    ("window_scope_id", .str lease.windowScopeId), ("confirmation_summary", confirmationSummary lease action),
    ("feature_revision", .num lease.featureRevision), ("stop_epoch", .num lease.stopEpoch),
    ("revocation_generation", .num lease.revocationGeneration)])

/-- The arguments of `perform`. -/
structure ActionRequest where
  ctx : ℕ
  toolName : String
  targetLease : String
  action : Action
  previewDigest : String
  confirmationSummary : Json
  receipt : Option PermissionReceipt
  toolArgs : Json
  permit : Option ExecutionPermit
deriving DecidableEq

/-- What `perform` checks of a lease outside the lock; the nonce of its permit. -/
def ActionRequest.nonce (host : Host) (r : ActionRequest) (leaseId : String) (lease : TargetLease) : Option String := do
  guard (r.action ∈ lease.allowedActions)
  guard (r.previewDigest = digest host leaseId lease r.action)
  guard (r.confirmationSummary = Desktop.confirmationSummary lease r.action)
  let nonce ← verifyExecutionPermit r.permit r.toolName r.toolArgs r.ctx r.receipt (digest host leaseId lease r.action)
  let receipt ← r.receipt
  guard (receipt.decision = "allowed" ∧ receipt.reasonCode = "user_allowed" ∧ receipt.decidedAt.isSome = true ∧
    receipt.capabilityId = r.toolName)
  pure nonce

/-- What a lease is looked up for: `preview` and `_permit_claims` do nothing more to the state. -/
inductive Purpose where
  | look
  | perform (r : ActionRequest)
deriving DecidableEq

/-- A live action once its fence is issued: what was found then, with the time and the host
lease, is a record for the statements and nothing that the code looks at. -/
structure LiveAction where
  leaseId : String
  lease : TargetLease
  action : Action
  fence : StopFence
  found : TargetLease
  issuedAt : ℚ
  hostEnabled : Bool
  hostDeadline : ℚ
deriving DecidableEq

/-- The next part of a call that is not over. -/
inductive Pending where
  | unbind (p : DesktopActionScope ⊕ String)
  | discoverFence (ttl : ℚ)
  | discoverDriver (ttl : ℚ) (fence : StopFence)
  | listFence (ctx : ℕ) (ttl : ℚ) (scope : DesktopActionScope)
  | listDriver (ctx : ℕ) (ttl : ℚ) (scope : DesktopActionScope) (fence : StopFence)
  | leaseScope (ctx : ℕ) (targetLease : String) (purpose : Purpose)
  | leaseCheck (leaseId : String) (scope : DesktopActionScope) (purpose : Purpose)
  | consume (leaseId : String) (lease : TargetLease) (action : Action) (nonce : String)
  | driverState (live : LiveAction)
  | driverGrant (live : LiveAction)
  | discover (live : LiveAction)
  | transact (live : LiveAction) (current : NativeWindowTarget)
  | native (live : LiveAction) (grant : AppGrant)
deriving DecidableEq

def Pending.live? : Pending → Option LiveAction
  | .driverState live | .driverGrant live | .discover live | .transact live _ | .native live _ => some live
  | _ => none

/-- A call of the adapter's `focus` or `request_close`, with the grant it was checked against. -/
structure NativeCall where
  live : LiveAction
  grant : AppGrant
deriving DecidableEq

/-- The controller, the calls that are not over, the native calls that were started, and the
time of the last section. -/
structure System where
  controller : Controller
  pending : List Pending
  calls : List NativeCall
  clock : ℚ
deriving DecidableEq

/-- The scopes that a `revoke_scope` or `revoke_session` is about. -/
def covers : DesktopActionScope ⊕ String → DesktopActionScope → Bool
  | .inl wanted, scope => scope = wanted
  | .inr session, scope => scope.sessionId = session

namespace Controller

variable (host : Host) (c : Controller) (now : ℚ)

/-- `_grant_is_active_for_lease`, of a controller whose host lease was looked at. -/
def grantIsActiveForLease (lease : TargetLease) (action : Action) : Bool :=
  c.enabled && !c.emergencyStopped && (c.leaseGrant now lease).any fun grant => decide (action ∈ grant.allowedActions)

/-- The section of `perform` that consumes the permit and the lease and issues the fence. -/
def consumePermit (nonce leaseId : String) : Section StopFence :=
  if nonce ∈ c.usedPermits then
    (.error ⟨"DA_PERMISSION_REPLAY", "execution permit was already consumed", none⟩, c)
  else
    let used := c.usedPermits ++ [nonce]
    let c := { c with usedPermits := used.drop (used.length - maxUsedPermits) }.markRevoked leaseId
    (.ok c.newFence, c)

/-- The section of the transaction; the grant it found. -/
def checkTransaction (live : LiveAction) (current : NativeWindowTarget) : Section AppGrant :=
  let c := c.expireHostLease now
  if c.enabled = false then (.error ⟨"DA_HOST_LEASE_EXPIRED", "desktop host lease is not active", none⟩, c)
  else if c.emergencyStopped = true then
    (.error ⟨"DA_REARM_REQUIRED", "desktop actions require explicit rearm", none⟩, c)
  else match c.leaseGrant now live.lease with
    | none => (.error ⟨"DA_APP_GRANT_EXPIRED", "application grant is no longer valid", none⟩, c)
    | some grant =>
      if live.action ∉ grant.allowedActions then
        (.error ⟨"DA_APP_ACTION_DENIED", "application grant does not allow this action", none⟩, c)
      else if c.appScopeId host current ≠ live.lease.appScopeId then
        (.error ⟨"DA_APP_SCOPE_MISMATCH", "target application identity changed", none⟩, c)
      else if c.windowScopeId host current ≠ live.lease.windowScopeId then
        (.error ⟨"DA_WINDOW_SCOPE_MISMATCH", "target window scope changed", none⟩, c)
      else if c.fenceMoved live.fence = true ∨ c.grantIsActiveForLease now live.lease live.action = false then
        (.error c.fenceError, c)
      else (.ok grant, c)

/-- What the transaction makes of the windows it discovers, before it takes the lock. -/
def currentTarget (lease : TargetLease) (discovered : List NativeWindowTarget) : Option NativeWindowTarget :=
  ((discovered.take maxWindows).find? fun item => item.nativeId = lease.target.nativeId).filter fun current =>
    decide (current.fingerprint = lease.target.fingerprint) &&
      decide (c.appScopeId host current = lease.appScopeId) &&
      decide (c.windowScopeId host current = lease.windowScopeId)

end Controller

/-- What can happen: a call comes in, a part of one goes on, or the state is looked at. -/
inductive Event where
  | setEnabled (enabled : Bool) (ttl : ℚ)
  | rearm (ttl : ℚ)
  | heartbeat (epoch : ℕ) (ttl : ℚ)
  | emergencyStop
  | revokeAll
  | revokeTarget (targetLease : String)
  | revokeScope (scope : DesktopActionScope)
  | revokeSession (sessionId : String)
  | bindContext (ctx : ℕ) (scope : DesktopActionScope)
  | unbindContext (ctx : ℕ)
  | hostDiscover (ttl : ℚ) (identitySecret : Option String)
  | grantApp (grantId appId : String) (discoveryRevision : ℕ) (allowedActions : List Action) (ttl : ℚ)
  | listTargets (ctx : ℕ) (ttl : ℚ)
  | preview (ctx : ℕ) (targetLease : String)
  | perform (r : ActionRequest)
  | look
  | latch
  | resume (i : ℕ) (windows : List (String × NativeWindowTarget))
deriving DecidableEq

namespace System

variable (host : Host) (s : System)

/-- A section leaves a controller, and the call goes on where it answered. -/
def after {α : Type} (result : Section α) (next : α → List Pending) : System :=
  { s with
    controller := result.2
    pending := s.pending ++ match result.1 with
      | .ok a => next a
      | .error _ => [] }

/-- The last part of a live action: the adapter is entered. -/
def enterAdapter (live : LiveAction) (grant : AppGrant) : System := { s with calls := s.calls ++ [⟨live, grant⟩] }

/-- The section that consumes a permit, with the record of what it found. -/
def consume (now : ℚ) (leaseId : String) (lease : TargetLease) (action : Action) (nonce : String) : System :=
  s.after (s.controller.consumePermit nonce leaseId) fun fence =>
    (s.controller.objects.get leaseId).toList.map fun found => .driverState {
      leaseId, lease, action, fence, found
      issuedAt := now
      hostEnabled := s.controller.enabled
      hostDeadline := s.controller.leaseDeadline }

/-- A part of a call; the windows are those that a driver discovers, with ids for their leases. -/
def resume (now : ℚ) (windows : List (String × NativeWindowTarget)) : Pending → System
  | .unbind p => { s with controller := s.controller.unbindMatching (covers p) }
  | .discoverFence ttl => { s with pending := s.pending ++ [.discoverDriver ttl s.controller.newFence] }
  | .discoverDriver ttl fence =>
    s.after (s.controller.recordDiscovery host now fence ttl (windows.map Prod.snd)) fun _ => []
  | .listFence ctx ttl scope => { s with pending := s.pending ++ [.listDriver ctx ttl scope s.controller.newFence] }
  | .listDriver ctx ttl scope fence => s.after (s.controller.listWindows host now ctx ttl scope fence windows) fun _ => []
  | .leaseScope ctx targetLease purpose =>
    s.after (s.controller.scopeForContext now ctx) fun scope => [.leaseCheck targetLease scope purpose]
  | .leaseCheck leaseId scope purpose =>
    s.after (s.controller.checkLease now leaseId scope) fun lease =>
      match purpose with
      | .look => []
      | .perform r => (r.nonce host leaseId lease).toList.map fun nonce => .consume leaseId lease r.action nonce
  | .consume leaseId lease action nonce => s.consume now leaseId lease action nonce
  | .driverState live =>
    let c := s.controller.expireHostLease now
    { s with
      controller := c
      pending := s.pending ++ if c.fenceMoved live.fence = true then [] else [.driverGrant live] }
  | .driverGrant live =>
    let c := s.controller.expireHostLease now
    { s with
      controller := c
      pending := s.pending ++
        if c.grantIsActiveForLease now live.lease live.action = true then [.discover live] else [] }
  | .discover live =>
    { s with
      pending := s.pending ++
        (s.controller.currentTarget host live.lease (windows.map Prod.snd)).toList.map (.transact live ·) }
  | .transact live current =>
    s.after (s.controller.checkTransaction host now live current) fun grant => [.native live grant]
  | .native live grant => s.enterAdapter live grant

/-- The first section of `revoke_scope` and `revoke_session`. -/
def revokeMatching (p : DesktopActionScope ⊕ String) : System :=
  { s with controller := s.controller.revokeMatching (covers p), pending := s.pending ++ [.unbind p] }

def act (now : ℚ) : Event → Option System
  | .setEnabled enabled ttl => some { s with controller := (s.controller.setEnabled now enabled ttl).2 }
  | .rearm ttl => some { s with controller := (s.controller.rearm now ttl).2 }
  | .heartbeat epoch ttl => some { s with controller := (s.controller.heartbeat now epoch ttl).2 }
  | .emergencyStop => some { s with controller := s.controller.emergencyStop }
  | .revokeAll => some { s with controller := s.controller.revokeAll }
  | .revokeTarget targetLease => some { s with controller := (s.controller.revokeTarget targetLease).2 }
  | .revokeScope scope =>
    some (match validatedScope scope with
      | .ok scope => s.revokeMatching (.inl scope)
      | .error _ => s)
  | .revokeSession sessionId => some (s.revokeMatching (.inr sessionId))
  | .bindContext ctx scope =>
    some (match validatedScope scope with
      | .ok scope => { s with controller := s.controller.bindContext now ctx scope }
      | .error _ => s)
  | .unbindContext ctx => some { s with controller := { s.controller with bindings := s.controller.bindings.erase ctx } }
  | .hostDiscover ttl identitySecret =>
    if 0 < ttl ∧ ttl ≤ maxLeaseTtlSeconds then
      some (s.after (s.controller.beginDiscovery host now identitySecret) fun _ => [.discoverFence ttl])
    else some s
  | .grantApp grantId appId discoveryRevision allowedActions ttl =>
    if s.controller.appGrants.get grantId = none then
      some { s with controller := (s.controller.grantApp now grantId appId discoveryRevision allowedActions ttl).2 }
    else none
  | .listTargets ctx ttl =>
    some (s.after (s.controller.scopeForContext now ctx) fun scope =>
      if 0 < ttl ∧ ttl ≤ maxLeaseTtlSeconds then [.listFence ctx ttl scope] else [])
  | .preview ctx targetLease =>
    some { s with pending := s.pending ++ match opaqueText targetLease "target_lease" with
      | .ok leaseId => [.leaseScope ctx leaseId .look]
      | .error _ => [] }
  | .perform r =>
    some { s with pending := s.pending ++ match opaqueText r.targetLease "target_lease" with
      | .ok leaseId => [.leaseScope r.ctx leaseId (.perform r)]
      | .error _ => [] }
  | .look => some { s with controller := s.controller.expireHostLease now }
  | .latch => some { s with controller := s.controller.latchOutcomeUnknown }
  | .resume i windows =>
    -- the ids of new leases are random: none was given before, and none twice
    if (windows.map Prod.fst).Nodup ∧ ∀ window ∈ windows, s.controller.objects.get window.1 = none then
      (s.pending[i]?).map fun part => { s with pending := s.pending.eraseIdx i }.resume host now windows part
    else none

/-- A step: a section at a time that is not before the last one. -/
def next (l : Event × ℚ) : Option System :=
  if s.clock ≤ l.2 then { s with clock := l.2 }.act host l.2 l.1 else none

def Step (s : System) (l : Event × ℚ) (s' : System) : Prop := s.next host l = some s'

/-- A controller that is built at a time. -/
def start (enabled : Bool) (identitySecret : String) (clock : ℚ) : System :=
  ⟨⟨enabled, false, 1, 0, 0, 1, if enabled then clock + 5 else 0, identitySecret, 0, 0, none, Dict.empty, Dict.empty, [],
    Dict.empty, []⟩, [], [], clock⟩

end System

end Desktop
