import Yuizaki.Lib.Dict
import Yuizaki.Lib.Json
import Yuizaki.Lib.PyStr
import Mathlib.Data.Rat.Defs
import Mathlib.Algebra.Order.Ring.Rat

/- The controller of native window actions (`DesktopActionController` in
   `modules/agent/desktop_actions.py`): its state and what each lock section does to it.

   A host lease keeps the feature on, a host discovery lets an application be granted, and a
   listing issues a lease for each window of a granted application. A stop or a revocation marks
   what it takes back and raises counters that a fence compares. A section that raises has the
   effects it had up to there, so a section is a function to an answer and a controller. -/
namespace Desktop

/-- `MAX_WINDOWS`, `MAX_ACTIVE_LEASES`, `MAX_ACTIVE_APP_GRANTS` and `MAX_USED_PERMITS`. -/
def maxWindows : ℕ := 100

def maxActiveLeases : ℕ := 512

def maxActiveAppGrants : ℕ := 512

def maxUsedPermits : ℕ := 2048

/-- `MAX_LEASE_TTL_SECONDS`, `MAX_HOST_LEASE_TTL_SECONDS` and `MAX_APP_GRANT_TTL_SECONDS`. -/
def maxLeaseTtlSeconds : ℚ := 15

def maxHostLeaseTtlSeconds : ℚ := 30

def maxAppGrantTtlSeconds : ℚ := 300

structure DesktopActionError where
  code : String
  message : String
  category : Option String := none
deriving DecidableEq

/-- What the code calls of the cryptographic library: a keyed digest, the digest of a canonical
document, and the secret that is derived from an identity secret. -/
structure Host where
  hmac : String → String → String
  sha256 : Json → String
  derivedSecret : String → String

inductive Action where
  | focus
  | requestClose
deriving DecidableEq

def Action.text : Action → String
  | .focus => "focus"
  | .requestClose => "request_close"

/-- `_opaque`. -/
def opaqueText (value fieldName : String) : Except DesktopActionError String :=
  let clean := PyStr.strip value
  if clean = "" ∨ 256 < clean.length ∨ clean.toList.any (fun c => c.toNat < 32) = true then
    .error ⟨"DA_INVALID_SCOPE", s!"{fieldName} is invalid", none⟩
  else .ok clean

structure DesktopActionScope where
  workspaceId : String
  sessionId : String
  turnId : String
  requestId : String
  generationId : String
  interruptionEpoch : ℕ
deriving DecidableEq

def validatedScope (scope : DesktopActionScope) : Except DesktopActionError DesktopActionScope := do
  let workspaceId ← opaqueText scope.workspaceId "workspace_id"
  let sessionId ← opaqueText scope.sessionId "session_id"
  let turnId ← opaqueText scope.turnId "turn_id"
  let requestId ← opaqueText scope.requestId "request_id"
  let generationId ← opaqueText scope.generationId "generation_id"
  pure ⟨workspaceId, sessionId, turnId, requestId, generationId, scope.interruptionEpoch⟩

def DesktopActionScope.toDict (scope : DesktopActionScope) : Json :=
  .obj [("workspace_id", .str scope.workspaceId), ("session_id", .str scope.sessionId),
    ("turn_id", .str scope.turnId), ("request_id", .str scope.requestId),
    ("generation_id", .str scope.generationId), ("interruption_epoch", .num scope.interruptionEpoch)]

structure NativeWindowTarget where
  nativeId : ℤ
  title : String
  appLabel : String
  fingerprint : String
  visible : Bool
  appFingerprint : String
  windowFingerprint : String
deriving DecidableEq

structure TargetLease where
  target : NativeWindowTarget
  scope : DesktopActionScope
  expiresAt : ℚ
  featureRevision : ℕ
  stopEpoch : ℕ
  revocationGeneration : ℕ
  appScopeId : String
  windowScopeId : String
  appGrantId : String
  appGrantRevision : ℕ
  allowedActions : List Action
  revoked : Bool
deriving DecidableEq

/-- `_AppGrant`, under its id. -/
structure AppGrant where
  appScopeId : String
  allowedActions : List Action
  expiresAt : ℚ
  featureRevision : ℕ
  revision : ℕ
  revoked : Bool
deriving DecidableEq

structure HostDiscovery where
  revision : ℕ
  expiresAt : ℚ
  appScopeIds : List String
deriving DecidableEq

/-- `DesktopActionStopFence`, without its providers. -/
structure StopFence where
  stopEpoch : ℕ
  featureRevision : ℕ
  revocationGeneration : ℕ
deriving DecidableEq

/-- The controller: `objects` are all leases that were issued, which calls keep hold of, and
`leases` the ids of those that are registered; a context is its identity. -/
structure Controller where
  enabled : Bool
  emergencyStopped : Bool
  featureRevision : ℕ
  stopEpoch : ℕ
  revocationGeneration : ℕ
  leaseEpoch : ℕ
  leaseDeadline : ℚ
  identitySecret : String
  discoveryRevision : ℕ
  grantRevision : ℕ
  hostDiscovery : Option HostDiscovery
  appGrants : Dict String AppGrant
  objects : Dict String TargetLease
  leases : List String
  bindings : Dict ℕ DesktopActionScope
  usedPermits : List String
deriving DecidableEq

/-- A lock section: its answer, and what it leaves. -/
abbrev Section (α : Type) := Except DesktopActionError α × Controller

namespace Controller

variable (host : Host) (c : Controller) (now : ℚ)

/-! ## Host lease, stops and revocations -/

/-- The registered leases that meet a predicate are revoked. -/
def revokeLeases (p : TargetLease → Bool) : Controller :=
  { c with
    objects := c.objects.mapValues fun id lease =>
      if id ∈ c.leases ∧ p lease = true then { lease with revoked := true } else lease }

def markRevoked (id : String) : Controller :=
  { c with objects := c.objects.mapValues fun other lease =>
      if other = id then { lease with revoked := true } else lease }

def revokeAllLocked : Controller :=
  { c.revokeLeases fun _ => true with
    bindings := Dict.empty
    appGrants := c.appGrants.mapValues fun _ grant => { grant with revoked := true }
    hostDiscovery := none }

/-- `_expire_host_lease_locked`. -/
def expireHostLease : Controller :=
  if c.enabled = true ∧ c.leaseDeadline ≤ now then
    { c with
      enabled := false
      stopEpoch := c.stopEpoch + 1
      featureRevision := c.featureRevision + 1
      revocationGeneration := c.revocationGeneration + 1
      leaseEpoch := c.leaseEpoch + 1 }.revokeAllLocked
  else c

def hostTtl (ttl : ℚ) : Except DesktopActionError ℚ :=
  if 0 < ttl ∧ ttl ≤ maxHostLeaseTtlSeconds then .ok ttl
  else .error ⟨"DA_INVALID_HOST_LEASE_TTL", "host lease TTL is invalid", none⟩

/-- `_start_host_lease_locked`. -/
def startHostLease (ttl : ℚ) : Section Unit :=
  match hostTtl ttl with
  | .error e => (.error e, c)
  | .ok ttl => (.ok (), { c with leaseEpoch := c.leaseEpoch + 1, leaseDeadline := now + ttl })

/-- The counters go up and everything is taken back. -/
def turned (enabled emergencyStopped : Bool) : Controller :=
  { c with
    enabled, emergencyStopped
    featureRevision := c.featureRevision + 1
    stopEpoch := c.stopEpoch + 1
    revocationGeneration := c.revocationGeneration + 1 }.revokeAllLocked

def setEnabled (enabled : Bool) (ttl : ℚ) : Section Unit :=
  let c := c.expireHostLease now
  if enabled = true ∧ c.emergencyStopped = true then
    (.error ⟨"DA_REARM_REQUIRED", "emergency stop must be explicitly rearmed", none⟩, c)
  else if enabled then (c.turned true c.emergencyStopped).startHostLease now ttl
  else (.ok (), { c.turned false c.emergencyStopped with leaseDeadline := 0 })

def rearm (ttl : ℚ) : Section Unit := (c.turned true false).startHostLease now ttl

/-- `heartbeat`, for an epoch that is a positive integer. -/
def heartbeat (epoch : ℕ) (ttl : ℚ) : Section Unit :=
  match hostTtl ttl with
  | .error e => (.error e, c)
  | .ok ttl =>
    let c := c.expireHostLease now
    if c.enabled = false ∨ c.emergencyStopped = true then
      (.error ⟨"DA_HOST_LEASE_EXPIRED", "desktop host lease is not active", none⟩, c)
    else if epoch ≠ c.leaseEpoch then
      (.error ⟨"DA_HOST_LEASE_EPOCH_MISMATCH", "desktop host lease epoch changed", none⟩, c)
    else (.ok (), { c with leaseDeadline := now + ttl })

def emergencyStop : Controller :=
  { c.turned false true with leaseEpoch := c.leaseEpoch + 1, leaseDeadline := 0 }

def latchOutcomeUnknown : Controller := c.turned false true

def revokeAll : Controller :=
  { c with
    featureRevision := c.featureRevision + 1
    revocationGeneration := c.revocationGeneration + 1 }.revokeAllLocked

def revokeTarget (targetLease : String) : Section Bool :=
  match opaqueText targetLease "target_lease" with
  | .error e => (.error e, c)
  | .ok id =>
    if id ∈ c.leases then
      (.ok true, { c.markRevoked id with revocationGeneration := c.revocationGeneration + 1 })
    else (.ok false, c)

def revokeMatching (p : DesktopActionScope → Bool) : Controller :=
  let matched := c.objects.entries.any fun e => decide (e.1 ∈ c.leases) && p e.2.scope
  let c := c.revokeLeases fun lease => p lease.scope
  if matched then { c with revocationGeneration := c.revocationGeneration + 1 } else c

/-- The second section of `revoke_session` and `revoke_scope`. -/
def unbindMatching (p : DesktopActionScope → Bool) : Controller :=
  { c with bindings := c.bindings.filter fun _ scope => !p scope }

/-! ## Contexts and fences -/

/-- `bind_context`, for a scope that is validated. -/
def bindContext (ctx : ℕ) (scope : DesktopActionScope) : Controller :=
  let c := c.expireHostLease now
  if c.enabled = false then { c with bindings := c.bindings.erase ctx }
  else { c with bindings := c.bindings.set ctx scope }

def scopeForContext (ctx : ℕ) : Section DesktopActionScope :=
  let c := c.expireHostLease now
  match c.bindings.get ctx with
  | none => (.error ⟨"DA_HOST_BINDING_REQUIRED", "trusted desktop context is unavailable", none⟩, c)
  | some scope =>
    if c.enabled = false then (.error ⟨"DA_FEATURE_DISABLED", "native desktop actions are disabled", none⟩, c)
    else if c.emergencyStopped = true then
      (.error ⟨"DA_REARM_REQUIRED", "desktop actions require explicit rearm", none⟩, c)
    else (.ok scope, c)

def newFence : StopFence := ⟨c.stopEpoch, c.featureRevision, c.revocationGeneration⟩

/-- `stopped`, as far as the counters go, of a controller whose host lease was looked at. -/
def fenceMoved (fence : StopFence) : Bool :=
  !c.enabled || c.emergencyStopped || decide (c.stopEpoch ≠ fence.stopEpoch) ||
    decide (c.featureRevision ≠ fence.featureRevision) ||
    decide (c.revocationGeneration ≠ fence.revocationGeneration)

/-- What `raise_if_stopped` raises. -/
def fenceError : DesktopActionError :=
  if c.emergencyStopped = true ∨ c.enabled = false then ⟨"DA_EMERGENCY_STOPPED", "desktop action was fenced", none⟩
  else ⟨"DA_ACTION_REVOKED", "desktop action was fenced", none⟩

/-! ## Discovery and grants -/

def appScopeId (target : NativeWindowTarget) : String :=
  let identity := if target.appFingerprint = "" then target.appLabel else target.appFingerprint
  "das_app_" ++ PyStr.textPrefix 40 (host.hmac c.identitySecret ("app\x1f" ++ identity))

def windowScopeId (target : NativeWindowTarget) : String :=
  let identity := if target.windowFingerprint = "" then target.fingerprint else target.windowFingerprint
  "das_window_" ++ PyStr.textPrefix 40 (host.hmac c.identitySecret ("window\x1f" ++ identity))

/-- `_configure_identity_secret_locked`. -/
def configureIdentitySecret : Option String → Section Unit
  | none => (.ok (), c)
  | some material =>
    if material = "" then
      (.error ⟨"DA_HOST_UNAUTHORIZED", "desktop host identity secret is unavailable", none⟩, c)
    else if host.derivedSecret material = c.identitySecret then (.ok (), c)
    else (.ok (), { c with
      identitySecret := host.derivedSecret material
      featureRevision := c.featureRevision + 1
      revocationGeneration := c.revocationGeneration + 1 }.revokeAllLocked)

/-- The first section of `host_discover`. -/
def beginDiscovery (identitySecret : Option String) : Section Unit :=
  let c := c.expireHostLease now
  if c.enabled = false then (.error ⟨"DA_HOST_LEASE_EXPIRED", "desktop host lease is not active", none⟩, c)
  else c.configureIdentitySecret host identitySecret

/-- The last section of `host_discover`. -/
def recordDiscovery (fence : StopFence) (ttl : ℚ) (discovered : List NativeWindowTarget) : Section Unit :=
  let c := c.expireHostLease now
  if c.fenceMoved fence = true then (.error c.fenceError, c)
  else (.ok (), { c with
    discoveryRevision := c.discoveryRevision + 1
    hostDiscovery := some {
      revision := c.discoveryRevision + 1
      expiresAt := now + ttl
      appScopeIds := ((discovered.take maxWindows).map fun target => c.appScopeId host target).dedup } })

def grantActive (grant : AppGrant) : Bool :=
  !grant.revoked && decide (now < grant.expiresAt) && decide (grant.featureRevision = c.featureRevision)

/-- `_prune_app_grants_locked`. -/
def pruneAppGrants : Controller :=
  { c with appGrants := c.appGrants.filter fun _ grant => c.grantActive now grant }

/-- `grant_app`, for a list of actions that is valid. -/
def grantApp (grantId appId : String) (discoveryRevision : ℕ) (allowedActions : List Action) (ttl : ℚ) :
    Section Unit :=
  match opaqueText appId "app_id" with
  | .error e => (.error e, c)
  | .ok selectedApp =>
    if allowedActions = [] then (.error ⟨"DA_APP_ACTIONS_INVALID", "allowed actions are required", none⟩, c)
    else if ¬ (0 < ttl ∧ ttl ≤ maxAppGrantTtlSeconds) then
      (.error ⟨"DA_INVALID_TTL", "app grant TTL is invalid", none⟩, c)
    else
      let c := (c.expireHostLease now).pruneAppGrants now
      match c.hostDiscovery with
      | none => (.error ⟨"DA_DISCOVERY_STALE", "host discovery is stale", none⟩, c)
      | some discovery =>
        if discovery.revision ≠ discoveryRevision ∨ discovery.expiresAt ≤ now then
          (.error ⟨"DA_DISCOVERY_STALE", "host discovery is stale", none⟩, c)
        else if selectedApp ∉ discovery.appScopeIds then
          (.error ⟨"DA_APP_SCOPE_MISMATCH", "application was not in host discovery", none⟩, c)
        else
          -- the other grants and all leases are revoked, and the revoked grants go
          let c := { c.revokeLeases (fun _ => true) with
            appGrants := c.appGrants.mapValues fun _ grant => { grant with revoked := true } }.pruneAppGrants now
          if maxActiveAppGrants ≤ c.appGrants.keys.length then
            (.error ⟨"DA_APP_GRANT_CAPACITY", "application grant capacity is exhausted", none⟩, c)
          else (.ok (), { c with
            grantRevision := c.grantRevision + 1
            appGrants := c.appGrants.set grantId {
              appScopeId := selectedApp
              allowedActions
              expiresAt := now + ttl
              featureRevision := c.featureRevision
              revision := c.grantRevision + 1
              revoked := false } })

/-! ## Leases -/

/-- `_prune_leases_locked`; the objects stay with the calls that hold them. -/
def pruneLeases : Controller :=
  let live := c.leases.filter fun id =>
    (c.objects.get id).any fun lease => !lease.revoked && decide (now < lease.expiresAt)
  { c with leases := live.drop (live.length + 1 - maxActiveLeases) }

/-- The grant of an application among those that count; of several the last one. -/
def activeGrant (appScopeId : String) : Option (String × AppGrant) :=
  (c.appGrants.entries.filter fun e => c.grantActive now e.2 && decide (e.2.appScopeId = appScopeId)).getLast?

/-- One window of the loop of `list_targets`. -/
def issueLease (scope : DesktopActionScope) (ttl : ℚ) (c : Controller) (window : String × NativeWindowTarget) :
    Controller :=
  match c.activeGrant now (c.appScopeId host window.2) with
  | none => c
  | some (grantId, grant) =>
    { c with
      leases := c.leases.drop (c.leases.length + 1 - maxActiveLeases) ++ [window.1]
      objects := c.objects.set window.1 {
        target := window.2
        scope
        expiresAt := now + ttl
        featureRevision := c.featureRevision
        stopEpoch := c.stopEpoch
        revocationGeneration := c.revocationGeneration
        appScopeId := c.appScopeId host window.2
        windowScopeId := c.windowScopeId host window.2
        appGrantId := grantId
        appGrantRevision := grant.revision
        allowedActions := grant.allowedActions
        revoked := false } }

/-- The last section of `list_targets`, with an id for each window. -/
def listWindows (ctx : ℕ) (ttl : ℚ) (scope : DesktopActionScope) (fence : StopFence)
    (windows : List (String × NativeWindowTarget)) : Section Unit :=
  match c.scopeForContext now ctx with
  | (.error e, c) => (.error e, c)
  | (.ok current, c) =>
    if scope ≠ current then (.error ⟨"DA_SCOPE_MISMATCH", "desktop context changed during discovery", none⟩, c)
    else if c.fenceMoved fence = true then (.error c.fenceError, c)
    else
      let c := c.pruneAppGrants now
      if c.appGrants.keys = [] then
        (.error ⟨"DA_APP_GRANT_REQUIRED", "a fresh host application grant is required", none⟩, c)
      else (.ok (), (windows.take maxWindows).foldl (issueLease host now scope ttl) (c.pruneLeases now))

/-- The grant of a lease, where it still counts. -/
def leaseGrant (lease : TargetLease) : Option AppGrant :=
  (c.appGrants.get lease.appGrantId).filter fun grant =>
    c.grantActive now grant && decide (grant.revision = lease.appGrantRevision) &&
      decide (grant.appScopeId = lease.appScopeId)

/-- The second section of `_lease_for`. -/
def checkLease (id : String) (scope : DesktopActionScope) : Section TargetLease :=
  match (c.objects.get id).filter fun _ => decide (id ∈ c.leases) with
  | none => (.error ⟨"DA_TARGET_UNKNOWN", "target lease is unknown", none⟩, c)
  | some lease =>
    if lease.revoked = true then (.error ⟨"DA_TARGET_REVOKED", "target lease was revoked", none⟩, c)
    else if lease.expiresAt ≤ now then
      (.error ⟨"DA_TARGET_EXPIRED", "target lease expired", none⟩, c.markRevoked id)
    else if lease.scope ≠ scope then
      (.error ⟨"DA_SCOPE_MISMATCH", "target lease belongs to another request scope", none⟩, c)
    else if lease.featureRevision ≠ c.featureRevision then
      (.error ⟨"DA_REVISION_MISMATCH", "feature revision changed", none⟩, c)
    else if lease.stopEpoch ≠ c.stopEpoch then (.error ⟨"DA_EMERGENCY_STOPPED", "stop epoch changed", none⟩, c)
    else if lease.revocationGeneration ≠ c.revocationGeneration then
      (.error ⟨"DA_ACTION_REVOKED", "target authorization generation changed", none⟩, c)
    else if c.leaseGrant now lease = none then
      (.error ⟨"DA_APP_GRANT_EXPIRED", "application grant is no longer valid", none⟩, c.markRevoked id)
    else (.ok lease, c)

end Controller

end Desktop
