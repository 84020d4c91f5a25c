import Yuizaki.Store.State

/- Semantic turn claims and commits (`TurnCommitStore.claim`, `renew_claim`,
   `release_claim`, `persist`, `load` in `modules/agent/turn_store.py`) and the way
   `TurnService._execute_once` reads a commit back (`_load_persisted`).

   A claim is a lease on an idempotency key with a fencing token that grows with
   every takeover. `persist` writes the commit and its outbox event in one
   transaction; a commit that names a claim owner is checked against the claim
   row and deletes it. A method that raises rolls its transaction back, so it is
   an `Except` and leaves the store alone. -/
namespace TurnStore

/-! ## Claims -/

/-- The outcome of `claim`. -/
inductive ClaimOutcome where
  | committed
  | conflict
  | claimed (fencingToken : ℤ) (leaseExpiresAt : ℚ)
  | busy (retryAfter : ℚ)
deriving DecidableEq

/-- The fencing token a granted claim carries: 1 on a free key, the old one on a
live lease of the same owner, the next one on a takeover or after an expiry. -/
def nextFencingToken (current : Option ClaimRow) (ownerId : String) (now : ℚ) : ℤ :=
  match current with
  | none => 1
  | some row =>
    row.fencingToken + (if row.ownerId ≠ ownerId ∨ row.leaseExpiresAt ≤ now then 1 else 0)

/-- Whether `claim` may write over the current claim. -/
def claimable (current : Option ClaimRow) (ownerId : String) (now : ℚ) : Bool :=
  match current with
  | none => true
  | some row => row.ownerId = ownerId ∨ row.leaseExpiresAt ≤ now

/-- `claim`: the key must be uncommitted, and free, the caller's own or expired. -/
def claim (s : Store) (now : ℚ) (idempotencyKey semanticFingerprint ownerId : String)
    (leaseSeconds : ℚ) : Store × ClaimOutcome :=
  match s.turnCommits.lookup idempotencyKey with
  | some committed =>
    (s, if committed.semanticFingerprint = semanticFingerprint then .committed else .conflict)
  | none =>
    let current := s.turnClaims.lookup idempotencyKey
    if current.any (fun row => row.semanticFingerprint ≠ semanticFingerprint) then
      (s, .conflict)
    else if claimable current ownerId now then
      let fencingToken := nextFencingToken current ownerId now
      let leaseExpiresAt := now + leaseFloor leaseSeconds
      let row : ClaimRow :=
        { semanticFingerprint, ownerId, fencingToken, leaseExpiresAt, updatedAt := now }
      ({ s with turnClaims := s.turnClaims.insert idempotencyKey row },
        .claimed fencingToken leaseExpiresAt)
    else
      (s, .busy (max (1 / 100) ((current.map (·.leaseExpiresAt)).getD 0 - now)))

/-- `renew_claim`: only a live lease of this owner and token moves. -/
def renewClaim (s : Store) (now : ℚ) (idempotencyKey ownerId : String) (fencingToken : ℤ)
    (leaseSeconds : ℚ) : Store × Bool :=
  match s.turnClaims.lookup idempotencyKey with
  | some row =>
    if row.ownerId = ownerId ∧ row.fencingToken = fencingToken ∧ now < row.leaseExpiresAt then
      let renewed : ClaimRow :=
        { row with leaseExpiresAt := now + leaseFloor leaseSeconds, updatedAt := now }
      ({ s with turnClaims := s.turnClaims.insert idempotencyKey renewed }, true)
    else (s, false)
  | none => (s, false)

/-- The claim table without the claim of this owner and token, if it is there. -/
def deleteClaim (claims : AList (fun _ : String => ClaimRow)) (idempotencyKey ownerId : String)
    (fencingToken : ℤ) : AList (fun _ : String => ClaimRow) × Bool :=
  match claims.lookup idempotencyKey with
  | some row =>
    if row.ownerId = ownerId ∧ row.fencingToken = fencingToken then
      (claims.erase idempotencyKey, true)
    else (claims, false)
  | none => (claims, false)

def releaseClaim (s : Store) (idempotencyKey ownerId : String) (fencingToken : ℤ) :
    Store × Bool :=
  let deleted := deleteClaim s.turnClaims idempotencyKey ownerId fencingToken
  ({ s with turnClaims := deleted.1 }, deleted.2)

/-! ## The committed payload -/

/-- `IntentEnvelope`, the value under `extra["intent_envelope"]`. -/
structure IntentEnvelope where
  intentType : String
  normalizedGoal : String
  confidence : ℚ
  evidenceIds : List String
  requiresConfirmation : Bool
  sensitivity : String
  expiresAt : ℚ

/-- `str(value or fallback)` on text. -/
def textOr (value fallback : String) : String := if value = "" then fallback else value

/-- `_intent_envelope_snapshot` of an envelope. -/
def intentEnvelopeSnapshot (e : IntentEnvelope) : Json :=
  .obj [
    ("schemaVersion", .str "yuizaki.intent-envelope.v1"),
    ("intentType", .str (PyStr.textPrefix 32 (textOr e.intentType "unknown"))),
    ("normalizedGoal", .str (PyStr.textPrefix 2000 e.normalizedGoal)),
    ("confidence", .num (max 0 (min 1 e.confidence))),
    ("evidenceIds", .arr ((e.evidenceIds.take 16).map (fun item => .str (PyStr.textPrefix 160 item)))),
    ("requiresConfirmation", .bool e.requiresConfirmation),
    ("sensitivity", .str (PyStr.textPrefix 16 (textOr e.sensitivity "normal"))),
    ("expiresAt", .num e.expiresAt)]

/-- What `persist` reads of the request context. -/
structure TurnContext where
  workspaceId : Option String
  sessionId : String
  requestId : Option String
  turnId : Option String
  generationId : Option String
  interruptionEpoch : ℤ
  extra : Json
  intentEnvelope : Option IntentEnvelope
  autonomyMode : String
  model : Option String
  messages : List Json

/-- What `persist` stores of an `AgentPipelineResult`. -/
structure PipelineResult where
  reply : String
  petControl : Json
  toolCalls : Json
  actionEnvelope : Json
  failure : Json
  recovery : Json
  outcome : String
  retryable : Bool
  configuredBudget : Json
  consumedUsage : Json
deriving DecidableEq

/-- A finalized turn on its way into the store. The service mints the key. -/
structure TurnCommit where
  idempotencyKey : Ident
  semanticFingerprint : String
  trigger : String
  context : TurnContext
  result : PipelineResult
  claimOwner : Option String
  claimFencingToken : Option ℤ

/-- `None` or text, as JSON. -/
def optText (value : Option String) : Json := (value.map Json.str).getD .null

/-- `dict(value or {})`. -/
def dictOr (value : Json) : Json :=
  match value with
  | .obj kvs => .obj kvs
  | _ => .obj []

/-- `_persist_recovery_descriptor`: an available handle is marked with the
process that holds it. -/
def persistRecoveryDescriptor (processEpoch : String) (value : Json) : Json :=
  match value with
  | .obj kvs =>
    if (Json.obj kvs).get "available" = .bool true then
      .obj (Json.setEntry kvs "_process_epoch" (.str processEpoch))
    else .obj kvs
  | _ => .null

/-- The recovery descriptor of another process: no handle survives it. -/
def staleRecovery (kvs : List (String × Json)) : Json :=
  let stale := ["scope", "single_use", "failed_step_id", "durable_recovery_id",
    "recovery_schema", "durable_available"].filterMap
      (fun key => (kvs.lookup key).map (fun v => (key, v)))
  let durable := ((Json.obj stale).get "durable_available").truthy &&
    ((Json.obj stale).get "durable_recovery_id").truthy
  .obj (stale ++ [
    ("available", .bool false),
    ("action", .str (if durable then "resume_read_step" else "inspect_failure")),
    ("retryable", .bool durable),
    ("confirmation_required", .bool (!durable)),
    ("reason", .str "process_state_missing")])

def loadRecoveryDescriptor (processEpoch : String) (value : Json) : Json :=
  match value with
  | .obj kvs =>
    let descriptor := kvs.filter (fun e => e.1 ≠ "_process_epoch")
    if (Json.obj kvs).get "available" = .bool true ∧
        (Json.obj kvs).get "_process_epoch" ≠ .str processEpoch then
      staleRecovery descriptor
    else .obj descriptor
  | _ => .null

/-- The entries of the payload that every commit has. -/
def payloadBase (processEpoch : String) (committedAt : ℚ) (c : TurnCommit) :
    List (String × Json) :=
  let ctx := c.context
  let extra := ctx.extra
  [("schema_version", .int 1),
    ("idempotency_key", .str c.idempotencyKey.text),
    ("semantic_fingerprint", .str c.semanticFingerprint),
    ("trigger", .str c.trigger),
    ("workspace_id", optText ctx.workspaceId),
    ("session_id", .str ctx.sessionId),
    ("request_id", optText ctx.requestId),
    ("turn_id", (optText ctx.turnId).or (extra.get "turn_id")),
    ("generation_id", (optText ctx.generationId).or (extra.get "generation_id")),
    ("interruption_epoch", .int ctx.interruptionEpoch),
    ("job_id", extra.get "job_id"),
    ("run_id", extra.get "run_id"),
    ("task_id", extra.get "task_id"),
    ("task_name", extra.get "task_name"),
    ("task_mode", extra.get "task_mode"),
    ("recovery_id", extra.get "recovery_id"),
    ("recovery_attempt", extra.get "recovery_attempt"),
    ("recovery_source", extra.get "recovery_source"),
    ("owner_agent_id", extra.get "owner_agent_id"),
    ("owner_agent_role", extra.get "owner_agent_role"),
    ("route_reason", extra.get "route_reason"),
    ("source", extra.get "source"),
    ("source_id", extra.get "source_id"),
    ("source_kind", extra.get "source_kind"),
    ("stream_draft", .bool (extra.get "stream_draft").truthy),
    ("autonomy_mode", .str ctx.autonomyMode),
    ("model", optText ctx.model),
    ("messages", .arr ctx.messages),
    ("reply", .str c.result.reply),
    ("pet_control", c.result.petControl),
    ("tool_calls", c.result.toolCalls),
    ("action_envelope", c.result.actionEnvelope),
    ("failure", c.result.failure),
    ("recovery", persistRecoveryDescriptor processEpoch c.result.recovery),
    ("outcome", .str c.result.outcome),
    ("retryable", .bool c.result.retryable),
    ("configured_budget", dictOr c.result.configuredBudget),
    ("consumed_usage", dictOr c.result.consumedUsage),
    ("committed_at", .num committedAt)]

/-- The `job_terminal` entry of a turn that belongs to a job or a run. -/
def jobTerminal (base : List (String × Json)) : Json :=
  let payload := Json.obj base
  .obj [
    ("status", payload.get "outcome"),
    ("job_id", payload.get "job_id"),
    ("run_id", payload.get "run_id"),
    ("task_id", payload.get "task_id"),
    ("task_name", payload.get "task_name"),
    ("task_mode", payload.get "task_mode"),
    ("owner_agent_id", payload.get "owner_agent_id"),
    ("owner_agent_role", payload.get "owner_agent_role"),
    ("route_reason", payload.get "route_reason")]

/-- The payload `persist` writes into both tables. -/
def commitPayload (processEpoch : String) (committedAt : ℚ) (c : TurnCommit) : Json :=
  let base := payloadBase processEpoch committedAt c
  let intent := match c.context.intentEnvelope with
    | some e => [("intent_envelope", intentEnvelopeSnapshot e)]
    | none => []
  let terminal :=
    if ((Json.obj base).get "job_id").truthy || ((Json.obj base).get "run_id").truthy then
      [("job_terminal", jobTerminal base)]
    else []
  .obj (base ++ intent ++ terminal)

/-! ## Commit and replay -/

/-- What `persist` raises. -/
inductive PersistError where
  | identityReused
  | claimLost
deriving DecidableEq

/-- `str(claim_owner or "").strip()`. -/
def commitOwner (c : TurnCommit) : String := PyStr.strip (c.claimOwner.getD "")

/-- `int(claim_fencing_token or 0)`. -/
def commitToken (c : TurnCommit) : ℤ := c.claimFencingToken.getD 0

/-- The claim row a fenced commit needs: its owner, its token, its lease alive. -/
def claimHeld (s : Store) (idempotencyKey owner : String) (token : ℤ) (now : ℚ) : Bool :=
  match s.turnClaims.lookup idempotencyKey with
  | some row => row.ownerId = owner ∧ row.fencingToken = token ∧ now < row.leaseExpiresAt
  | none => false

/-- The row `persist` offers to `turn_commits`. -/
def commitRow (processEpoch : String) (now : ℚ) (c : TurnCommit) : CommitRow where
  semanticFingerprint := c.semanticFingerprint
  trigger := c.trigger
  workspaceId := c.context.workspaceId
  sessionId := c.context.sessionId
  requestId := c.context.requestId
  resultJson := commitPayload processEpoch now c
  createdAt := now

/-- The row `persist` offers to `turn_outbox`. -/
def outboxRow (processEpoch : String) (now : ℚ) (c : TurnCommit) : OutboxRow where
  eventType := "turn.committed"
  payloadJson := commitPayload processEpoch now c
  availableAt := now
  attemptCount := 0
  claimedBy := none
  claimExpiresAt := none
  lastError := none
  deadLetteredAt := none
  deliveredAt := none

/-- `INSERT OR IGNORE INTO turn_commits`. -/
def insertCommit (commits : AList (fun _ : String => CommitRow)) (key : String)
    (row : CommitRow) : AList (fun _ : String => CommitRow) :=
  match commits.lookup key with
  | some _ => commits
  | none => commits.insert key row

/-- `persist`: both inserts and the deletion of the claim, or nothing. -/
def persist (s : Store) (processEpoch : String) (now : ℚ) (c : TurnCommit) :
    Except PersistError Store :=
  let key := c.idempotencyKey.text
  let owner := commitOwner c
  let token := commitToken c
  if (s.turnCommits.lookup key).any
      (fun row => row.semanticFingerprint ≠ c.semanticFingerprint) then
    .error .identityReused
  else if owner ≠ "" ∧ claimHeld s key owner token now = false then
    .error .claimLost
  else
    .ok { s with
      turnCommits := insertCommit s.turnCommits key (commitRow processEpoch now c)
      turnOutbox := s.turnOutbox.insertOrIgnore key (outboxRow processEpoch now c)
      turnClaims :=
        if owner ≠ "" then (deleteClaim s.turnClaims key owner token).1 else s.turnClaims }

/-- A commit as `load` returns it. -/
structure LoadedTurn where
  idempotencyKey : String
  semanticFingerprint : String
  trigger : String
  result : Json
  createdAt : ℚ
deriving DecidableEq

def setDefault (kvs : List (String × Json)) (key : String) (v : Json) :
    List (String × Json) :=
  match kvs.lookup key with
  | some _ => kvs
  | none => Json.setEntry kvs key v

/-- The result of a stored payload, as `load` rebuilds it. -/
def loadResult (processEpoch : String) (resultJson : Json) : Json :=
  match resultJson with
  | .obj kvs =>
    let kvs := setDefault kvs "outcome" (.str "completed")
    let kvs := setDefault kvs "retryable" (.bool false)
    let kvs := Json.setEntry kvs "recovery"
      (loadRecoveryDescriptor processEpoch ((Json.obj kvs).get "recovery"))
    let kvs := Json.setEntry kvs "configured_budget"
      (dictOr ((Json.obj kvs).get "configured_budget"))
    .obj (Json.setEntry kvs "consumed_usage" (dictOr ((Json.obj kvs).get "consumed_usage")))
  | other => other

def CommitRow.loaded (processEpoch key : String) (row : CommitRow) : LoadedTurn where
  idempotencyKey := key
  semanticFingerprint := row.semanticFingerprint
  trigger := row.trigger
  result := loadResult processEpoch row.resultJson
  createdAt := row.createdAt

def load (s : Store) (processEpoch idempotencyKey : String) : Option LoadedTurn :=
  let key := PyStr.strip idempotencyKey
  if key = "" then none
  else (s.turnCommits.lookup key).map (CommitRow.loaded processEpoch key)

/-- What `_load_persisted` raises. -/
inductive ReplayError where
  | identityConflict (key : String)
  | invalidResult
  | invalidToolCalls
  | invalidPetControl
  | invalidActionEnvelope
  | invalidFailure
  | invalidRecovery
  | invalidOutcome
deriving DecidableEq

/-- `isinstance(value, dict)`. -/
def isDict : Json → Bool
  | .obj _ => true
  | _ => false

/-- `isinstance(value, list) and all(isinstance(item, dict) for item in value)`. -/
def isDictList : Json → Bool
  | .arr xs => xs.all isDict
  | _ => false

/-- `value is None or isinstance(value, dict)`. -/
def isDictOrNone (value : Json) : Bool := value = .null ∨ isDict value

/-- A text value, empty for every other. -/
def textOf : Json → String
  | .str s => s
  | _ => ""

/-- The body of `_load_persisted` after the fingerprint check. -/
def replayResult (raw : Json) : Except ReplayError PipelineResult :=
  let outcome := textOr (textOf (raw.get "outcome")) "completed"
  if isDict raw = false then .error .invalidResult
  else if isDictList (raw.get "tool_calls") = false then .error .invalidToolCalls
  else if isDictOrNone (raw.get "pet_control") = false then .error .invalidPetControl
  else if isDictOrNone (raw.get "action_envelope") = false then .error .invalidActionEnvelope
  else if isDictOrNone (raw.get "failure") = false then .error .invalidFailure
  else if isDictOrNone (raw.get "recovery") = false then .error .invalidRecovery
  else if outcome ∉ ["completed", "cancelled", "failed", "unknown_effect"] then
    .error .invalidOutcome
  else .ok
    { reply := textOf (raw.get "reply")
      petControl := raw.get "pet_control"
      toolCalls := raw.get "tool_calls"
      actionEnvelope := raw.get "action_envelope"
      failure := raw.get "failure"
      recovery := raw.get "recovery"
      outcome
      retryable := (raw.get "retryable").truthy
      configuredBudget := (raw.get "configured_budget").or (.obj [])
      consumedUsage := (raw.get "consumed_usage").or (.obj []) }

/-- `_load_persisted`: the durable result, if there is one, under its own input. -/
def loadPersisted (key fingerprint : String) (stored : Option LoadedTurn) :
    Except ReplayError (Option PipelineResult) :=
  match stored with
  | none => .ok none
  | some turn =>
    if turn.semanticFingerprint ≠ fingerprint then .error (.identityConflict key)
    else (replayResult turn.result).map some

/-- The result `_execute_once` returns after its `persist`: what the store holds
(`commit.result = authority.result`), its own only where the store holds nothing. -/
def persistedResult (c : TurnCommit) (stored : Option LoadedTurn) :
    Except ReplayError PipelineResult :=
  (loadPersisted c.idempotencyKey.text c.semanticFingerprint stored).map
    (fun authority => authority.getD c.result)

/-- A finished turn under a minted key, no claim taken. -/
def sampleTurn (key : Ident) : TurnCommit where
  idempotencyKey := key
  semanticFingerprint := "fp"
  trigger := "http"
  context :=
    { workspaceId := none, sessionId := "s", requestId := none, turnId := none
      generationId := none, interruptionEpoch := 0, extra := .obj [], intentEnvelope := none
      autonomyMode := "manual", model := none, messages := [] }
  result :=
    { reply := "done", petControl := .null, toolCalls := .arr [], actionEnvelope := .null
      failure := .null, recovery := .null, outcome := "completed", retryable := false
      configuredBudget := .obj [], consumedUsage := .obj [] }
  claimOwner := none
  claimFencingToken := none

def sampleKey : Ident := ⟨"turn:1", by decide, by decide⟩

end TurnStore
