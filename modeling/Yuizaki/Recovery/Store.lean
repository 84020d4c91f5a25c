import Mathlib.Algebra.Order.Ring.Rat
import Yuizaki.Lib.Dict
import Yuizaki.Lib.Run
import Yuizaki.Plan.Step

/- The durable recovery markers (`modules/agent/recovery_store.py`).

   `SQLiteStepRecoveryStore` keeps one table. A marker is put as pending, claimed by its
   id or as the earliest due one, and finished by the holder of its lease; it may be
   deleted or reaped at any time. A method is one transaction and reads the clock once.
   Secrets are arguments: the token of a claim is whatever the call draws. -/
namespace Recovery

open Plan Transition

/-! ## The table -/

/-- The values of `status`. -/
inductive RecoveryStatus where
  | pending
  | claimed
  | succeeded
  | failed
deriving DecidableEq

structure RecoveryScope where
  workspaceId : Option String
  sessionId : Option String
  turnId : Option String
  failedStepId : Option String
deriving DecidableEq

/-- A row of `step_recoveries`, its id apart. -/
structure RecoveryRow where
  stepJson : String
  status : RecoveryStatus
  attempts : ℕ
  nextAttemptAt : ℚ
  leaseOwner : Option String
  leaseExpiresAt : Option ℚ
  fencingToken : Option String
  scope : RecoveryScope
  planHash : Option String
  contextJson : Option String
  resultJson : Option String
  completedAt : Option ℚ
  expiresAt : Option ℚ
  updatedAt : ℚ
deriving DecidableEq

abbrev RecoveryStore := Dict String RecoveryRow

/-- How steps and JSON are written as text and read back, and how text that is not ASCII is
lowered. -/
structure RecoveryCodec where
  serializeStep : Step → Except String String
  deserializeStep : String → Except String Step
  dumps : Json → Except String String
  loads : String → Except String Json
  wide : String → String

/-! ## Snapshots -/

def secretKeys : List String :=
  ["authorization", "token", "access_token", "api_key", "apikey", "password", "secret", "cookie",
    "set-cookie"]

def secretKey (wide : String → String) (key : String) : Bool :=
  PyStr.replaceChar '-' '_' (PyStr.lower wide key) ∈ secretKeys ∨
    ["token", "secret", "password", "authorization", "api_key"].any
      (fun part => PyStr.contains (PyStr.lower wide key) part) = true

mutual

def checkArgs (wide : String → String) (depth : ℕ) : Json → Except String Unit
  | .obj kvs =>
    if 8 < depth then .error "recovery_arguments_too_deep"
    else if 128 < kvs.length then .error "recovery_arguments_too_large"
    else checkEntries wide depth kvs
  | .arr xs =>
    if 8 < depth then .error "recovery_arguments_too_deep"
    else if 128 < xs.length then .error "recovery_arguments_too_large"
    else checkItems wide depth xs
  | .str s =>
    if 8 < depth then .error "recovery_arguments_too_deep"
    else if 65536 < s.length then .error "recovery_argument_value_too_large"
    else .ok ()
  | _ => if 8 < depth then .error "recovery_arguments_too_deep" else .ok ()

def checkEntries (wide : String → String) (depth : ℕ) : List (String × Json) → Except String Unit
  | [] => .ok ()
  | (key, child) :: rest =>
    if 128 < key.length then .error "recovery_argument_key_invalid"
    else if secretKey wide key then .error "recovery_secret_argument_rejected"
    else match checkArgs wide (depth + 1) child with
      | .error message => .error message
      | .ok _ => checkEntries wide depth rest

def checkItems (wide : String → String) (depth : ℕ) : List Json → Except String Unit
  | [] => .ok ()
  | child :: rest =>
    match checkArgs wide (depth + 1) child with
    | .error message => .error message
    | .ok _ => checkItems wide depth rest

end

def isObject : Json → Bool
  | .obj _ => true
  | _ => false

def maxRecoveryJsonBytes : ℕ := 256 * 1024

def serializeSnapshot (codec : RecoveryCodec) (label : String) :
    Option Json → Except String (Option String)
  | none => .ok none
  | some .null => .ok none
  | some value =>
    if label = "context" ∧ isObject value = false then .error "recovery_context_invalid"
    else match checkArgs codec.wide 0 value with
      | .error message => .error message
      | .ok _ => match codec.dumps value with
        | .error _ => .error ("recovery_" ++ label ++ "_invalid")
        | .ok encoded =>
          if maxRecoveryJsonBytes < encoded.utf8ByteSize then
            .error ("recovery_" ++ label ++ "_too_large")
          else .ok (some encoded)

def deserializeSnapshot (codec : RecoveryCodec) (label : String) :
    Option String → Except String (Option Json)
  | none => .ok none
  | some document => match codec.loads document with
    | .error _ => .error ("recovery_" ++ label ++ "_invalid")
    | .ok value => match checkArgs codec.wide 0 value with
      | .error message => .error message
      | .ok _ => .ok (some value)

/-! ## Limits -/

def maxRecoveryAttempts : ℕ := 3

def leaseSeconds : ℚ := 60

/-! ## Putting a marker -/

/-- The optional arguments of `put`. -/
structure PutArgs where
  nextAttemptAt : Option ℚ
  expiresAt : Option ℚ
  scope : RecoveryScope
  planHash : Option String
  contextSnapshot : Option Json
  result : Option Json

/-- The first scope field that is too long. -/
def invalidField (args : PutArgs) : Option String :=
  ([("workspace_id", args.scope.workspaceId), ("session_id", args.scope.sessionId),
    ("turn_id", args.scope.turnId), ("failed_step_id", args.scope.failedStepId),
    ("plan_hash", args.planHash)].find? (fun f => f.2.any (fun v => 256 < v.length))).map Prod.fst

def newRow (now : ℚ) (step : String) (args : PutArgs) (context result : Option String) :
    RecoveryRow where
  stepJson := step
  status := .pending
  attempts := 0
  nextAttemptAt := args.nextAttemptAt.getD now
  leaseOwner := none
  leaseExpiresAt := none
  fencingToken := none
  scope := args.scope
  planHash := args.planHash
  contextJson := context
  resultJson := result
  completedAt := none
  expiresAt := args.expiresAt
  updatedAt := now

/-- `DO UPDATE` of a pending marker. -/
def RecoveryRow.refresh (row : RecoveryRow) (now : ℚ) (step : String) (args : PutArgs)
    (context result : Option String) : RecoveryRow :=
  { row with
    stepJson := step
    nextAttemptAt := args.nextAttemptAt.getD now
    scope := args.scope
    planHash := args.planHash
    contextJson := context
    resultJson := result
    expiresAt := args.expiresAt
    updatedAt := now }

def put (codec : RecoveryCodec) (s : RecoveryStore) (now : ℚ) (recoveryId : String) (step : Step)
    (args : PutArgs) : Except String RecoveryStore :=
  if recoveryId = "" ∨ 256 < recoveryId.length then .error "recovery_id_invalid"
  else match invalidField args with
    | some field => .error (field ++ "_invalid")
    | none => do
      let encoded ← codec.serializeStep step
      let context ← serializeSnapshot codec "context" args.contextSnapshot
      let result ← serializeSnapshot codec "result" args.result
      .ok (match s.get recoveryId with
        | none => s.set recoveryId (newRow now encoded args context result)
        | some row =>
          if row.status = .pending then
            s.set recoveryId (row.refresh now encoded args context result)
          else s)

/-! ## Claiming -/

def RecoveryRow.alive (row : RecoveryRow) (now : ℚ) : Bool := row.expiresAt.all (fun t => now < t)

def RecoveryRow.claim (row : RecoveryRow) (now : ℚ) (owner token : String) : RecoveryRow :=
  { row with
    status := .claimed
    leaseOwner := some owner
    leaseExpiresAt := some (now + leaseSeconds)
    fencingToken := some token
    attempts := row.attempts + 1
    updatedAt := now }

def ownerValid (owner : String) : Bool := PyStr.strip owner ≠ "" ∧ owner.length ≤ 160

/-- Each scope column that is set agrees with the caller's. -/
def RecoveryScope.admits (row caller : RecoveryScope) : Bool :=
  [(row.workspaceId, caller.workspaceId), (row.sessionId, caller.sessionId),
    (row.turnId, caller.turnId), (row.failedStepId, caller.failedStepId)].all
    (fun f => f.1 = none ∨ f.1 = f.2)

/-- Whether `claim_recovery` takes the row: a lease that ends at zero counts as none. -/
def RecoveryRow.claimable (row : RecoveryRow) (now : ℚ) (scope : RecoveryScope) : Bool :=
  row.alive now ∧ row.status ∈ [.pending, .claimed] ∧ row.attempts < maxRecoveryAttempts ∧
    ¬ (row.status = .claimed ∧ row.leaseExpiresAt.any (fun t => t ≠ 0 ∧ now < t) = true) ∧
    row.scope.admits scope = true

structure RecoveryClaim where
  recoveryId : String
  row : RecoveryRow
  step : Step
  contextSnapshot : Option Json
  result : Option Json
  fencingToken : String

/-- The transaction of `claim_recovery`: none where there is nothing to claim. -/
def takeMarker (s : RecoveryStore) (now : ℚ) (recoveryId owner : String) (scope : RecoveryScope)
    (token : String) : Except String (Option (RecoveryRow × RecoveryStore)) :=
  if ownerValid owner = false then .error "recovery_owner_invalid"
  else .ok (((s.get recoveryId).filter (fun row => row.claimable now scope)).map (fun row =>
    (row.claim now owner token, s.set recoveryId (row.claim now owner token))))

/-- What `claim_recovery` hands out for the row it took. -/
def readClaim (codec : RecoveryCodec) (recoveryId token : String) (row : RecoveryRow) :
    Except String RecoveryClaim := do
  let contextSnapshot ← deserializeSnapshot codec "context" row.contextJson
  let result ← deserializeSnapshot codec "result" row.resultJson
  let step ← codec.deserializeStep row.stepJson
  .ok ⟨recoveryId, row, step, contextSnapshot, result, token⟩

/-- `claim_recovery`: the row is read back only after the lease is written. -/
def claimRecovery (codec : RecoveryCodec) (s : RecoveryStore) (now : ℚ) (recoveryId owner : String)
    (scope : RecoveryScope) (token : String) :
    RecoveryStore × Except String (Option RecoveryClaim) :=
  match takeMarker s now recoveryId owner scope token with
  | .error message => (s, .error message)
  | .ok none => (s, .ok none)
  | .ok (some (row, s')) => (s', (readClaim codec recoveryId token row).map some)

/-- Whether `claim_due` takes the row. -/
def RecoveryRow.due (row : RecoveryRow) (now : ℚ) : Bool :=
  (row.status = .pending ∨
      row.status = .claimed ∧ row.leaseExpiresAt.any (fun t => t ≤ now) = true) ∧
    row.attempts < maxRecoveryAttempts ∧ row.nextAttemptAt ≤ now ∧ row.alive now = true

/-- `ORDER BY next_attempt_at, recovery_id`. -/
def dueBefore (a b : String × RecoveryRow) : Prop :=
  a.2.nextAttemptAt < b.2.nextAttemptAt ∨
    a.2.nextAttemptAt = b.2.nextAttemptAt ∧ a.1 ≤ b.1

instance (a b : String × RecoveryRow) : Decidable (dueBefore a b) :=
  inferInstanceAs (Decidable (_ ∨ _))

def earlierDue : Option (String × RecoveryRow) → String × RecoveryRow →
    Option (String × RecoveryRow)
  | none, e => some e
  | some best, e => if dueBefore best e then some best else some e

def firstDue (s : RecoveryStore) (now : ℚ) : Option (String × RecoveryRow) :=
  (s.entries.filter (fun e => e.2.due now)).foldl earlierDue none

/-- `claim_due`: a step that cannot be read rolls the transaction back. -/
def claimDue (codec : RecoveryCodec) (s : RecoveryStore) (now : ℚ) (owner token : String) :
    RecoveryStore × Except String (Option (String × Step × String)) :=
  if ownerValid owner = false then (s, .error "recovery_owner_invalid")
  else match firstDue s now with
    | none => (s, .ok none)
    | some (recoveryId, row) => match codec.deserializeStep row.stepJson with
      | .error message => (s, .error message)
      | .ok step =>
        (s.set recoveryId (row.claim now owner token), .ok (some (recoveryId, step, token)))

/-! ## Finishing and removing -/

def RecoveryRow.finish (row : RecoveryRow) (now : ℚ) (success : Bool) (completed : Option String) :
    RecoveryRow :=
  { row with
    status := if success then .succeeded else .failed
    resultJson := completed
    completedAt := some now
    leaseOwner := none
    leaseExpiresAt := none
    fencingToken := none
    updatedAt := now }

/-- The row is held under an owner and a token. -/
def RecoveryRow.heldBy (row : RecoveryRow) (owner token : String) : Bool :=
  row.status = .claimed ∧ row.leaseOwner = some owner ∧ row.fencingToken = some token

/-- `finish`: the token is taken without the blanks around it. -/
def finish (codec : RecoveryCodec) (s : RecoveryStore) (now : ℚ) (recoveryId : String)
    (success : Bool) (owner token : String) (result error : Option Json) :
    RecoveryStore × Except String Bool :=
  if PyStr.strip token = "" ∨ 128 < token.length then
    (s, .error "recovery_fencing_token_invalid")
  else if result ≠ none ∧ error ≠ none then (s, .error "recovery_result_error_exclusive")
  else match serializeSnapshot codec "result" (if success then result else error) with
    | .error message => (s, .error message)
    | .ok completed =>
      match (s.get recoveryId).filter (fun row => row.heldBy owner (PyStr.strip token)) with
      | none => (s, .ok false)
      | some row => (s.set recoveryId (row.finish now success completed), .ok true)

def delete (s : RecoveryStore) (recoveryId : String) : RecoveryStore × Bool :=
  (s.erase recoveryId, (s.get recoveryId).isSome)

def reapExpired (s : RecoveryStore) (now : ℚ) : RecoveryStore :=
  s.filter (fun _ row => row.alive now)

end Recovery
