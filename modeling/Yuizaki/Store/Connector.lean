import Yuizaki.Store.State

/- Connector deliveries (`record_connector_turn_pending` to
   `mark_connector_delivery_failed` in `modules/agent/turn_store.py`).

   A row of `connector_deliveries` follows one inbound message: its turn is
   processing, its reply is being sent, it was delivered, or it failed. Most methods
   are one guarded `UPDATE` of the row of a key (`updateDelivery`); a method whose
   guard does not hold changes nothing and answers `False`. `DeliveryOp` collects the
   methods, `applyDelivery` runs one, and `applyDelivery_move` lists, row by row,
   everything they can do. -/
namespace TurnStore

def Store.delivery (s : Store) (key : String) : Option DeliveryRow :=
  s.connectorDeliveries.lookup key

def Store.putDelivery (s : Store) (key : String) (row : DeliveryRow) : Store :=
  { s with connectorDeliveries := s.connectorDeliveries.insert key row }

def Store.dropDelivery (s : Store) (key : String) : Store :=
  { s with connectorDeliveries := s.connectorDeliveries.erase key }

@[simp] theorem Store.delivery_put (s : Store) (key k : String) (row : DeliveryRow) :
    (s.putDelivery key row).delivery k = if k = key then some row else s.delivery k := by
  unfold Store.delivery Store.putDelivery
  by_cases hk : k = key
  · subst hk
    simp
  · simp [hk, AList.lookup_insert_ne hk]

@[simp] theorem Store.delivery_drop (s : Store) (key k : String) :
    (s.dropDelivery key).delivery k = if k = key then none else s.delivery k := by
  unfold Store.delivery Store.dropDelivery
  by_cases hk : k = key
  · subst hk
    simp
  · simp [hk, AList.lookup_erase_ne hk]

/-- `UPDATE connector_deliveries SET … WHERE delivery_key = ? AND …`. -/
def updateDelivery (s : Store) (key : String) (guard : DeliveryRow → Bool)
    (set : DeliveryRow → DeliveryRow) : Store × Bool :=
  match s.delivery key with
  | some row => if guard row then (s.putDelivery key (set row), true) else (s, false)
  | none => (s, false)

/-- `claim_expires_at IS NOT NULL AND claim_expires_at <= ?`. -/
def DeliveryRow.leaseOver (row : DeliveryRow) (now : ℚ) : Bool :=
  row.claimExpiresAt.any (fun t => t ≤ now)

/-- `claimed_by = ? AND status = ?`. -/
def DeliveryRow.claimedIn (row : DeliveryRow) (owner : String) (status : DeliveryStatus) : Bool :=
  row.claimedBy = some owner ∧ row.status = status

/-- Whether another owner's lease on the row is alive. -/
def DeliveryRow.busyFor (row : DeliveryRow) (owner : String) (now : ℚ) : Bool :=
  row.claimedBy.getD "" ≠ "" ∧ row.claimedBy.getD "" ≠ owner ∧
    now < row.claimExpiresAt.getD 0

/-- `max(0.01, current_expires - now)`. -/
def DeliveryRow.retryAfter (row : DeliveryRow) (now : ℚ) : ℚ :=
  max (1 / 100) (row.claimExpiresAt.getD 0 - now)

/-! ## The methods -/

/-- The statuses the two claiming methods answer. -/
inductive DeliveryClaim where
  | missing
  | delivered (attemptCount : ℕ) (deliveredAt : Option ℚ)
  | notRetryable
  | busy (retryAfter : ℚ)
  | unknown
  | claimed (attemptCount : ℕ) (claimExpiresAt : ℚ)
deriving DecidableEq

inductive DeliveryError where
  | keyRequired
  | ownerRequired
  | keyAndOwnerRequired
deriving DecidableEq

structure DeliverySubject where
  idempotencyKey : String
  connectorId : String
  eventId : String

/-! ## Rows the methods write -/

/-- The row of a turn that has no reply yet. -/
def pendingRow (now : ℚ) (subject : DeliverySubject) (owner : String) (expiresAt : ℚ)
    (message : Json) : DeliveryRow where
  idempotencyKey := subject.idempotencyKey
  connectorId := subject.connectorId
  eventId := subject.eventId
  status := .processing
  attemptCount := 0
  claimedBy := some owner
  claimExpiresAt := some expiresAt
  lastError := none
  updatedAt := now
  deliveredAt := none
  messageJson := some message
  replyText := none

/-- The row of a send, over the row that was there. -/
def sendingRow (now : ℚ) (subject : DeliverySubject) (owner : String) (expiresAt : ℚ)
    (message : Option Json) (replyText : Option String) (old : Option DeliveryRow) :
    DeliveryRow where
  idempotencyKey := subject.idempotencyKey
  connectorId := subject.connectorId
  eventId := subject.eventId
  status := .sending
  attemptCount := (old.map (·.attemptCount)).getD 0 + 1
  claimedBy := some owner
  claimExpiresAt := some expiresAt
  lastError := none
  updatedAt := now
  deliveredAt := none
  messageJson := message.or (old.bind (·.messageJson))
  replyText := replyText.or (old.bind (·.replyText))

def DeliveryRow.fail (row : DeliveryRow) (now : ℚ) (error : String) : DeliveryRow :=
  { row with
    status := .failed, claimedBy := none, claimExpiresAt := none, lastError := some error
    updatedAt := now }

/-- A failure that also clears `delivered_at`. -/
def DeliveryRow.failUndelivered (row : DeliveryRow) (now : ℚ) (error : String) : DeliveryRow :=
  { row.fail now error with deliveredAt := none }

def DeliveryRow.retry (row : DeliveryRow) (now : ℚ) (owner : String) (expiresAt : ℚ) :
    DeliveryRow :=
  { row with
    attemptCount := row.attemptCount + 1, claimedBy := some owner
    claimExpiresAt := some expiresAt, updatedAt := now }

def DeliveryRow.promote (row : DeliveryRow) (now : ℚ) (replyText : String) (expiresAt : ℚ) :
    DeliveryRow :=
  { row with
    status := .sending, replyText := some replyText, lastError := none
    claimExpiresAt := some expiresAt, updatedAt := now }

def DeliveryRow.deliver (row : DeliveryRow) (now : ℚ) (lastError : Option String) :
    DeliveryRow :=
  { row with
    status := .delivered, claimedBy := none, claimExpiresAt := none, lastError
    updatedAt := now, deliveredAt := some now }

def DeliveryRow.reset (row : DeliveryRow) (now : ℚ) : DeliveryRow :=
  { row with
    status := if row.status = .sending then .failed else row.status
    claimedBy := none, claimExpiresAt := none, updatedAt := now }

/-! ## The methods -/

def recordConnectorTurnPending (s : Store) (now : ℚ) (deliveryKey : String)
    (subject : DeliverySubject) (ownerId : String) (leaseSeconds : ℚ) (message : Json) :
    Except DeliveryError (Store × Bool) :=
  let key := PyStr.strip deliveryKey
  let owner := PyStr.strip ownerId
  if key = "" then .error .keyRequired
  else if owner = "" then .error .ownerRequired
  else match s.delivery key with
    | some _ => .ok (s, false)
    | none =>
      let expiresAt := now + leaseFloor leaseSeconds
      .ok (s.putDelivery key (pendingRow now subject owner expiresAt message), true)

def markConnectorTurnFailed (s : Store) (now : ℚ) (deliveryKey ownerId error : String) :
    Store × Bool :=
  updateDelivery s deliveryKey (fun row => row.claimedIn ownerId .processing)
    (fun row => row.failUndelivered now (PyStr.textPrefix 2000 error))

def discardConnectorTurnPending (s : Store) (deliveryKey ownerId : String) : Store × Bool :=
  match s.delivery deliveryKey with
  | some row =>
    if row.claimedIn ownerId .processing = true ∧ row.replyText = none then
      (s.dropDelivery deliveryKey, true)
    else (s, false)
  | none => (s, false)

def recoverStaleConnectorTurn (s : Store) (now : ℚ) (deliveryKey : String) : Store × Bool :=
  updateDelivery s deliveryKey (fun row => row.status = .processing ∧ row.leaseOver now)
    (fun row => row.fail now "connector_turn_interrupted")

/-- `claim_connector_delivery`. A row that is being sent to QQ stays unknown whoever
asks: expiry releases ownership, not the evidence of the send. -/
def claimConnectorDelivery (s : Store) (now : ℚ) (deliveryKey : String)
    (subject : DeliverySubject) (ownerId : String) (leaseSeconds : ℚ) (message : Option Json)
    (replyText : Option String) : Except DeliveryError (Store × DeliveryClaim) :=
  let key := PyStr.strip deliveryKey
  let owner := PyStr.strip ownerId
  let expiresAt := now + leaseFloor leaseSeconds
  let old := s.delivery key
  let row := sendingRow now subject owner expiresAt message replyText old
  let claimed := (s.putDelivery key row, DeliveryClaim.claimed row.attemptCount expiresAt)
  if key = "" ∨ owner = "" then .error .keyAndOwnerRequired
  else match old with
    | none => .ok claimed
    | some row =>
      if row.status = .delivered then .ok (s, .delivered row.attemptCount row.deliveredAt)
      else if row.busyFor owner now then .ok (s, .busy (row.retryAfter now))
      else if row.status = .sending ∧ row.connectorId = "qq" then .ok (s, .unknown)
      else .ok claimed

def claimConnectorTurnRetry (s : Store) (now : ℚ) (deliveryKey ownerId : String)
    (leaseSeconds : ℚ) : Except DeliveryError (Store × DeliveryClaim) :=
  let key := PyStr.strip deliveryKey
  let owner := PyStr.strip ownerId
  let expiresAt := now + leaseFloor leaseSeconds
  if key = "" ∨ owner = "" then .error .keyAndOwnerRequired
  else match s.delivery key with
    | none => .ok (s, .missing)
    | some row =>
      if row.status = .delivered then .ok (s, .delivered row.attemptCount none)
      else if row.status ≠ .failed then .ok (s, .notRetryable)
      else if row.busyFor owner now then .ok (s, .busy (row.retryAfter now))
      else if row.replyText ≠ none then .ok (s, .notRetryable)
      else .ok (s.putDelivery key (row.retry now owner expiresAt),
        .claimed (row.attemptCount + 1) expiresAt)

def promoteConnectorTurnRetry (s : Store) (now : ℚ) (deliveryKey ownerId replyText : String)
    (sendLeaseSeconds : ℚ) : Store × Bool :=
  updateDelivery s deliveryKey (fun row => row.claimedIn ownerId .failed)
    (fun row => row.promote now replyText (now + leaseFloor sendLeaseSeconds))

def releaseConnectorTurnRetry (s : Store) (now : ℚ) (deliveryKey ownerId error : String) :
    Store × Bool :=
  updateDelivery s deliveryKey (fun row => row.claimedIn ownerId .failed)
    (fun row => row.fail now (PyStr.textPrefix 2000 error))

def markConnectorDeliverySent (s : Store) (now : ℚ) (deliveryKey ownerId : String) :
    Store × Bool :=
  updateDelivery s deliveryKey (fun row => row.claimedIn ownerId .sending)
    (fun row => row.deliver now row.lastError)

/-- `status = 'sending' AND (claim_expires_at IS NULL OR claim_expires_at <= ?)`. -/
def DeliveryRow.orphanedSend (row : DeliveryRow) (now : ℚ) : Bool :=
  row.status = .sending ∧ (row.claimExpiresAt = none ∨ row.leaseOver now)

/-- `resolve_connector_delivery`: an operator checked the provider. -/
def resolveConnectorDelivery (s : Store) (now : ℚ) (deliveryKey outcome : String) :
    Store × Bool :=
  let key := PyStr.strip deliveryKey
  let normalized := PyStr.lowerAscii (PyStr.strip outcome)
  if key = "" then (s, false)
  else if normalized = "delivered" then
    updateDelivery s key (fun row => row.orphanedSend now) (fun row => row.deliver now none)
  else if normalized = "failed" then
    updateDelivery s key (fun row => row.orphanedSend now)
      (fun row => row.failUndelivered now "manual_resolution_failed")
  else (s, false)

/-- The guard of `reset_connector_delivery_for_retry`. -/
def DeliveryRow.resettable (row : DeliveryRow) (now : ℚ) : Bool :=
  (row.status = .failed ∧ (row.claimedBy = none ∨ row.leaseOver now)) ∨
    (row.status = .sending ∧ row.connectorId ≠ "qq" ∧ row.leaseOver now)

def resetConnectorDeliveryForRetry (s : Store) (now : ℚ) (deliveryKey : String) :
    Store × Bool :=
  let key := PyStr.strip deliveryKey
  if key = "" then (s, false)
  else updateDelivery s key (fun row => row.resettable now) (fun row => row.reset now)

def markConnectorDeliveryFailed (s : Store) (now : ℚ) (deliveryKey ownerId error : String) :
    Store × Bool :=
  updateDelivery s deliveryKey (fun row => row.claimedIn ownerId .sending)
    (fun row => row.failUndelivered now (PyStr.textPrefix 2000 error))

/-! ## One operation -/

/-- A call of one of the methods, with its clock reading. -/
inductive DeliveryOp where
  | record (now : ℚ) (key : String) (subject : DeliverySubject) (owner : String) (lease : ℚ)
      (message : Json)
  | failTurn (now : ℚ) (key owner error : String)
  | discard (key owner : String)
  | recoverStale (now : ℚ) (key : String)
  | claim (now : ℚ) (key : String) (subject : DeliverySubject) (owner : String) (lease : ℚ)
      (message : Option Json) (replyText : Option String)
  | claimRetry (now : ℚ) (key owner : String) (lease : ℚ)
  | promote (now : ℚ) (key owner replyText : String) (lease : ℚ)
  | releaseRetry (now : ℚ) (key owner error : String)
  | sent (now : ℚ) (key owner : String)
  | resolve (now : ℚ) (key outcome : String)
  | reset (now : ℚ) (key : String)
  | fail (now : ℚ) (key owner error : String)

inductive DeliveryAnswer where
  | changed (b : Bool)
  | claim (outcome : DeliveryClaim)
  | raised (error : DeliveryError)
deriving DecidableEq

/-- Whether the method found what it asked for. -/
def DeliveryAnswer.accepted : DeliveryAnswer → Bool
  | .changed b => b
  | .claim (.claimed _ _) => true
  | _ => false

/-- A method that may raise leaves the store alone when it does. -/
def orRaised {α : Type} (s : Store) (answer : α → DeliveryAnswer)
    (r : Except DeliveryError (Store × α)) : Store × DeliveryAnswer :=
  match r with
  | .ok (s', a) => (s', answer a)
  | .error e => (s, .raised e)

def applyDelivery (s : Store) : DeliveryOp → Store × DeliveryAnswer
  | .record now key subject owner lease message =>
    orRaised s .changed (recordConnectorTurnPending s now key subject owner lease message)
  | .failTurn now key owner error =>
    Prod.map id .changed (markConnectorTurnFailed s now key owner error)
  | .discard key owner => Prod.map id .changed (discardConnectorTurnPending s key owner)
  | .recoverStale now key => Prod.map id .changed (recoverStaleConnectorTurn s now key)
  | .claim now key subject owner lease message replyText =>
    orRaised s .claim
      (claimConnectorDelivery s now key subject owner lease message replyText)
  | .claimRetry now key owner lease =>
    orRaised s .claim (claimConnectorTurnRetry s now key owner lease)
  | .promote now key owner replyText lease =>
    Prod.map id .changed (promoteConnectorTurnRetry s now key owner replyText lease)
  | .releaseRetry now key owner error =>
    Prod.map id .changed (releaseConnectorTurnRetry s now key owner error)
  | .sent now key owner => Prod.map id .changed (markConnectorDeliverySent s now key owner)
  | .resolve now key outcome =>
    Prod.map id .changed (resolveConnectorDelivery s now key outcome)
  | .reset now key => Prod.map id .changed (resetConnectorDeliveryForRetry s now key)
  | .fail now key owner error =>
    Prod.map id .changed (markConnectorDeliveryFailed s now key owner error)

/-- The key and the owner a call gives a claim to. -/
def DeliveryOp.grant : DeliveryOp → DeliveryAnswer → Option (String × String)
  | .record _ key _ owner _ _, .changed true => some (PyStr.strip key, PyStr.strip owner)
  | .claim _ key _ owner _ _ _, .claim (.claimed _ _) =>
    some (PyStr.strip key, PyStr.strip owner)
  | .claimRetry _ key owner _, .claim (.claimed _ _) =>
    some (PyStr.strip key, PyStr.strip owner)
  | _, _ => none

theorem DeliveryOp.grant_accepted {op : DeliveryOp} {answer : DeliveryAnswer}
    {claim : String × String} (h : op.grant answer = some claim) : answer.accepted = true := by
  unfold DeliveryOp.grant at h
  split at h
  · rfl
  · rfl
  · rfl
  · cases h

end TurnStore
