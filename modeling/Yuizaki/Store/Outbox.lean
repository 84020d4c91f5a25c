import Mathlib.Data.Finset.Image
import Yuizaki.Store.Turn

/- The projection outbox of the turn store (`claim_next_outbox`, `fail_outbox`,
   `renew_outbox_claim`, `acknowledge`, `acknowledged_projections`,
   `acknowledge_projection` and `find_outbox_by_idempotency_key` in
   `modules/agent/turn_store.py`).

   An event is pending until it is delivered or dead-lettered. Only the oldest
   pending event can be claimed; the claim is a lease under a worker id. Each
   method is followed by the lemma that says everything it can do to the store;
   later modules use these and do not unfold the methods. -/
namespace TurnStore

/-- `delivered_at IS NULL AND dead_lettered_at IS NULL`. -/
def OutboxRow.pending (row : OutboxRow) : Bool :=
  row.deliveredAt.isNone && row.deadLetteredAt.isNone

/-- `claimed_by = ? AND claim_expires_at > ?`. -/
def OutboxRow.heldBy (row : OutboxRow) (ownerId : String) (now : ℚ) : Bool :=
  row.claimedBy = some ownerId ∧ row.claimExpiresAt.any (fun t => now < t)

theorem OutboxRow.heldBy_claimedBy {row : OutboxRow} {ownerId : String} {now : ℚ}
    (h : row.heldBy ownerId now = true) : row.claimedBy = some ownerId := by
  simp only [OutboxRow.heldBy, decide_eq_true_eq] at h
  exact h.1

def Store.modifyEvent (s : Store) (eventId : ℕ) (f : OutboxRow → OutboxRow) : Store :=
  { s with turnOutbox := s.turnOutbox.modify eventId f }

theorem Store.mem_modifyEvent {s : Store} {eventId : ℕ} {f : OutboxRow → OutboxRow}
    {x : Journal.Entry String OutboxRow} :
    x ∈ (s.modifyEvent eventId f).turnOutbox.entries ↔
      ∃ x₀ ∈ s.turnOutbox.entries, x₀.modify eventId f = x :=
  Journal.mem_modify

/-! ## Claiming the oldest pending event -/

def loadPersistedPayload (processEpoch : String) (value : Json) : Json :=
  match dictOr value with
  | .obj kvs =>
    .obj (Json.setEntry kvs "recovery"
      (loadRecoveryDescriptor processEpoch ((Json.obj kvs).get "recovery")))
  | other => other

/-- The event a successful claim hands out. -/
structure ClaimedEvent where
  eventId : ℕ
  idempotencyKey : String
  eventType : String
  payload : Json
  attemptCount : ℕ
  claimExpiresAt : ℚ
deriving DecidableEq

/-- The outcome of `claim_next_outbox`. -/
inductive OutboxClaim where
  | none
  | waiting (retryAfter : ℚ)
  | busy (retryAfter : ℚ)
  | claimed (event : ClaimedEvent)
deriving DecidableEq

def OutboxRow.claimFor (row : OutboxRow) (ownerId : String) (expiresAt : ℚ) : OutboxRow :=
  { row with claimedBy := some ownerId, claimExpiresAt := some expiresAt }

def claimNextOutbox (s : Store) (processEpoch : String) (now : ℚ) (ownerId : String)
    (leaseSeconds : ℚ) : Store × OutboxClaim :=
  match s.turnOutbox.first OutboxRow.pending with
  | none => (s, .none)
  | some x =>
    let claimExpiresAt := x.row.claimExpiresAt.getD 0
    let currentOwner := x.row.claimedBy.getD ""
    let expiresAt := now + leaseFloor leaseSeconds
    if now < x.row.availableAt then (s, .waiting (x.row.availableAt - now))
    else if currentOwner ≠ "" ∧ now < claimExpiresAt then (s, .busy (claimExpiresAt - now))
    else if x.row.claimedBy = none ∨ x.row.claimExpiresAt.any (fun t => t ≤ now) then
      let event : ClaimedEvent :=
        { eventId := x.id
          idempotencyKey := x.key
          eventType := x.row.eventType
          payload := loadPersistedPayload processEpoch x.row.payloadJson
          attemptCount := x.row.attemptCount
          claimExpiresAt := expiresAt }
      (s.modifyEvent x.id (fun row => row.claimFor ownerId expiresAt), .claimed event)
    else (s, .busy (1 / 20))

theorem claimNextOutbox_cases {s s' : Store} {epoch ownerId : String} {now lease : ℚ}
    {out : OutboxClaim} (h : claimNextOutbox s epoch now ownerId lease = (s', out)) :
    (s' = s ∧ ∀ ev, out ≠ .claimed ev) ∨
    ∃ x ∈ s.turnOutbox.entries, ∃ ev, x.row.pending = true ∧
      (∀ y ∈ s.turnOutbox.entries, y.id < x.id → y.row.pending = false) ∧
      out = .claimed ev ∧ ev.eventId = x.id ∧ ev.attemptCount = x.row.attemptCount ∧
      s' = s.modifyEvent x.id (fun row => row.claimFor ownerId (now + leaseFloor lease)) := by
  unfold claimNextOutbox at h
  split at h
  · left
    cases h
    exact ⟨rfl, by simp⟩
  · rename_i x hx
    obtain ⟨hmem, hpend, hbelow⟩ := Journal.first_eq_some hx
    simp only at h
    split at h
    · left
      cases h
      exact ⟨rfl, by simp⟩
    · split at h
      · left
        cases h
        exact ⟨rfl, by simp⟩
      · split at h
        · right
          cases h
          exact ⟨x, hmem, _, hpend, hbelow, rfl, rfl, rfl, rfl⟩
        · left
          cases h
          exact ⟨rfl, by simp⟩

/-! ## Failing, renewing, acknowledging -/

def OutboxRow.failed (row : OutboxRow) (now : ℚ) (error : String) (retryDelay : ℚ)
    (maxAttempts : ℕ) : OutboxRow :=
  let attemptCount := row.attemptCount + 1
  { row with
    attemptCount
    lastError := some (PyStr.textPrefix 2000 error)
    availableAt := now + max 0 retryDelay
    claimedBy := none
    claimExpiresAt := none
    deadLetteredAt := if max 1 maxAttempts ≤ attemptCount then some now else none }

/-- `fail_outbox`: `updated` and `dead_lettered`. -/
def failOutbox (s : Store) (now : ℚ) (eventId : ℕ) (ownerId error : String) (retryDelay : ℚ)
    (maxAttempts : ℕ) : Store × Bool × Bool :=
  match s.turnOutbox.find eventId with
  | some x =>
    if x.row.claimedBy = some ownerId ∧ x.row.pending = true then
      (s.modifyEvent eventId (fun row => row.failed now error retryDelay maxAttempts),
        true, max 1 maxAttempts ≤ x.row.attemptCount + 1)
    else (s, false, false)
  | none => (s, false, false)

theorem failOutbox_cases {s s' : Store} {ownerId error : String} {now delay : ℚ}
    {eventId maxAttempts : ℕ} {out : Bool × Bool}
    (h : failOutbox s now eventId ownerId error delay maxAttempts = (s', out)) :
    s' = s ∨ ∃ x ∈ s.turnOutbox.entries, x.id = eventId ∧ x.row.claimedBy = some ownerId ∧
      x.row.pending = true ∧
      s' = s.modifyEvent eventId (fun row => row.failed now error delay maxAttempts) := by
  unfold failOutbox at h
  split at h
  · rename_i x hx
    obtain ⟨hmem, hid⟩ := Journal.find_eq_some.mp hx
    split at h
    · rename_i hc
      cases h
      exact Or.inr ⟨x, hmem, hid, hc.1, hc.2, rfl⟩
    · cases h
      exact Or.inl rfl
  · cases h
    exact Or.inl rfl

def OutboxRow.renewed (row : OutboxRow) (expiresAt : ℚ) : OutboxRow :=
  { row with claimExpiresAt := some expiresAt }

def renewOutboxClaim (s : Store) (now : ℚ) (eventId : ℕ) (ownerId : String)
    (leaseSeconds : ℚ) : Store × Bool :=
  match s.turnOutbox.find eventId with
  | some x =>
    if x.row.heldBy ownerId now = true ∧ x.row.pending = true then
      (s.modifyEvent eventId (fun row => row.renewed (now + leaseFloor leaseSeconds)), true)
    else (s, false)
  | none => (s, false)

theorem renewOutboxClaim_cases {s s' : Store} {ownerId : String} {now lease : ℚ}
    {eventId : ℕ} {out : Bool} (h : renewOutboxClaim s now eventId ownerId lease = (s', out)) :
    s' = s ∨
      s' = s.modifyEvent eventId (fun row => row.renewed (now + leaseFloor lease)) := by
  unfold renewOutboxClaim at h
  split at h
  · split at h
    · cases h
      exact Or.inr rfl
    · cases h
      exact Or.inl rfl
  · cases h
    exact Or.inl rfl

/-- A delivered row; an owner's acknowledgement also drops the claim. -/
def OutboxRow.deliver (row : OutboxRow) (now : ℚ) (dropClaim : Bool) : OutboxRow :=
  if dropClaim then
    { row with deliveredAt := some now, claimedBy := none, claimExpiresAt := none }
  else { row with deliveredAt := some now }

theorem OutboxRow.deliver_fields (row : OutboxRow) (now : ℚ) (dropClaim : Bool) :
    (row.deliver now dropClaim).deliveredAt = some now ∧
      (row.deliver now dropClaim).deadLetteredAt = row.deadLetteredAt ∧
      (row.deliver now dropClaim).attemptCount = row.attemptCount := by
  cases dropClaim <;> exact ⟨rfl, rfl, rfl⟩

/-- `acknowledge`: without an owner the event is marked whatever its row says. -/
def acknowledge (s : Store) (now : ℚ) (eventId : ℕ) (ownerId : Option String) :
    Store × Bool :=
  match s.turnOutbox.find eventId with
  | none => (s, false)
  | some x =>
    match ownerId with
    | none => (s.modifyEvent eventId (fun row => row.deliver now false), true)
    | some owner =>
      if x.row.heldBy owner now = true then
        (s.modifyEvent eventId (fun row => row.deliver now true), true)
      else (s, false)

theorem acknowledge_cases {s s' : Store} {now : ℚ} {eventId : ℕ} {ownerId : Option String}
    {out : Bool} (h : acknowledge s now eventId ownerId = (s', out)) :
    s' = s ∨ ∃ dropClaim, s' = s.modifyEvent eventId (fun row => row.deliver now dropClaim) := by
  unfold acknowledge at h
  split at h
  · cases h
    exact Or.inl rfl
  · split at h
    · cases h
      exact Or.inr ⟨false, rfl⟩
    · split at h
      · cases h
        exact Or.inr ⟨true, rfl⟩
      · cases h
        exact Or.inl rfl

/-! ## Projection acknowledgements -/

def acknowledgedProjections (s : Store) (eventId : ℕ) : Finset String :=
  (s.projectionAcks.filter (fun a => a.1 = eventId)).image Prod.snd

theorem mem_acknowledgedProjections {s : Store} {eventId : ℕ} {name : String} :
    name ∈ acknowledgedProjections s eventId ↔ (eventId, name) ∈ s.projectionAcks := by
  simp [acknowledgedProjections]

/-- The claim of a worker on a pending event. -/
def Holds (s : Store) (ownerId : String) (eventId : ℕ) : Prop :=
  ∃ x ∈ s.turnOutbox.entries, x.id = eventId ∧ x.row.claimedBy = some ownerId ∧
    x.row.pending = true

/-- Whether `acknowledge_projection` finds the claim it asks for. -/
def claimedEvent (s : Store) (now : ℚ) (eventId : ℕ) : Option String → Bool
  | none => true
  | some owner =>
    match s.turnOutbox.find eventId with
    | some x => x.row.heldBy owner now && x.row.pending
    | none => false

theorem claimedEvent_holds {s : Store} {now : ℚ} {eventId : ℕ} {owner : String}
    (h : claimedEvent s now eventId (some owner) = true) : Holds s owner eventId := by
  unfold claimedEvent at h
  cases hx : s.turnOutbox.find eventId with
  | none =>
    rw [hx] at h
    cases h
  | some x =>
    rw [hx] at h
    obtain ⟨hmem, hid⟩ := Journal.find_eq_some.mp hx
    have hrow := Bool.and_eq_true_iff.mp h
    exact ⟨x, hmem, hid, OutboxRow.heldBy_claimedBy hrow.1, hrow.2⟩

/-- `acknowledge_projection`: a second acknowledgement of one projection is ignored
and reported as none. -/
def acknowledgeProjection (s : Store) (now : ℚ) (eventId : ℕ) (projectionName : String)
    (ownerId : Option String) : Store × Bool :=
  if claimedEvent s now eventId ownerId = true then
    if (eventId, projectionName) ∈ s.projectionAcks then (s, false)
    else ({ s with projectionAcks := insert (eventId, projectionName) s.projectionAcks }, true)
  else (s, false)

theorem acknowledgeProjection_cases {s s' : Store} {now : ℚ} {eventId : ℕ}
    {name owner : String} {out : Bool}
    (h : acknowledgeProjection s now eventId name (some owner) = (s', out)) :
    (s' = s ∧ out = false) ∨
    (Holds s owner eventId ∧ out = true ∧
      s' = { s with projectionAcks := insert (eventId, name) s.projectionAcks }) := by
  unfold acknowledgeProjection at h
  split at h
  · rename_i hclaimed
    split at h
    · left
      simp only [Prod.mk.injEq] at h
      exact ⟨h.1.symm, h.2.symm⟩
    · right
      simp only [Prod.mk.injEq] at h
      exact ⟨claimedEvent_holds hclaimed, h.2.symm, h.1.symm⟩
  · left
    simp only [Prod.mk.injEq] at h
    exact ⟨h.1.symm, h.2.symm⟩

/-- The snapshot `find_outbox_by_idempotency_key` takes of an event's row. -/
structure OutboxSnapshot where
  eventId : ℕ
  deliveredAt : Option ℚ
  deadLetteredAt : Option ℚ
deriving DecidableEq

/-- The row part of `find_outbox_by_idempotency_key`; the acknowledgements are a
second query. -/
def findOutboxByIdempotencyKey (s : Store) (idempotencyKey : String) : Option OutboxSnapshot :=
  let key := PyStr.strip idempotencyKey
  if key = "" then none
  else (s.turnOutbox.findKey key).map (fun x =>
    { eventId := x.id, deliveredAt := x.row.deliveredAt, deadLetteredAt := x.row.deadLetteredAt })

end TurnStore
