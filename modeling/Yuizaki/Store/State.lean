import Mathlib.Data.List.AList
import Mathlib.Data.Finset.Insert
import Mathlib.Algebra.Order.Ring.Rat
import Mathlib.Tactic.NormNum
import Yuizaki.Lib.Journal
import Yuizaki.Lib.Json
import Yuizaki.Lib.PyStr

/- The tables of the turn store (`modules/agent/turn_store.py`).

   `TurnCommitStore` keeps five SQLite tables and changes them one transaction at
   a time, so the model is one value holding the five tables and one function per
   method. Tables with a text primary key are `AList`s from the key to the row,
   `turn_outbox` (an autoincrement id and a unique key) is a `Journal`, and
   `turn_outbox_projection_acks` is the set of its primary keys. A method reads
   the wall clock once; the reading is an argument (`now`, in seconds, a rational),
   so a run may hand out any readings, also ones that go back. -/
namespace TurnStore

/-- Text no caller can confuse with its trimmed form and that is not empty: what
the turn service mints as owner ids (`claim:…`) and idempotency keys (`turn:…`). -/
structure Ident where
  text : String
  trimmed : PyStr.strip text = text
  nonempty : text ≠ ""

theorem Ident.ext_text {a b : Ident} (h : a.text = b.text) : a = b := by
  cases a
  cases b
  cases h
  rfl

/-- A row of `turn_commits`. -/
structure CommitRow where
  semanticFingerprint : String
  trigger : String
  workspaceId : Option String
  sessionId : String
  requestId : Option String
  resultJson : Json
  createdAt : ℚ
deriving DecidableEq

/-- A row of `turn_claims`. -/
structure ClaimRow where
  semanticFingerprint : String
  ownerId : String
  fencingToken : ℤ
  leaseExpiresAt : ℚ
  updatedAt : ℚ
deriving DecidableEq

/-- A row of `turn_outbox`, its id and key apart. -/
structure OutboxRow where
  eventType : String
  payloadJson : Json
  availableAt : ℚ
  attemptCount : ℕ
  claimedBy : Option String
  claimExpiresAt : Option ℚ
  lastError : Option String
  deadLetteredAt : Option ℚ
  deliveredAt : Option ℚ
deriving DecidableEq

/-- The values the code writes into `connector_deliveries.status`. -/
inductive DeliveryStatus where
  | processing
  | sending
  | delivered
  | failed
deriving DecidableEq

/-- A row of `connector_deliveries`. -/
structure DeliveryRow where
  idempotencyKey : String
  connectorId : String
  eventId : String
  status : DeliveryStatus
  attemptCount : ℕ
  claimedBy : Option String
  claimExpiresAt : Option ℚ
  lastError : Option String
  updatedAt : ℚ
  deliveredAt : Option ℚ
  messageJson : Option Json
  replyText : Option String
deriving DecidableEq

structure Store where
  turnCommits : AList (fun _ : String => CommitRow)
  turnOutbox : Journal String OutboxRow
  turnClaims : AList (fun _ : String => ClaimRow)
  projectionAcks : Finset (ℕ × String)
  connectorDeliveries : AList (fun _ : String => DeliveryRow)

def Store.empty : Store where
  turnCommits := ∅
  turnOutbox := Journal.empty
  turnClaims := ∅
  projectionAcks := ∅
  connectorDeliveries := ∅

/-- `max(0.1, float(lease_seconds))`, the shortest lease a claim is given. -/
def leaseFloor (leaseSeconds : ℚ) : ℚ := max (1 / 10) leaseSeconds

end TurnStore
