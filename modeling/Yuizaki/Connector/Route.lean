import Mathlib.Logic.Function.Basic
import Yuizaki.Connector.SendReply
import Yuizaki.Store.ConnectorRun

/- Workers that answer connector messages (`_run_connector` and
   `_retry_connector_delivery` in `routes/connector_api.py`).

   A worker is one run of either function: it records or claims the delivery row, runs
   the turn, claims the row for sending, hands the reply to the provider, and writes
   down what the provider answered. `workerStep` gives, phase by phase, the store call
   it makes and what it does with the answer. A worker can crash or be cancelled
   between any two steps; a cancelled POST may still arrive. Operators resolve, reset
   and recover rows beside the workers. -/
namespace Connector

open Transition TurnStore

/-- How a turn ends for its worker. `interrupted` is the worker's own cancellation. -/
inductive TurnOutcome where
  | completed (replayed : Bool) (reply : String)
  | cancelled
  | unknownEffect
  | raised
  | interrupted
deriving DecidableEq

/-- The two functions a worker can be a run of. -/
inductive WorkerKind where
  | event
  | retry
deriving DecidableEq

/-- One worker: its function, its connector, the row it works on and the owner id it
was given. -/
structure Worker where
  kind : WorkerKind
  connectorId : String
  protocol : String
  deliveryKey : Ident
  owner : Ident
  idempotencyKey : String
  eventId : String
  message : Json

/-- The columns of its row a worker writes. -/
def Worker.subject (w : Worker) : DeliverySubject where
  idempotencyKey := w.idempotencyKey
  connectorId := w.connectorId
  eventId := w.eventId

inductive WorkerPhase where
  | received
  | turning (pendingCreated : Bool)
  | claiming (reply : String)
  | reading (recovered : Bool)
  | reclaiming (retryTurn : Bool) (reply : String)
  | regenerating
  | promoting (reply : String)
  | releasing
  | sending (reply : String)
  | posting (reply : String)
  | rejected (reason : String)
  | accepted
  | done

/-- What happens next to a worker: the clock it reads, and what the turn or the
transport did. -/
inductive WorkerAction where
  | call (now : ℚ)
  | turn (now : ℚ) (outcome : TurnOutcome)
  | post
  | emptyReply
  | returned (attempt : PostAttempt)
  | cancelled
  | crash

/-- A store call and what the worker does with the answer. -/
abbrev Move := Option DeliveryOp × (DeliveryAnswer → WorkerPhase)

def goto (phase : WorkerPhase) : Move := (none, fun _ => phase)

/-- A last store call, whatever it answers. -/
def finish (op : DeliveryOp) : Move := (some op, fun _ => .done)

/-- `status == "claimed"`. -/
def onClaimed (phase : WorkerPhase) : DeliveryAnswer → WorkerPhase
  | .claim (.claimed _ _) => phase
  | _ => .done

/-- The errors after which a turn without a reply may be run again. -/
def retryableTurnError (lastError : Option String) : Bool :=
  lastError = some "connector_turn_failed" ∨ lastError = some "connector_turn_exception" ∨
    lastError = some "connector_turn_interrupted"

def storedReply (row : DeliveryRow) : String := PyStr.strip (row.replyText.getD "")

/-- The first part of `_retry_connector_delivery`, on the row it read. -/
def retryMove (w : Worker) (now : ℚ) (recovered : Bool) (row : DeliveryRow) : Move :=
  if row.connectorId ≠ w.connectorId then goto .done
  else if row.status = .processing then
    if recovered then goto .done
    else (some (.recoverStale now w.deliveryKey.text), fun _ => .reading true)
  else if row.status = .delivered then goto .done
  else if w.connectorId = "qq" ∧ row.status = .sending then goto .done
  else if storedReply row ≠ "" then goto (.reclaiming false (storedReply row))
  else if retryableTurnError row.lastError then goto (.reclaiming true "")
  else goto .done

/-- The end of a turn in `_run_connector`. -/
def turnMove (w : Worker) (now : ℚ) (pendingCreated : Bool) (row : Option DeliveryRow) :
    TurnOutcome → Move
  | .completed replayed reply =>
    -- a replay of a turn whose reply is already on its way
    if replayed ∧ row.any (fun r => r.status = .sending) then goto .done
    else goto (.claiming (PyStr.strip reply))
  | .cancelled | .unknownEffect | .interrupted =>
    if pendingCreated then finish (.discard w.deliveryKey.text w.owner.text) else goto .done
  | .raised => finish (.failTurn now w.deliveryKey.text w.owner.text "connector_turn_failed")

/-- The end of a turn in `_retry_connector_delivery`. -/
def retryTurnMove (w : Worker) (now : ℚ) : TurnOutcome → Move
  | .completed _ reply =>
    if PyStr.strip reply = "" then
      finish (.releaseRetry now w.deliveryKey.text w.owner.text "connector_turn_exception")
    else goto (.promoting (PyStr.strip reply))
  | .cancelled =>
    finish (.releaseRetry now w.deliveryKey.text w.owner.text "connector_event_cancelled")
  | .unknownEffect =>
    finish (.releaseRetry now w.deliveryKey.text w.owner.text "connector_event_state_unknown")
  | .raised =>
    finish (.releaseRetry now w.deliveryKey.text w.owner.text "connector_turn_exception")
  | .interrupted =>
    finish (.releaseRetry now w.deliveryKey.text w.owner.text "connector_retry_cancelled")

/-- What a worker does with the verdict on its POST: an unknown outcome is left alone,
and so is an exception on QQ. -/
def verdictMove (w : Worker) : Verdict → Move
  | .unknown => goto .done
  | .raised => if w.connectorId = "qq" then goto .done
    else goto (.rejected "connector_provider_exception")
  | .failed reason => goto (.rejected reason)
  | .succeeded => goto .accepted

/-- One step of a worker that reads `row` under its key; `none` where the action does
not fit the phase. -/
def workerStep (w : Worker) (row : Option DeliveryRow) (phase : WorkerPhase)
    (action : WorkerAction) : Option Move :=
  let key := w.deliveryKey.text
  let owner := w.owner.text
  match phase, action with
  | .received, .call now =>
    some (some (.record now key w.subject owner 30 w.message),
      fun answer => .turning (answer = .changed true))
  | .turning false, .call now =>
    -- a row recorded before the acknowledgement is recorded again where it was not new
    some (some (.record now key w.subject owner 30 w.message),
      fun answer => .turning (answer = .changed true))
  | .turning pendingCreated, .turn now outcome =>
    some (turnMove w now pendingCreated row outcome)
  | .claiming reply, .call now =>
    some (some (.claim now key w.subject owner 30 (some w.message) (some reply)),
      onClaimed (.sending reply))
  | .reading recovered, .call now =>
    match row with
    | some row => some (retryMove w now recovered row)
    | none => some (goto .done)
  | .reclaiming true _, .call now =>
    some (some (.claimRetry now key owner 900), onClaimed .regenerating)
  | .reclaiming false reply, .call now =>
    some (some (.claim now key w.subject owner 30 (some w.message) (some reply)),
      onClaimed (.sending reply))
  | .regenerating, .turn now outcome => some (retryTurnMove w now outcome)
  | .promoting reply, .call now =>
    some (some (.promote now key owner reply 60),
      fun answer => if answer = .changed true then .sending reply else .releasing)
  | .releasing, .call now =>
    some (finish (.releaseRetry now key owner "connector_turn_exception"))
  | .sending reply, .post =>
    if boundedText reply 4000 = "" then none else some (goto (.posting reply))
  | .sending reply, .emptyReply =>
    if boundedText reply 4000 = "" then some (goto (.rejected "empty_reply")) else none
  | .posting _, .returned attempt =>
    some (verdictMove w (classify (sendReply w.connectorId w.protocol attempt)))
  | .posting _, .cancelled =>
    -- cancelling the thread does not stop the POST
    if w.kind = .retry ∧ w.connectorId ≠ "qq" then
      some (goto (.rejected "connector_retry_cancelled"))
    else some (goto .done)
  | .rejected reason, .call now => some (finish (.fail now key owner reason))
  | .accepted, .call now => some (finish (.sent now key owner))
  | _, .crash => some (goto .done)
  | _, _ => none

def Worker.start (w : Worker) : WorkerPhase :=
  match w.kind with
  | .event => .received
  | .retry => .reading false

/-- Calls that no worker makes: operators and the recovery of stale turns. -/
inductive OperatorCall where
  | resolve (now : ℚ) (key outcome : String)
  | reset (now : ℚ) (key : String)
  | recoverStale (now : ℚ) (key : String)

/-- The store operation of an operator's call. -/
def OperatorCall.op : OperatorCall → DeliveryOp
  | .resolve now key outcome => .resolve now key outcome
  | .reset now key => .reset now key
  | .recoverStale now key => .recoverStale now key

/-! ## The system -/

structure RouteSystem (ι : Type) where
  store : Store
  phase : ι → WorkerPhase

/-- What happened: who acted, and the store call with its answer. -/
inductive RouteLabel (ι : Type) where
  | worker (i : ι) (action : WorkerAction) (call : Option (DeliveryOp × DeliveryAnswer))
  | operator (call : OperatorCall) (answer : DeliveryAnswer)

def RouteLabel.call {ι : Type} : RouteLabel ι → Option (DeliveryOp × DeliveryAnswer)
  | .worker _ _ call => call
  | .operator call answer => some (call.op, answer)

def callStep (s : Store) (call : Option (DeliveryOp × DeliveryAnswer)) (s' : Store) : Prop :=
  match call with
  | some call => DeliveryStep s call s'
  | none => s' = s

def Move.next (m : Move) (call : Option (DeliveryOp × DeliveryAnswer)) : WorkerPhase :=
  m.2 (call.map Prod.snd |>.getD (.changed false))

section System

variable {ι : Type} [DecidableEq ι] (workers : ι → Worker)

/-- Every worker at its start, over a fresh database. -/
def RouteSystem.initial (workers : ι → Worker) : RouteSystem ι where
  store := Store.empty
  phase := fun i => (workers i).start

/-- One step: a worker makes the call its phase asks for, or an operator calls. -/
def RouteStep (sys : RouteSystem ι) : RouteLabel ι → RouteSystem ι → Prop
  | .worker i action call, sys' =>
    ∃ m : Move, workerStep (workers i) (sys.store.delivery (workers i).deliveryKey.text)
        (sys.phase i) action = some m ∧
      call.map Prod.fst = m.1 ∧ callStep sys.store call sys'.store ∧
      sys'.phase = Function.update sys.phase i (m.next call)
  | .operator call answer, sys' =>
    DeliveryStep sys.store (call.op, answer) sys'.store ∧ sys'.phase = sys.phase

end System

end Connector
