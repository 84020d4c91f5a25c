import Yuizaki.Store.State

/- Handing a reply to a provider (`MessageConnectorRegistry.send_reply` in
   `modules/system/message_connectors.py`) and reading the answer
   (`_delivery_succeeded`, `_safe_delivery_failure_reason` and the two callers in
   `routes/connector_api.py`).

   There is one POST and no retry in the adapter. What the transport did is the
   argument `attempt`; the answer is a delivery mapping or an exception. For QQ an
   exception that is not an HTTP status is an unknown outcome: the POST may have
   arrived. -/
namespace Connector

def boundedText (value : String) (limit : ℕ) : String := PyStr.textPrefix limit (PyStr.strip value)

/-- What the transport did with the one POST of a reply. -/
inductive PostAttempt where
  /-- an exception before the POST (no bridge URL, a malformed header) -/
  | notReached
  /-- the provider answered with an HTTP error status -/
  | httpError
  /-- any other exception: a timeout, a lost connection, an unreadable answer -/
  | lost
  | answered (result : Json)

/-- What `send_reply` does. -/
inductive SendOutcome where
  | delivery (result : Json)
  | raised

/-- `type(value) is int and 200 <= value < 300`. -/
def httpSuccess : Json → Bool
  | .int n => 200 ≤ n ∧ n < 300
  | _ => false

/-- `type(value) is int`. -/
def isInt : Json → Bool
  | .int _ => true
  | _ => false

/-- The delivery mapping of a OneBot answer. -/
def oneBotDelivery (protocol : String) (kvs : List (String × Json)) : Json :=
  let result := Json.obj kvs
  let statusCode := result.get "status_code"
  let httpOk : Bool := statusCode = .null ∨ httpSuccess statusCode
  let retcode := result.get "retcode"
  let ok : Bool := httpOk ∧ isInt retcode ∧ result.get "status" = .str "ok" ∧ retcode = .int 0
  let unknown : Bool := httpOk ∧ isInt retcode ∧ protocol = "onebot11" ∧
    result.get "status" = .str "async" ∧ retcode = .int 1
  let outcome := if unknown then "unknown" else if ok then "delivered" else "failed"
  let kvs := Json.setEntry kvs "ok" (.bool ok)
  let kvs := Json.setEntry kvs "sent" (.bool ok)
  .obj (Json.setEntry kvs "outcome" (.str outcome))

/-- The mapping for an explicit rejection. -/
def providerRejected : Json :=
  .obj [("ok", .bool false), ("sent", .bool false), ("reason", .str "provider_rejected")]

/-- The mapping for a POST whose effect is not known. -/
def outcomeUnknown : Json :=
  .obj [("ok", .bool false), ("sent", .bool false), ("outcome", .str "unknown")]

/-- `send_reply` of a non-empty text, given what the transport did. -/
def sendReply (connectorId protocol : String) (attempt : PostAttempt) : SendOutcome :=
  if connectorId = "qq" ∨ connectorId = "wechat" then
    match attempt with
    | .notReached => .raised
    | .httpError => .delivery providerRejected
    | .lost => if connectorId ≠ "qq" then .raised else .delivery outcomeUnknown
    | .answered result =>
      if connectorId ≠ "qq" ∨ protocol = "generic" then .delivery result
      else match result with
        | .obj kvs => .delivery (oneBotDelivery protocol kvs)
        | _ => .delivery providerRejected
  else
    match attempt with
    | .answered result => .delivery result
    | _ => .raised

def deliverySucceeded (delivery : Json) : Bool :=
  match delivery with
  | .obj kvs =>
    let d := Json.obj kvs
    d.get "outcome" ≠ .str "unknown" ∧
      (d.get "ok" = .bool true ∨ (d.hasKey "ok" = false ∧ httpSuccess (d.get "status_code"))) ∧
      d.get "sent" ≠ .bool false
  | _ => false

def safeDeliveryFailureReason (value : Json) : String :=
  let candidate := match value with
    | .str s => PyStr.strip s
    | _ => ""
  if candidate ∈ ["provider_rejected", "empty_reply"] then candidate else "provider_rejected"

/-- What a caller of `send_reply` makes of it. -/
inductive Verdict where
  | raised
  | unknown
  | failed (reason : String)
  | succeeded
deriving DecidableEq

/-- The order in which both callers look at the outcome. -/
def classify : SendOutcome → Verdict
  | .raised => .raised
  | .delivery d =>
    if d.get "outcome" = .str "unknown" then .unknown
    else if deliverySucceeded d then .succeeded
    else .failed (safeDeliveryFailureReason (d.get "reason"))

theorem classify_lost (protocol : String) :
    classify (sendReply "qq" protocol .lost) = .unknown := by
  have houtcome : outcomeUnknown.get "outcome" = .str "unknown" := by decide
  simp [sendReply, classify, houtcome]

end Connector
