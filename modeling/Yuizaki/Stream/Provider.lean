import Yuizaki.Lib.Json
import Yuizaki.Lib.PyStr
import Yuizaki.Lib.Fallible

/- The provider adapters of the stream runtime (`ObsWebSocketAdapter._request` in
   `modules/system/stream_runtime.py`, `TwitchChatAdapter.send_message` and
   `TwitchEventIngress.sync_subscription_plan` in `modules/system/stream_platforms.py`).

   What comes over the wire is an argument: the frames of a socket, an HTTP answer, the
   answers of a subscription service. An exception is kept with the classes the handlers ask
   for, since the adapters and their caller tell errors apart by class alone: a JSON parse
   error and a `TwitchEventSubError` are `ValueError`s, a cancellation is no `Exception`. -/
namespace Streaming

open Fallible

/-! ## Exceptions -/

/-- The classes that a handler tells apart: a `TwitchEventSubError` is a `ValueError`, and all
but the last are `Exception`s. -/
inductive ExcClass where
  | eventSub
  | value
  | os
  | other
  | base
deriving DecidableEq

/-- An exception: `type(exc).__name__` and its text. -/
structure Raised where
  cls : ExcClass
  name : String
  text : String
deriving DecidableEq

namespace Raised

/-- `isinstance(exc, ValueError)`. -/
def isValueError (e : Raised) : Bool := e.cls = .eventSub ∨ e.cls = .value

/-- `isinstance(exc, Exception)`. -/
def isException (e : Raised) : Bool := e.cls ≠ .base

/-- `ValueError(text)`. -/
def value (text : String) : Raised := ⟨.value, "ValueError", text⟩

/-- `TypeError(text)`. -/
def type (text : String) : Raised := ⟨.other, "TypeError", text⟩

/-- `RuntimeError(text)`. -/
def runtime (text : String) : Raised := ⟨.other, "RuntimeError", text⟩

end Raised

/-! ## OBS -/

/-- A frame of the socket: JSON text, bytes that are no UTF-8, or text that is no JSON. -/
inductive Frame where
  | json (value : Json)
  | notUtf8
  | notJson

/-- A session with the socket: what each operation raises or receives. -/
structure ObsSession where
  dependency : Bool
  connect : Option Raised
  hello : Except Raised Frame
  identify : Option Raised
  identified : Except Raised Frame
  request : Option Raised
  response : Except Raised Frame
  close : Option Raised

def operation : Option Raised → Except Raised Unit
  | none => .ok ()
  | some e => .error e

def decodeJson : Frame → Except Raised Json
  | .notUtf8 => .error ⟨.value, "UnicodeDecodeError", "invalid start byte"⟩
  | .notJson => .error ⟨.value, "JSONDecodeError", "Expecting value"⟩
  | .json (.obj kvs) => .ok (.obj kvs)
  | .json _ => .error (.type "OBS response must be an object")

/-- A value that is an object, or an empty one. -/
def dictOf : Json → Json
  | .obj kvs => .obj kvs
  | _ => .obj []

/-- `obj.get(key, default)`. -/
def getOr (j : Json) (key : String) (default : Json) : Json :=
  if j.hasKey key then j.get key else default

section Obs

variable (str : Json → String)

/-- `data.get("requestId") not in {None, request_id}`: a list or an object cannot be looked up
in a set. -/
def checkRequestId (requestId : String) (given : Json) : Except Raised Unit :=
  match given with
  | .arr _ => .error (.type "unhashable type: 'list'")
  | .obj _ => .error (.type "unhashable type: 'dict'")
  | given =>
    if given = .null ∨ given = .str requestId then .ok ()
    else .error (.runtime "OBS response requestId did not match")

/-- `_decode_json(socket.recv())`. -/
def receive (frame : Except Raised Frame) : Except Raised Json := frame >>= decodeJson

/-- The result of a request, from the frame that answers it. -/
def readObsResponse (requestId : String) (response : Json) : Except Raised Json := do
  require (.runtime "OBS response frame was not received") ((response.get "op").same (.int 7) = true)
  let data := dictOf (response.get "d")
  checkRequestId requestId (data.get "requestId")
  let status := dictOf (data.get "requestStatus")
  require (.runtime (str ((status.get "comment").or (.str "OBS request failed"))))
    ((getOr status "result" (.bool false)).truthy = true)
  return dictOf (data.get "responseData")

def obsExchange (session : ObsSession) (requestId : String) : Except Raised Json := do
  let hello ← receive session.hello
  require (.runtime "OBS hello was not received") ((hello.get "op").same (.int 0) = true)
  operation session.identify
  let identified ← receive session.identified
  require (.runtime "OBS identify failed") ((identified.get "op").same (.int 2) = true)
  operation session.request
  let response ← receive session.response
  readObsResponse str requestId response

/-- What `close` raises replaces the result, unless it is an `OSError`. -/
def closing (close : Option Raised) (result : Except Raised Json) : Except Raised Json :=
  match close with
  | some e => if e.cls = .os then result else .error e
  | none => result

/-- `_request`. -/
def obsRequest (session : ObsSession) (requestId : String) : Except Raised Json := do
  require (.runtime "websocket-client dependency is missing") (session.dependency = true)
  operation session.connect
  closing session.close (obsExchange str session requestId)

end Obs

/-! ## Twitch subscriptions -/

/-- A subscription: its id and its type. -/
structure Subscription where
  id : String
  type : String
deriving DecidableEq

/-- The plan's status after a sync (`snapshot`). -/
def planStatus (revoked secret : Bool) (desired : List String) (active : List Subscription) : String :=
  let types := active.map Subscription.type
  if revoked then "revoked"
  else if desired ≠ [] ∧ (∀ t ∈ desired, t ∈ types) ∧ (∀ t ∈ types, t ∈ desired) then "synced"
  else if desired ≠ [] ∧ secret = true then "planned"
  else if secret then "not_planned"
  else "unconfigured"

end Streaming
