import Yuizaki.Lib.Dict
import Yuizaki.Lib.Run
import Yuizaki.Stream.Provider
import Mathlib.Algebra.Order.Ring.Rat
import Mathlib.Data.List.Sort

/- The stream runtime (`StreamRuntime` in `modules/system/stream_runtime.py`).

   A preview leaves a ticket. An execute request reads the ticket and checks it, then claims
   it under the runtime's lock: it reads ticket, clock, revocation and takeover again, takes
   the ticket away and records `sending`. The lock is given up before the provider is called,
   and after the call the outcome is recorded. Each of the four is a step here, and requests
   run in threads, so anything may happen between them. -/
namespace Streaming

open Transition Fallible

/-! ## Actions -/

/-- The keys of `_ACTION_SPECS`. -/
inductive StreamAction where
  | status
  | scenePreview
  | sceneSwitch
  | profilePreview
  | profileSwitch
  | broadcastStart
  | broadcastStop
  | captionDraft
  | chatSend
  | subscriptionsSync
deriving DecidableEq

namespace StreamAction

def text : StreamAction → String
  | .status => "stream.status"
  | .scenePreview => "stream.scene_preview"
  | .sceneSwitch => "stream.scene_switch"
  | .profilePreview => "stream.profile_preview"
  | .profileSwitch => "stream.profile_switch"
  | .broadcastStart => "stream.broadcast_start"
  | .broadcastStop => "stream.broadcast_stop"
  | .captionDraft => "stream.caption_draft"
  | .chatSend => "stream.chat_send"
  | .subscriptionsSync => "stream.twitch_subscriptions_sync"

def all : List StreamAction :=
  [.status, .scenePreview, .sceneSwitch, .profilePreview, .profileSwitch, .broadcastStart,
    .broadcastStop, .captionDraft, .chatSend, .subscriptionsSync]

/-- `_ACTION_SPECS.get(action)`. -/
def ofText (name : String) : Option StreamAction := all.find? (fun a => a.text = name)

/-- `_EXTERNAL_ACTIONS`. -/
def external (a : StreamAction) : Bool :=
  a ∈ [sceneSwitch, profileSwitch, broadcastStart, broadcastStop, chatSend, subscriptionsSync]

end StreamAction

structure Ticket where
  action : StreamAction
  params : Dict String Json
  expiresAt : ℚ
deriving DecidableEq

/-- `a == b` on dictionaries. -/
def dictSame (a b : Dict String Json) : Bool :=
  a.keys.length = b.keys.length ∧
    ∀ e ∈ a.entries, (b.get e.1).any (fun v => e.2.same v) = true

/-! ## Moderation -/

/-- `StreamModerationPolicy`. -/
structure ModerationPolicy where
  enabled : Bool
  blockedTerms : List String
  slowModeSeconds : ℚ
  maxMessagesPerMinute : ℕ

/-- The reason code of `evaluate`: `disabled` and `allowed` let the text through. -/
def ModerationPolicy.evaluate (policy : ModerationPolicy) (casefold : String → String) (text : String)
    (sentAt : List ℚ) (now : ℚ) : Except String String :=
  let normalized := PyStr.strip text
  if normalized = "" then .error "empty_text"
  else if ¬ policy.enabled then .ok "disabled"
  else if policy.blockedTerms.any (PyStr.contains (casefold normalized)) then .error "blocked_term"
  else
    let slow := match (sentAt.insertionSort (· ≤ ·)).getLast? with
      | none => false
      | some last => 0 < policy.slowModeSeconds ∧ 0 < policy.slowModeSeconds - (now - last)
    if slow then .error "slow_mode"
    else if policy.maxMessagesPerMinute ≤ (sentAt.filter (fun t => now - 60 ≤ t)).length then
      .error "rate_limit"
    else .ok "allowed"

/-! ## Audit -/

/-- `_ACTION_STATUSES`. -/
inductive AuditStatus where
  | sending
  | knownSuccess
  | unknownEffect
  | failed
deriving DecidableEq

/-- What `datetime.now(timezone.utc).isoformat()` gives: a text that is neither empty nor long. -/
structure Stamp where
  text : String
  nonempty : text ≠ ""
  short : text.length ≤ 80
deriving DecidableEq

structure AuditEntry where
  action : StreamAction
  requestId : String
  stamp : Stamp
  status : AuditStatus
  externalSideEffects : Bool
  confirmed : Option Bool
  verificationStatus : Option String
  errorCode : Option String
deriving DecidableEq

/-- `_sanitize_action` on an entry the runtime builds: whether it is kept. -/
def AuditEntry.kept (entry : AuditEntry) : Bool :=
  entry.requestId.length ≤ 160 ∧ entry.verificationStatus.all (fun s => s.length ≤ 80) = true ∧
    entry.errorCode.all (fun s => s.length ≤ 120) = true

/-- `_MAX_PERSISTED_ACTIONS`, which is also the length of the deque. -/
def maxPersistedActions : ℕ := 200

/-- A deque after `append`. -/
def pushEntry (entries : List AuditEntry) (entry : AuditEntry) : List AuditEntry :=
  (entries ++ [entry]).drop ((entries ++ [entry]).length - maxPersistedActions)

/-- The state of the runtime that an action reads or changes. `file` is what the action file
holds, where the runtime has one. -/
structure StreamRuntime where
  previews : List (String × Ticket)
  humanTakeover : Bool
  revoked : Bool
  policy : ModerationPolicy
  chatSendTimes : List ℚ
  actions : List AuditEntry
  file : Option (List AuditEntry)
  state : String
  chatConfigured : Bool
  obsConfigured : Bool
  syncConfigured : Bool
  desired : List String
  secret : Bool

namespace StreamRuntime

def ticket (r : StreamRuntime) (requestId : String) : Option Ticket := r.previews.lookup requestId

/-- `self._previews.pop(request_id, None)`. -/
def popTicket (r : StreamRuntime) (requestId : String) : StreamRuntime :=
  { r with previews := r.previews.filter (fun e => e.1 ≠ requestId) }

/-- `_record_action_locked`: what it raises, and the runtime after it. `disk` says whether the
file can be written. -/
def record (r : StreamRuntime) (entry : AuditEntry) (required disk : Bool) : Option Raised × StreamRuntime :=
  if ¬ entry.kept then (some (.value "invalid stream action audit"), r)
  else
    let actions := pushEntry r.actions entry
    match r.file with
    | none => (none, { r with actions })
    | some _ =>
      if disk then (none, { r with actions, file := some actions })
      else if required then
        (some (.runtime "stream action audit persistence is unavailable"), { r with actions := actions.dropLast })
      else (none, { r with actions })

end StreamRuntime

/-! ## Preview -/

def previewTtlSeconds : ℚ := 120

/-- The text of a chat message that a preview may show. -/
def checkPreviewText (r : StreamRuntime) (casefold : String → String) (action : StreamAction)
    (params : Dict String Json) (now : ℚ) : Except Raised Unit :=
  if action ≠ .chatSend then .ok ()
  else match params.get "text" with
  | some (.str text) =>
    if PyStr.strip text = "" then .error (.value "text is required")
    else if (PyStr.strip text).length > 500 then .error (.value "text must be 500 characters or less")
    else match r.policy.evaluate casefold text r.chatSendTimes now with
      | .ok _ => .ok ()
      | .error reason => .error (.value reason)
  | _ => .error (.value "text is required")

/-- `preview`: a new ticket in place of the expired ones, and of the oldest of 128. -/
def StreamRuntime.preview (r : StreamRuntime) (casefold : String → String) (requestId : String)
    (action : StreamAction) (params : Dict String Json) (now : ℚ) : Except Raised StreamRuntime := do
  checkPreviewText r casefold action params now
  require (.runtime "Twitch subscription provider is not configured")
    (action = .subscriptionsSync → r.syncConfigured = true)
  let live := r.previews.filter (fun e => now < e.2.expiresAt)
  let room := if 128 ≤ live.length then live.tail else live
  let ticket : Ticket := { action, params, expiresAt := now + previewTtlSeconds }
  return { r with previews := room ++ [(requestId, ticket)] }

/-! ## Execute -/

structure ExecuteRequest where
  requestId : String
  action : String
  confirmed : Json
  params : Dict String Json
deriving DecidableEq

/-- A ticket that fits a request: it has not expired, and parameters and action are equal. -/
def Ticket.fits (ticket : Ticket) (request : ExecuteRequest) (now : ℚ) : Except Raised Unit := do
  require (.value "preview has expired") (now < ticket.expiresAt)
  require (.value "execute params do not match preview") (dictSame ticket.params request.params = true)
  require (.value "execute action does not match preview")
    (ticket.action.text = PyStr.strip request.action)

/-- The name of a scene or a profile among the parameters. -/
def checkName (params : Dict String Json) (key : String) : Except Raised Unit :=
  let error := Raised.value (key ++ " is required and must be 200 characters or less")
  match params.get key with
  | some (.str name) => require error (PyStr.strip name ≠ "" ∧ (PyStr.strip name).length ≤ 200)
  | _ => .error error

/-- The check of an action's adapter before the claim. -/
def StreamRuntime.checkAdapter (r : StreamRuntime) (action : StreamAction) : Except Raised Unit :=
  match action with
  | .chatSend => do
    require (.runtime "Twitch chat sender is not configured") (r.chatConfigured = true)
    require (.runtime "Twitch EventSub is revoked; reconfigure Twitch before sending") (r.revoked = false)
  | .subscriptionsSync =>
    require (.runtime "Twitch subscription provider is not configured") (r.syncConfigured = true)
  | .captionDraft => .ok ()
  | _ => require (.runtime "OBS adapter is not configured") (r.obsConfigured = true)

/-- The check of an action's parameters before the claim. -/
def checkParams (action : StreamAction) (params : Dict String Json) : Except Raised Unit :=
  match action with
  | .sceneSwitch => checkName params "sceneName"
  | .profileSwitch => checkName params "profileName"
  | _ => .ok ()

/-- The checks of `execute` on a ticket before its claim. -/
def StreamRuntime.checkTicket (r : StreamRuntime) (ticket : Ticket) (request : ExecuteRequest) (now : ℚ) :
    Except Raised Unit := do
  ticket.fits request now
  r.checkAdapter ticket.action
  checkParams ticket.action request.params

/-- `execute` up to its claim. An expired ticket is taken away. -/
def StreamRuntime.look (r : StreamRuntime) (request : ExecuteRequest) (now : ℚ) :
    Except Raised StreamAction × StreamRuntime :=
  if PyStr.strip request.requestId = "" then (.error (.value "requestId is required"), r)
  else if PyStr.strip request.action = "" then (.error (.value "action is required"), r)
  else if request.confirmed ≠ .bool true then (.error (.value "confirmed must be true"), r)
  else match r.ticket request.requestId with
    | none => (.error (.value "preview requestId is unknown or already used"), r)
    | some ticket =>
      match r.checkTicket ticket request now with
      | .error e =>
        (.error e, if ticket.expiresAt ≤ now then r.popTicket request.requestId else r)
      | .ok _ => (.ok ticket.action, r)

/-- What keeps a chat message from being claimed. -/
def StreamRuntime.checkChat (r : StreamRuntime) (casefold : String → String) (action : StreamAction)
    (params : Dict String Json) (now : ℚ) : Except Raised Unit :=
  if action ≠ .chatSend then .ok ()
  else match params.get "text" with
  | some (.str text) =>
    if PyStr.strip text = "" then .error (.value "text is required")
    else match r.policy.evaluate casefold text r.chatSendTimes now with
      | .ok _ => .ok ()
      | .error reason => .error (.value reason)
  | _ => .error (.value "text is required")

/-- The checks under the lock, with the ticket as it is now. -/
def StreamRuntime.claimChecks (r : StreamRuntime) (casefold : String → String) (request : ExecuteRequest)
    (action : StreamAction) (now : ℚ) : Except Raised Ticket :=
  match r.ticket request.requestId with
  | none => .error (.value "preview requestId is unknown or already used")
  | some ticket => do
    require (.value "preview has expired") (now < ticket.expiresAt)
    require (.value "execute params do not match preview") (dictSame ticket.params request.params = true)
    require (.value "execute action does not match preview") (ticket.action = action)
    require (.runtime "Twitch EventSub is revoked; reconfigure Twitch before sending")
      (action = .chatSend → r.revoked = false)
    require (.runtime "human takeover is active; agent execution is blocked") (r.humanTakeover = false)
    r.checkChat casefold action request.params now
    return ticket

def auditEntry (action : StreamAction) (requestId : String) (stamp : Stamp) (status : AuditStatus)
    (confirmed : Option Bool) (verificationStatus errorCode : Option String) : AuditEntry :=
  { action
    requestId
    stamp
    status
    externalSideEffects := action.external
    confirmed
    verificationStatus
    errorCode }

/-- The claim of `execute`: under the lock the ticket is checked again and taken away, and
`sending` is recorded; an external action needs the file to be written. -/
def StreamRuntime.claim (r : StreamRuntime) (casefold : String → String) (request : ExecuteRequest)
    (action : StreamAction) (now : ℚ) (stamp : Stamp) (disk : Bool) : Except Raised Ticket × StreamRuntime :=
  match r.claimChecks casefold request action now with
  | .error e =>
    let expired := (r.ticket request.requestId).any (fun ticket => ticket.expiresAt ≤ now)
    (.error e, if expired then r.popTicket request.requestId else r)
  | .ok ticket =>
    let entry := auditEntry action request.requestId stamp .sending none none none
    match (r.popTicket request.requestId).record entry action.external disk with
    | (some e, r) => (.error e, r)
    | (none, r) =>
      (.ok ticket,
        if action = .chatSend then { r with chatSendTimes := r.chatSendTimes ++ [now] } else r)

/-! ## The provider -/

inductive ProviderRequest where
  | obs (method : String) (name : Option String)
  | chat (text : String)
  | sync
deriving DecidableEq

def textParam (params : Dict String Json) (key : String) : String :=
  match params.get key with
  | some (.str text) => text
  | _ => ""

/-- The request with which an action reaches its provider; a caption draft reaches none. -/
def providerRequest (action : StreamAction) (params : Dict String Json) : Option ProviderRequest :=
  match action with
  | .status => some (.obs "GetStreamStatus" none)
  | .scenePreview => some (.obs "GetSceneList" none)
  | .sceneSwitch => some (.obs "SetCurrentProgramScene" (some (PyStr.strip (textParam params "sceneName"))))
  | .profilePreview => some (.obs "GetProfileList" none)
  | .profileSwitch => some (.obs "SetCurrentProfile" (some (PyStr.strip (textParam params "profileName"))))
  | .broadcastStart => some (.obs "StartStream" none)
  | .broadcastStop => some (.obs "StopStream" none)
  | .captionDraft => none
  | .chatSend => some (.chat (textParam params "text"))
  | .subscriptionsSync => some .sync

/-- What a provider answers: the adapter's call, the call that verifies it, and the sync. -/
structure ProviderResult where
  effect : Except Raised Json
  verification : Except Raised Json
  subscriptions : Except Raised (List Subscription)

/-- A verification status: acknowledged where the provider says so. -/
def acknowledged (proved : Bool) : String := if proved then "provider_acknowledged" else "unknown_effect"

/-- An effect that a second call verifies. -/
def verified (result : ProviderResult) (proves : Json → Bool) : Except Raised (Json × String) := do
  let response ← result.effect
  let verification ← result.verification
  return (response, acknowledged (proves verification))

/-- The provider calls of `execute`, with the response and its verification status. -/
def StreamRuntime.call (r : StreamRuntime) (action : StreamAction) (params : Dict String Json)
    (result : ProviderResult) : Except Raised (Json × String) :=
  match action with
  | .captionDraft =>
    let text := textParam params "text"
    if PyStr.strip text = "" then .error (.value "text is required")
    else if text.length > 4000 then .error (.value "text must be 4000 characters or less")
    else .ok (.obj [("draft", .str (PyStr.strip text))], "local_only")
  | .chatSend => do
    let response ← result.effect
    return (response, acknowledged (response.get "sent" = .bool true))
  | .subscriptionsSync => do
    let active ← result.subscriptions
    let status := planStatus r.revoked r.secret r.desired active
    return (.obj [("subscriptionPlan", .obj [("status", .str status)])], acknowledged (status = "synced"))
  | .sceneSwitch =>
    verified result fun v =>
      v.get "currentProgramSceneName" = .str (PyStr.strip (textParam params "sceneName"))
  | .profileSwitch =>
    verified result fun v => v.get "currentProfileName" = .str (PyStr.strip (textParam params "profileName"))
  | .broadcastStart => verified result fun v => v.get "outputActive" = .bool true
  | .broadcastStop => verified result fun v => v.get "outputActive" = .bool false
  | .status | .scenePreview | .profilePreview => do
    let response ← result.effect
    return (response, "provider_acknowledged")

/-! ## The outcome -/

/-- The state of the stream after a success. -/
def successState (action : StreamAction) (response : Json) (state : String) : String :=
  match action with
  | .broadcastStart => "live"
  | .broadcastStop => "ended"
  | .status | .scenePreview | .sceneSwitch =>
    if response.get "outputActive" = .bool true then "live" else "ready"
  | _ => state

/-- An outcome that is recorded, and what the request raises after it. -/
def StreamRuntime.recordOutcome (r : StreamRuntime) (entry : AuditEntry) (disk : Bool)
    (outcome : Except Raised Json) : Except Raised Json × StreamRuntime :=
  match r.record entry false disk with
  | (some e, r) => (.error e, r)
  | (none, r) => (outcome, r)

/-- `execute` after the provider: a `ValueError` passes, and so does what is no `Exception`; any
other `Exception` is recorded as an unknown effect, and so is a verification that fails. -/
def StreamRuntime.conclude (r : StreamRuntime) (action : StreamAction) (requestId : String) (stamp : Stamp)
    (outcome : Except Raised (Json × String)) (disk : Bool) : Except Raised Json × StreamRuntime :=
  match outcome with
  | .error e =>
    if e.isValueError ∨ ¬ e.isException then (.error e, r)
    else
      let entry := auditEntry action requestId stamp .unknownEffect (some true) none (some e.name)
      { r with state := "error" }.recordOutcome entry disk (.error (.runtime ("unknown_effect: " ++ e.name)))
  | .ok (response, verificationStatus) =>
    if verificationStatus = "unknown_effect" then
      let entry := auditEntry action requestId stamp .unknownEffect (some true) none
        (some "verification_mismatch")
      { r with state := "error" }.recordOutcome entry disk (.error (.runtime
        "unknown_effect: provider verification did not confirm the requested state"))
    else
      let entry := auditEntry action requestId stamp .knownSuccess (some true) (some verificationStatus) none
      { r with state := successState action response r.state }.recordOutcome entry disk (.ok response)

end Streaming
