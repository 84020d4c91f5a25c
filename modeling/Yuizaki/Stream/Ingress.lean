import Yuizaki.Lib.Custody
import Yuizaki.Lib.Dict
import Yuizaki.Lib.Json
import Yuizaki.Lib.PyStr
import Yuizaki.Lib.Run
import Mathlib.Algebra.Order.Ring.Rat

/- Inbound Twitch events (`TwitchEventIngress` in `modules/system/stream_platforms.py`).

   EventSub messages are verified, and a notification's id is claimed in the table of seen
   ids before its event is queued. Requests run in worker threads, so the statements of
   `ingest_eventsub` between two of its locks are steps of their own here, and the clock may
   move between any two steps.

   Two rules decide about a message that comes again. The verifier takes a timestamp that is
   at most `max_age_seconds` away from the clock, on either side. The table forgets an id
   whose claim is more than `max(max_age_seconds, 900)` seconds old, whatever its timestamp
   was. A revocation is not claimed at all. `eventsub_once` says that no id is queued twice
   and no revocation acted on twice along the runs in which no claimed id has been forgotten
   when it comes again and no revocation comes again, and `replay_queues_twice` is a run in
   which one has. -/
namespace Streaming

open Transition

/-! ## Messages -/

/-- What the ingress calls and this module does not compute: text beyond ASCII, `str(value)`,
HMAC-SHA256 in hex, `datetime.fromisoformat` with a time zone, and `json.loads` of the body. -/
structure IngressTools where
  wide : String → String
  str : Json → String
  hexdigest : (secret messageId timestamp : String) → (body : List UInt8) → String
  timestamp : String → Option ℚ
  loads : List UInt8 → Option Json

structure Delivery where
  body : List UInt8
  headers : List (String × String)

def maxEventsubBodyBytes : ℕ := 512 * 1024

def maxMessageIdLength : ℕ := 256

/-- A chat event of Twitch, as it is handed to the queue. -/
structure ChatEvent where
  text : String
  author : String
deriving DecidableEq

/-- The state of `TwitchEventIngress` that deciding about a message reads or writes. -/
structure TwitchIngress where
  secret : String
  maxAgeSeconds : ℤ
  maxEventsPerMinute : ℤ
  seen : Dict String ℚ
  eventTimes : List ℚ
  throttledEvents : ℕ
  revoked : Bool
  revocationCount : ℕ
  lastMessageId : Option String

/-- `TwitchEventIngress.__init__`, with what `_load_state` found in the state file. -/
def TwitchIngress.new (secret : String) (maxAgeSeconds maxEventsPerMinute : ℤ) (revoked : Bool)
    (revocationCount : ℕ) (lastMessageId : Option String) : TwitchIngress :=
  { secret := PyStr.strip secret
    maxAgeSeconds := max 30 (min maxAgeSeconds 900)
    maxEventsPerMinute := max 10 (min maxEventsPerMinute 1000)
    seen := Dict.empty
    eventTimes := []
    throttledEvents := 0
    revoked
    revocationCount
    lastMessageId }

section Verify

variable (tools : IngressTools)

def header (headers : List (String × String)) (name : String) : String :=
  let wanted := PyStr.lower tools.wide name
  match headers.find? (fun h => PyStr.lower tools.wide h.1 = wanted) with
  | some (_, value) => PyStr.strip value
  | none => ""

/-- `verify`: the id of a message that is signed and whose timestamp is near the clock. -/
def verify (ingress : TwitchIngress) (now : ℚ) (d : Delivery) : Except String String := do
  if d.body.length > maxEventsubBodyBytes then throw "EventSub body is too large"
  if ingress.secret = "" then throw "Twitch EventSub secret is not configured"
  let messageId := header tools d.headers "Twitch-Eventsub-Message-Id"
  let timestamp := header tools d.headers "Twitch-Eventsub-Message-Timestamp"
  let signature := header tools d.headers "Twitch-Eventsub-Message-Signature"
  if messageId = "" ∨ timestamp = "" ∨ signature = "" then
    throw "required Twitch EventSub headers are missing"
  if messageId.length > maxMessageIdLength then throw "Twitch EventSub message id is too long"
  match tools.timestamp timestamp with
  | none => throw "invalid Twitch EventSub timestamp"
  | some parsed =>
    if |now - parsed| > ingress.maxAgeSeconds then throw "Twitch EventSub timestamp is expired"
    if "sha256=" ++ tools.hexdigest ingress.secret messageId timestamp d.body ≠ signature then
      throw "invalid Twitch EventSub signature"
    return messageId

/-- A message past the checks at the head of `ingest_eventsub`. -/
structure Message where
  id : String
  type : String
  payload : Json

/-- The head of `ingest_eventsub`: the message is verified and its body is an object. -/
def readMessage (ingress : TwitchIngress) (now : ℚ) (d : Delivery) : Except String Message := do
  let id ← verify tools ingress now d
  match tools.loads d.body with
  | some (.obj payload) =>
    let type := PyStr.lower tools.wide (header tools d.headers "Twitch-Eventsub-Message-Type")
    return { id, type, payload := .obj payload }
  | some _ => throw "EventSub body must be an object"
  | none => throw "EventSub body must be valid JSON"

/-- A member that is an object, or no entries: `raw if isinstance(raw, Mapping) else {}`. -/
def objectOf : Json → Json
  | .obj kvs => .obj kvs
  | _ => .obj []

def normalizeEvent (subscriptionType : String) (event : Json) : Option ChatEvent :=
  if subscriptionType = "channel.chat.message" then
    let text := match event.get "message" with
      | .obj message => (Json.obj message).get "text"
      | _ => event.get "text"
    let author := ((event.get "chatter_user_name").or (event.get "user_name")).or (.str "twitch")
    match text with
    | .str s => if PyStr.strip s ≠ "" then some ⟨PyStr.strip s, tools.str author⟩ else none
    | _ => none
  else if subscriptionType = "channel.follow" then
    let author := tools.str ((event.get "user_name").or (.str "twitch"))
    some ⟨author ++ " 关注了频道", author⟩
  else if subscriptionType = "channel.subscribe" then
    let author := tools.str ((event.get "user_name").or (.str "twitch"))
    let tier := tools.str ((event.get "tier").or (.str "1000"))
    some ⟨author ++ " 订阅了频道（Tier " ++ tier ++ "）", author⟩
  else none

def messageEvent (payload : Json) : Option ChatEvent :=
  let subscription := objectOf (payload.get "subscription")
  let type := tools.str ((subscription.get "type").or (.str ""))
  normalizeEvent tools type (objectOf (payload.get "event"))

end Verify

/-- Whether `StreamRuntime.enqueue_event` takes a chat event; it raises otherwise. -/
def ChatEvent.accepted (event : ChatEvent) : Bool :=
  PyStr.strip event.text ≠ "" ∧ event.text.length ≤ 4000 ∧ event.author.length ≤ 200

/-- How long the table remembers a claim: `max(self.max_age_seconds, 900)`. -/
def TwitchIngress.horizon (ingress : TwitchIngress) : ℚ := (max ingress.maxAgeSeconds 900 : ℤ)

/-- `_prune_seen`, with its cutoff. -/
def TwitchIngress.pruneSeen (ingress : TwitchIngress) (cutoff : ℚ) : TwitchIngress :=
  { ingress with seen := ingress.seen.filter (fun _ claimed => cutoff ≤ claimed) }

/-- `_claim_event_slot`: whether the minute has room, with the times of its events. -/
def TwitchIngress.claimEventSlot (ingress : TwitchIngress) (now : ℚ) : Bool × TwitchIngress :=
  let recent := ingress.eventTimes.dropWhile (fun t => t ≤ now - 60)
  if ingress.maxEventsPerMinute ≤ recent.length then
    (false, { ingress with eventTimes := recent })
  else (true, { ingress with eventTimes := recent ++ [now] })

/-! ## The system -/

/-- Where a request is in `ingest_eventsub`: read, its id claimed, its slot claimed, or about
to prune the table. -/
inductive EventCall where
  | read (message : Message)
  | claimed (id : String) (payload : Json)
  | admitted (id : String) (payload : Json)
  | leaving

/-- The id a request has claimed and may still queue. -/
def EventCall.pending : EventCall → Option String
  | .claimed id _ | .admitted id _ => some id
  | .read _ | .leaving => none

/-- The ingress, its requests and the clock; `queued`, `revocations`, `claims` and `cutoffs`
record what was done so far, newest first. -/
structure IngressSystem where
  clock : ℚ
  ingress : TwitchIngress
  calls : Dict ℕ EventCall
  queued : List (String × ChatEvent)
  revocations : List String
  claims : List (String × ℚ)
  cutoffs : List ℚ

def IngressSystem.start (clock : ℚ) (ingress : TwitchIngress) : IngressSystem :=
  ⟨clock, ingress, Dict.empty, [], [], [], []⟩

/-- What happens next: the clock moves, a request comes in or goes on, a chat line comes over
IRC, or the operator configures Twitch anew. -/
inductive IngressLabel where
  | tick (now : ℚ)
  | receive (call : ℕ) (delivery : Delivery)
  | proceed (call : ℕ)
  | chat
  | configureSecret (secret : String)
  | resetRevocation

section Step

variable (tools : IngressTools) (s : IngressSystem)

/-- A message is dispatched on its type: a revocation is acted on, a notification is claimed
unless it was seen. -/
def IngressSystem.dispatch (call : ℕ) (message : Message) : IngressSystem :=
  let { id, type, payload } := message
  if type = "revocation" then
    { s with
      ingress := { s.ingress with
        revoked := true
        revocationCount := s.ingress.revocationCount + 1
        lastMessageId := some id }
      calls := s.calls.erase call
      revocations := id :: s.revocations }
  else if type = "notification" then
    if (s.ingress.seen.get id).isSome then { s with calls := s.calls.erase call }
    else
      { s with
        ingress := { s.ingress with seen := s.ingress.seen.set id s.clock }
        calls := s.calls.set call (.claimed id payload)
        claims := (id, s.clock) :: s.claims }
  -- a challenge is answered, any other type is refused
  else { s with calls := s.calls.erase call }

/-- A claimed message asks for a slot of the minute. -/
def IngressSystem.slot (call : ℕ) (id : String) (payload : Json) : IngressSystem :=
  let (free, ingress) := s.ingress.claimEventSlot s.clock
  if free then { s with ingress, calls := s.calls.set call (.admitted id payload) }
  else
    { s with
      ingress := { ingress with throttledEvents := ingress.throttledEvents + 1 }
      calls := s.calls.set call .leaving }

/-- A message with a slot is recorded and its event queued; a queue that refuses the event
ends the request. -/
def IngressSystem.enqueue (call : ℕ) (id : String) (payload : Json) : IngressSystem :=
  let s := { s with ingress := { s.ingress with lastMessageId := some id } }
  match messageEvent tools payload with
  | none => { s with calls := s.calls.set call .leaving }
  | some event =>
    if event.accepted then
      { s with calls := s.calls.set call .leaving, queued := (id, event) :: s.queued }
    else { s with calls := s.calls.erase call }

/-- A request leaves through `_prune_seen`. -/
def IngressSystem.prune (call : ℕ) : IngressSystem :=
  let cutoff := s.clock - s.ingress.horizon
  { s with
    ingress := s.ingress.pruneSeen cutoff
    calls := s.calls.erase call
    cutoffs := cutoff :: s.cutoffs }

def IngressSystem.next : IngressLabel → Option IngressSystem
  | .tick now => if s.clock ≤ now then some { s with clock := now } else none
  | .receive call delivery =>
    if (s.calls.get call).isSome then none
    else match readMessage tools s.ingress s.clock delivery with
      | .ok message => some { s with calls := s.calls.set call (.read message) }
      | .error _ => some s
  | .proceed call =>
    match s.calls.get call with
    | none => none
    | some (.read message) => some (s.dispatch call message)
    | some (.claimed id payload) => some (s.slot call id payload)
    | some (.admitted id payload) => some (s.enqueue tools call id payload)
    | some .leaving => some (s.prune call)
  | .chat =>
    let (free, ingress) := s.ingress.claimEventSlot s.clock
    if free then some { s with ingress }
    else some { s with ingress := { ingress with throttledEvents := ingress.throttledEvents + 1 } }
  | .configureSecret secret => some { s with ingress := { s.ingress with secret := PyStr.strip secret } }
  | .resetRevocation => some { s with ingress := { s.ingress with revoked := false } }

end Step

def IngressStep (tools : IngressTools) (s : IngressSystem) (l : IngressLabel) (s' : IngressSystem) :
    Prop :=
  s.next tools l = some s'

/-- No id was queued twice, and no revocation acted on twice. -/
structure IngressSystem.Once (s : IngressSystem) : Prop where
  queued : (s.queued.map Prod.fst).Nodup
  revocations : s.revocations.Nodup

/-- No prune has forgotten the claim of an id. -/
def IngressSystem.Remembers (s : IngressSystem) (id : String) : Prop :=
  ∀ claim ∈ s.claims, claim.1 = id → ∀ cutoff ∈ s.cutoffs, cutoff ≤ claim.2

instance (s : IngressSystem) (id : String) : Decidable (s.Remembers id) :=
  inferInstanceAs (Decidable (∀ claim ∈ s.claims, claim.1 = id → ∀ cutoff ∈ s.cutoffs, cutoff ≤ claim.2))

/-- A message is dispatched harmlessly: a notification that comes again is still remembered,
and a revocation does not come again. -/
def IngressSystem.Fresh (s : IngressSystem) (message : Message) : Prop :=
  (message.type = "notification" → s.Remembers message.id) ∧
    (message.type = "revocation" → message.id ∉ s.revocations)

instance (s : IngressSystem) (message : Message) : Decidable (s.Fresh message) :=
  inferInstanceAs (Decidable (_ ∧ _))

/-- A step dispatches no message, or does so harmlessly. -/
def IngressSystem.Harmless (s : IngressSystem) : IngressLabel → Prop
  | .proceed call =>
    match s.calls.get call with
    | some (.read message) => s.Fresh message
    | _ => True
  | _ => True

instance (s : IngressSystem) (l : IngressLabel) : Decidable (s.Harmless l) := by
  unfold IngressSystem.Harmless
  split
  · split <;> infer_instance
  · infer_instance

def HarmlessIngressStep (tools : IngressTools) (s : IngressSystem) (l : IngressLabel)
    (s' : IngressSystem) : Prop :=
  IngressStep tools s l s' ∧ s.Harmless l

/-! ## What a step keeps -/

/-- A request has claimed an id and may still queue it. -/
def IngressSystem.Pending (s : IngressSystem) (n : ℕ) (id : String) : Prop :=
  ∃ call, s.calls.get n = some call ∧ call.pending = some id

def IngressSystem.Unclaimed (s : IngressSystem) (id : String) : Prop := ∀ claimed, (id, claimed) ∉ s.claims

/-- What harmless steps keep: a claimed id is in the table until a prune forgets it, it is
pending at one request or queued, and no revocation was acted on twice. -/
structure IngressSystem.Kept (s : IngressSystem) : Prop where
  seen : ∀ id claimed, (id, claimed) ∈ s.claims → (∀ cutoff ∈ s.cutoffs, cutoff ≤ claimed) →
    s.ingress.seen.get id = some claimed
  custody : Custody s.Unclaimed s.Pending (s.queued.map Prod.fst)
  revocations : s.revocations.Nodup

section Keep

variable {tools : IngressTools} {s s' : IngressSystem} {n m : ℕ} {id : String}

theorem start_kept (clock : ℚ) (ingress : TwitchIngress) :
    (IngressSystem.start clock ingress).Kept where
  seen _ _ h := by cases h
  custody := Custody.start fun n id h => by
    obtain ⟨call, hcall, -⟩ := h
    cases hcall
  revocations := List.nodup_nil

theorem IngressSystem.Kept.frame (h : s.Kept) (hseen : s'.ingress.seen = s.ingress.seen)
    (hqueued : s'.queued = s.queued) (hrevocations : s'.revocations = s.revocations)
    (hclaims : s'.claims = s.claims) (hcutoffs : s'.cutoffs = s.cutoffs)
    (hpending : ∀ n id, s'.Pending n id → s.Pending n id) : s'.Kept where
  seen := by
    rw [hseen, hclaims, hcutoffs]
    exact h.seen
  custody := by
    rw [hqueued]
    refine h.custody.mono (fun id hid => ?_) hpending
    rw [IngressSystem.Unclaimed, hclaims] at hid
    exact hid
  revocations := by
    rw [hrevocations]
    exact h.revocations

theorem pending_erase (hcalls : s'.calls = s.calls.erase n) (h : s'.Pending m id) :
    m ≠ n ∧ s.Pending m id := by
  obtain ⟨call, hget, hid⟩ := h
  rw [hcalls, Dict.get_erase] at hget
  split at hget
  · cases hget
  · rename_i hne
    exact ⟨hne, call, hget, hid⟩

theorem pending_set {call : EventCall} (hcalls : s'.calls = s.calls.set n call)
    (h : s'.Pending m id) : m = n ∧ call.pending = some id ∨ m ≠ n ∧ s.Pending m id := by
  obtain ⟨call', hget, hid⟩ := h
  rw [hcalls, Dict.get_set] at hget
  split at hget
  · rename_i heq
    obtain rfl : call = call' := Option.some.inj hget
    exact Or.inl ⟨heq, hid⟩
  · rename_i hne
    exact Or.inr ⟨hne, call', hget, hid⟩

theorem pending_set_none {call : EventCall} (hcalls : s'.calls = s.calls.set n call)
    (hcall : call.pending = none) (h : s'.Pending m id) : m ≠ n ∧ s.Pending m id := by
  obtain ⟨-, hid⟩ | hold := pending_set hcalls h
  · rw [hcall] at hid
    cases hid
  · exact hold

theorem claimEventSlot_seen (ingress : TwitchIngress) (now : ℚ) :
    (ingress.claimEventSlot now).2.seen = ingress.seen := by
  unfold TwitchIngress.claimEventSlot
  dsimp only
  split <;> rfl

theorem IngressSystem.Kept.revoke (h : s.Kept) (hnew : id ∉ s.revocations)
    (hseen : s'.ingress.seen = s.ingress.seen) (hqueued : s'.queued = s.queued)
    (hrevocations : s'.revocations = id :: s.revocations) (hclaims : s'.claims = s.claims)
    (hcutoffs : s'.cutoffs = s.cutoffs) (hpending : ∀ n id, s'.Pending n id → s.Pending n id) :
    s'.Kept := by
  have hframe : ({ s' with revocations := s.revocations } : IngressSystem).Kept :=
    h.frame hseen hqueued rfl hclaims hcutoffs hpending
  refine ⟨hframe.seen, hframe.custody, ?_⟩
  rw [hrevocations]
  exact List.nodup_cons.mpr ⟨hnew, h.revocations⟩

theorem IngressSystem.Kept.claim (h : s.Kept) (payload : Json) (hunseen : s.ingress.seen.get id = none)
    (hremembers : s.Remembers id) (ingress : TwitchIngress)
    (hseen : ingress.seen = s.ingress.seen.set id s.clock) :
    ({ s with ingress, calls := s.calls.set n (.claimed id payload),
              claims := (id, s.clock) :: s.claims } : IngressSystem).Kept := by
  -- a remembered claim would be in the table
  have hfresh : ∀ claimed, (id, claimed) ∉ s.claims := fun claimed hmem => by
    have hget := h.seen id claimed hmem (hremembers (id, claimed) hmem rfl)
    rw [hunseen] at hget
    cases hget
  refine ⟨fun id' claimed hmem hcut => ?_, h.custody.take (k := n) hfresh (fun id' hid' => ?_)
    fun m id' hp => ?_, h.revocations⟩
  · show ingress.seen.get id' = some claimed
    rw [hseen, Dict.get_set]
    obtain heq | hold := List.mem_cons.mp hmem
    · obtain ⟨rfl, rfl⟩ := Prod.mk.inj heq
      rw [if_pos rfl]
    · have hne : id' ≠ id := fun heq => hfresh claimed (heq ▸ hold)
      rw [if_neg hne]
      exact h.seen id' claimed hold hcut
  · refine ⟨fun claimed hold => hid' claimed (List.mem_cons_of_mem _ hold), fun heq => ?_⟩
    exact hid' s.clock (heq ▸ List.mem_cons_self)
  · obtain ⟨heq, hid⟩ | ⟨-, hold⟩ := pending_set rfl hp
    · exact Or.inr ⟨heq, (Option.some.inj hid).symm⟩
    · exact Or.inl hold

theorem IngressSystem.Kept.queue (h : s.Kept) (hcall : s.Pending n id) (event : ChatEvent)
    (ingress : TwitchIngress) (hseen : ingress.seen = s.ingress.seen) :
    ({ s with ingress, calls := s.calls.set n .leaving,
              queued := (id, event) :: s.queued } : IngressSystem).Kept := by
  refine ⟨fun id' claimed hmem hcut => ?_, h.custody.use hcall fun m id' hp => ?_, h.revocations⟩
  · show ingress.seen.get id' = some claimed
    rw [hseen]
    exact h.seen id' claimed hmem hcut
  · obtain ⟨hne, hold⟩ := pending_set_none rfl rfl hp
    exact ⟨hold, hne⟩

theorem IngressSystem.Kept.prune (h : s.Kept) : (s.prune n).Kept := by
  have hpending : ∀ m id', (s.prune n).Pending m id' → s.Pending m id' :=
    fun m id' hp => by
      have hcalls : (s.prune n).calls = s.calls.erase n := rfl
      exact (pending_erase hcalls hp).2
  refine ⟨fun id' claimed hmem hcut => ?_, h.custody.mono (fun _ hid => hid) hpending, h.revocations⟩
  have hget := h.seen id' claimed hmem fun cutoff hc => hcut cutoff (List.mem_cons_of_mem _ hc)
  have hlate : s.clock - s.ingress.horizon ≤ claimed := hcut _ List.mem_cons_self
  show (s.ingress.seen.filter _).get id' = some claimed
  rw [Dict.get_filter, hget]
  simp only [Option.filter, decide_eq_true_eq, hlate, if_true]

theorem IngressSystem.Kept.dispatch (h : s.Kept) {message : Message}
    (hnotification : message.type = "notification" → s.Remembers message.id)
    (hrevocation : message.type = "revocation" → message.id ∉ s.revocations) :
    (s.dispatch n message).Kept := by
  have hend : ({ s with calls := s.calls.erase n } : IngressSystem).Kept :=
    h.frame rfl rfl rfl rfl rfl fun m id' hp => (pending_erase rfl hp).2
  unfold IngressSystem.dispatch
  dsimp only
  split
  · rename_i htype
    exact h.revoke (hrevocation htype) rfl rfl rfl rfl rfl fun m id' hp => (pending_erase rfl hp).2
  · split
    · rename_i htype
      split
      · exact hend
      · rename_i hunseen
        have hnone : s.ingress.seen.get message.id = none := by
          rw [← Option.not_isSome_iff_eq_none]
          exact hunseen
        exact h.claim message.payload hnone (hnotification htype) _ rfl
    · exact hend

theorem IngressSystem.Kept.slot (h : s.Kept) {payload : Json}
    (hcall : s.calls.get n = some (.claimed id payload)) : (s.slot n id payload).Kept := by
  have hslot := claimEventSlot_seen s.ingress s.clock
  unfold IngressSystem.slot
  dsimp only
  split
  · refine h.frame hslot rfl rfl rfl rfl fun m id' hp => ?_
    obtain ⟨rfl, hid⟩ | ⟨-, hold⟩ := pending_set rfl hp
    · exact ⟨_, hcall, hid⟩
    · exact hold
  · exact h.frame hslot rfl rfl rfl rfl fun m id' hp => (pending_set_none rfl rfl hp).2

theorem IngressSystem.Kept.enqueue (h : s.Kept) {payload : Json}
    (hcall : s.calls.get n = some (.admitted id payload)) : (s.enqueue tools n id payload).Kept := by
  have hpending : s.Pending n id := ⟨_, hcall, rfl⟩
  unfold IngressSystem.enqueue
  dsimp only
  split
  · exact h.frame rfl rfl rfl rfl rfl fun m id' hp => (pending_set_none rfl rfl hp).2
  · rename_i event hevent
    split
    · exact h.queue hpending event _ rfl
    · exact h.frame rfl rfl rfl rfl rfl fun m id' hp => (pending_erase rfl hp).2

theorem harmless_kept {l : IngressLabel} (h : s.Kept) (hstep : HarmlessIngressStep tools s l s') :
    s'.Kept := by
  obtain ⟨hnext, hharmless⟩ := hstep
  cases l with
  | tick now =>
    simp only [IngressStep, IngressSystem.next] at hnext
    split at hnext
    · obtain rfl := Option.some.inj hnext
      exact h.frame rfl rfl rfl rfl rfl fun _ _ hp => hp
    · cases hnext
  | receive call delivery =>
    simp only [IngressStep, IngressSystem.next] at hnext
    split at hnext
    · cases hnext
    · split at hnext
      · obtain rfl := Option.some.inj hnext
        exact h.frame rfl rfl rfl rfl rfl fun _ _ hp => (pending_set_none rfl rfl hp).2
      · obtain rfl := Option.some.inj hnext
        exact h
  | proceed call =>
    simp only [IngressStep, IngressSystem.next] at hnext
    split at hnext
    · cases hnext
    · rename_i message hcall
      obtain rfl := Option.some.inj hnext
      simp only [IngressSystem.Harmless, hcall] at hharmless
      obtain ⟨hnotification, hrevocation⟩ := hharmless
      exact h.dispatch hnotification hrevocation
    · rename_i id payload hcall
      obtain rfl := Option.some.inj hnext
      exact h.slot hcall
    · rename_i id payload hcall
      obtain rfl := Option.some.inj hnext
      exact h.enqueue hcall
    · obtain rfl := Option.some.inj hnext
      exact h.prune
  | chat =>
    have hslot := claimEventSlot_seen s.ingress s.clock
    simp only [IngressStep, IngressSystem.next] at hnext
    split at hnext
    · obtain rfl := Option.some.inj hnext
      exact h.frame hslot rfl rfl rfl rfl fun _ _ hp => hp
    · obtain rfl := Option.some.inj hnext
      exact h.frame hslot rfl rfl rfl rfl fun _ _ hp => hp
  | configureSecret secret =>
    obtain rfl := Option.some.inj hnext
    exact h.frame rfl rfl rfl rfl rfl fun _ _ hp => hp
  | resetRevocation =>
    obtain rfl := Option.some.inj hnext
    exact h.frame rfl rfl rfl rfl rfl fun _ _ hp => hp

end Keep

/-! ## Messages that come again -/

/-- Along a run of harmless steps no message id is queued twice and no revocation is acted on
twice. -/
theorem eventsub_once {tools : IngressTools} {clock : ℚ} {ingress : TwitchIngress}
    {hist : List IngressLabel} {s : IngressSystem}
    (hrun : Run (HarmlessIngressStep tools) (IngressSystem.start clock ingress) hist s) : s.Once := by
  have hkept : s.Kept := hrun.invariant (start_kept clock ingress)
    fun _ _ _ h hstep => harmless_kept h hstep
  exact ⟨hkept.custody.once, hkept.revocations⟩

/-! ## Runs -/

/-- A chat service that signs with the secret and the id, with three moments by name. -/
def quietTools : IngressTools where
  wide := id
  str
    | .str s => s
    | _ => ""
  hexdigest secret messageId _ _ := secret ++ messageId
  timestamp text :=
    [("1970-01-01T00:00:00Z", 0), ("1970-01-01T00:10:00Z", 600), ("1970-01-01T00:15:01Z", 901)].lookup text
  loads
    | [] => some (.obj [("subscription", .obj [("type", .str "channel.follow")]),
        ("event", .obj [("user_name", .str "ann")])])
    | _ => none

/-- A signed message for `quietTools`. -/
def quietDelivery (messageId timestamp type : String) : Delivery where
  body := []
  headers := [("Twitch-Eventsub-Message-Id", messageId),
    ("Twitch-Eventsub-Message-Timestamp", timestamp),
    ("Twitch-Eventsub-Message-Signature", "sha256=key" ++ messageId),
    ("Twitch-Eventsub-Message-Type", type)]

def quietIngress : TwitchIngress := TwitchIngress.new "key" 600 120 false 0 none

/-- A notification comes twice and a revocation once. -/
def quietRun : List IngressLabel :=
  [.receive 0 (quietDelivery "m1" "1970-01-01T00:00:00Z" "notification"), .proceed 0, .proceed 0,
    .proceed 0, .proceed 0, .tick 60,
    .receive 1 (quietDelivery "m1" "1970-01-01T00:00:00Z" "notification"), .proceed 1,
    .receive 2 (quietDelivery "m2" "1970-01-01T00:00:00Z" "revocation"), .proceed 2]

def harmlessNext (tools : IngressTools) (s : IngressSystem) (l : IngressLabel) : Option IngressSystem :=
  if s.Harmless l then s.next tools l else none

theorem harmlessNext_step {tools : IngressTools} {s s' : IngressSystem} {l : IngressLabel}
    (h : harmlessNext tools s l = some s') : HarmlessIngressStep tools s l s' := by
  unfold harmlessNext at h
  split at h
  · exact ⟨h, ‹_›⟩
  · cases h

theorem eventsub_once_repeated : ∃ s, Run (HarmlessIngressStep quietTools)
    (IngressSystem.start 0 quietIngress) quietRun.reverse s ∧
    s.queued.map Prod.fst = ["m1"] ∧ s.revocations = ["m2"] ∧ s.Once := by
  have hrun : (Run.exec (harmlessNext quietTools) (IngressSystem.start 0 quietIngress) quietRun).map
      (fun s => (s.queued.map Prod.fst, s.revocations)) = some (["m1"], ["m2"]) := by
    decide +kernel
  obtain ⟨s, hs, hlists⟩ := Option.map_eq_some_iff.mp hrun
  obtain ⟨hqueued, hrevocations⟩ := Prod.mk.inj hlists
  have hsteps := (Run.of_exec hs).mono fun _ _ _ => harmlessNext_step
  exact ⟨s, hsteps, hqueued, hrevocations, eventsub_once hsteps⟩

/-- A message whose timestamp is ten minutes ahead, another one that prunes a quarter of an
hour later, and the first one again. -/
def replayRun : List IngressLabel :=
  [.receive 0 (quietDelivery "m1" "1970-01-01T00:10:00Z" "notification"), .proceed 0, .proceed 0,
    .proceed 0, .proceed 0, .tick 901,
    .receive 1 (quietDelivery "m2" "1970-01-01T00:15:01Z" "notification"), .proceed 1, .proceed 1,
    .proceed 1, .proceed 1, .tick 902,
    .receive 2 (quietDelivery "m1" "1970-01-01T00:10:00Z" "notification"), .proceed 2, .proceed 2,
    .proceed 2]

theorem replay_queues_twice : ¬ ∀ (tools : IngressTools) (clock : ℚ) (secret : String)
    (maxAgeSeconds maxEventsPerMinute : ℤ) (revoked : Bool) (revocationCount : ℕ)
    (lastMessageId : Option String) (hist : List IngressLabel) (s : IngressSystem),
    Run (IngressStep tools) (IngressSystem.start clock (TwitchIngress.new secret maxAgeSeconds
      maxEventsPerMinute revoked revocationCount lastMessageId)) hist s → s.Once := by
  intro hall
  have hrun : (Run.exec (fun s l => s.next quietTools l) (IngressSystem.start 0 quietIngress)
      replayRun).map (fun s => s.queued.map Prod.fst) = some ["m1", "m2", "m1"] := by
    decide +kernel
  obtain ⟨s, hs, hqueued⟩ := Option.map_eq_some_iff.mp hrun
  have honce := (hall quietTools 0 "key" 600 120 false 0 none _ s (Run.of_exec hs)).queued
  rw [hqueued] at honce
  exact absurd honce (by decide)

end Streaming
