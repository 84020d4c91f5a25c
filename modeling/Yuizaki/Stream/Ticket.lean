import Yuizaki.Lib.Custody
import Yuizaki.Stream.Runtime
import Mathlib.Data.List.Perm.Subperm

/- Tickets of stream actions along a run.

   A ticket is free while it waits for its claim, held by the request that claimed it, and
   used when that request calls the provider. The claim reads clock, takeover and revocation
   under the lock; the provider is called after the lock was given up, when all of them may
   be different. `stream_tickets` says what holds of every provider call in every run;
   `claimed_is_not_called` is a run in which a call is made under a takeover, after the ticket
   expired, while Twitch is revoked, and without an entry in the action file. -/
namespace Streaming

open Transition

/-! ## The system -/

/-- A claim, with what it read and whether the action file has its entry. -/
structure ClaimRecord where
  request : ExecuteRequest
  action : StreamAction
  ticket : Ticket
  time : ℚ
  takeover : Bool
  revoked : Bool
  hasFile : Bool
  written : Bool
deriving DecidableEq

/-- A call of a provider, with the clock, the takeover and the revocation at the call. -/
structure Crossing where
  claim : ClaimRecord
  request : ProviderRequest
  time : ℚ
  takeover : Bool
  revoked : Bool
deriving DecidableEq

/-- An execute request: past its first checks, past its claim, or at the provider. -/
inductive Execution where
  | looked (request : ExecuteRequest) (action : StreamAction)
  | claimed (claim : ClaimRecord)
  | called (claim : ClaimRecord)
deriving DecidableEq

/-- The runtime, its requests and the clock; `issued` has the tickets that previews made and
`crossings` the calls of providers, newest first. -/
structure StreamSystem where
  clock : ℚ
  runtime : StreamRuntime
  executions : Dict ℕ Execution
  issued : List (String × Ticket)
  crossings : List Crossing

/-- What may be configured while the runtime runs. -/
structure StreamConfig where
  policy : ModerationPolicy
  chatConfigured : Bool
  obsConfigured : Bool
  syncConfigured : Bool
  desired : List String
  secret : Bool

/-- What happens next. A preview draws a new id; a claim and an outcome bring the time text,
and whether the action file can be written. -/
inductive StreamLabel where
  | tick (now : ℚ)
  | preview (hex action : String) (params : Dict String Json)
  | execute (n : ℕ) (request : ExecuteRequest)
  | claim (n : ℕ) (stamp : Stamp) (disk : Bool)
  | cross (n : ℕ)
  | conclude (n : ℕ) (result : ProviderResult) (stamp : Stamp) (disk : Bool)
  | takeover (enabled : Bool)
  | revoke
  | resetRevocation
  | configure (config : StreamConfig)

namespace StreamSystem

/-- A runtime that starts: no previews, and what its file has. -/
def start (clock : ℚ) (runtime : StreamRuntime) : StreamSystem :=
  { clock
    runtime := { runtime with previews := [] }
    executions := Dict.empty
    issued := []
    crossings := [] }

/-- `f"stream-preview-{uuid4().hex}"`. -/
def previewId (hex : String) : String := "stream-preview-" ++ hex

def claimRecord (s : StreamSystem) (request : ExecuteRequest) (action : StreamAction) (ticket : Ticket)
    (stamp : Stamp) (after : StreamRuntime) : ClaimRecord :=
  { request
    action
    ticket
    time := s.clock
    takeover := s.runtime.humanTakeover
    revoked := s.runtime.revoked
    hasFile := s.runtime.file.isSome
    written := after.file.any
      (fun file => auditEntry action request.requestId stamp .sending none none none ∈ file) }

/-- A request that looked claims its ticket. -/
def claimStep (casefold : String → String) (s : StreamSystem) (n : ℕ) (request : ExecuteRequest)
    (action : StreamAction) (stamp : Stamp) (disk : Bool) : StreamSystem :=
  match s.runtime.claim casefold request action s.clock stamp disk with
  | (.error _, runtime) => { s with runtime, executions := s.executions.erase n }
  | (.ok ticket, runtime) =>
    let record := s.claimRecord request action ticket stamp runtime
    { s with runtime, executions := s.executions.set n (.claimed record) }

/-- A claimed action calls its provider; a caption draft has none. -/
def crossStep (s : StreamSystem) (n : ℕ) (claim : ClaimRecord) : Option StreamSystem :=
  (providerRequest claim.action claim.request.params).map fun request =>
    let crossing : Crossing :=
      { claim
        request
        time := s.clock
        takeover := s.runtime.humanTakeover
        revoked := s.runtime.revoked }
    { s with executions := s.executions.set n (.called claim), crossings := crossing :: s.crossings }

def concludeStep (s : StreamSystem) (n : ℕ) (claim : ClaimRecord) (result : ProviderResult) (stamp : Stamp)
    (disk : Bool) : StreamSystem :=
  let outcome := s.runtime.call claim.action claim.request.params result
  { s with
    runtime := (s.runtime.conclude claim.action claim.request.requestId stamp outcome disk).2
    executions := s.executions.erase n }

def next (casefold : String → String) (s : StreamSystem) : StreamLabel → Option StreamSystem
  | .tick now => if s.clock ≤ now then some { s with clock := now } else none
  | .preview hex action params =>
    if previewId hex ∈ s.issued.map Prod.fst then none
    else match StreamAction.ofText (PyStr.strip action) with
      | none => some s
      | some action =>
        match s.runtime.preview casefold (previewId hex) action params s.clock with
        | .error _ => some s
        | .ok runtime =>
          let ticket : Ticket := { action, params, expiresAt := s.clock + previewTtlSeconds }
          some { s with runtime, issued := (previewId hex, ticket) :: s.issued }
  | .execute n request =>
    if (s.executions.get n).isSome then none
    else match s.runtime.look request s.clock with
      | (.error _, runtime) => some { s with runtime }
      | (.ok action, runtime) =>
        some { s with runtime, executions := s.executions.set n (.looked request action) }
  | .claim n stamp disk =>
    match s.executions.get n with
    | some (.looked request action) => some (s.claimStep casefold n request action stamp disk)
    | _ => none
  | .cross n =>
    match s.executions.get n with
    | some (.claimed claim) => s.crossStep n claim
    | _ => none
  | .conclude n result stamp disk =>
    match s.executions.get n with
    | some (.called claim) => some (s.concludeStep n claim result stamp disk)
    | some (.claimed claim) =>
      if claim.action = .captionDraft then some (s.concludeStep n claim result stamp disk) else none
    | _ => none
  | .takeover enabled => some { s with runtime := { s.runtime with humanTakeover := enabled } }
  | .revoke => some { s with runtime := { s.runtime with revoked := true } }
  | .resetRevocation => some { s with runtime := { s.runtime with revoked := false } }
  | .configure config =>
    some { s with
      runtime := { s.runtime with
        policy := config.policy
        chatConfigured := config.chatConfigured
        obsConfigured := config.obsConfigured
        syncConfigured := config.syncConfigured
        desired := config.desired
        secret := config.secret } }

end StreamSystem

def StreamStep (casefold : String → String) (s : StreamSystem) (l : StreamLabel) (s' : StreamSystem) : Prop :=
  s.next casefold l = some s'

/-! ## What is claimed -/

def Crossing.requestId (c : Crossing) : String := c.claim.request.requestId

/-- A claim honours its ticket: the request was confirmed, the ticket had not expired, nobody
had taken over, Twitch was not revoked for a chat message, and an external action has its
entry in the action file. -/
structure ClaimRecord.Honours (c : ClaimRecord) (ticket : Ticket) : Prop where
  confirmed : c.request.confirmed = .bool true
  alive : c.time < ticket.expiresAt
  free : c.takeover = false
  chat : c.action = .chatSend → c.revoked = false
  durable : c.action.external = true → c.hasFile = true → c.written = true

/-- No ticket reaches a provider twice, and each provider call is the one its ticket was made
for and comes from a claim that honours it. -/
structure StreamSystem.Honoured (s : StreamSystem) : Prop where
  once : (s.crossings.map Crossing.requestId).Nodup
  tickets : (s.issued.map Prod.fst).Nodup
  each : ∀ c ∈ s.crossings, ∃ ticket, (c.requestId, ticket) ∈ s.issued ∧ c.claim.Honours ticket ∧
    providerRequest ticket.action ticket.params = some c.request

/-- What the calls would be if the claim were the call: takeover, revocation and the clock are
those of the call, and every action has its entry in the file. -/
structure StreamSystem.Ideal (s : StreamSystem) : Prop where
  once : (s.crossings.map Crossing.requestId).Nodup
  each : ∀ c ∈ s.crossings, ∃ ticket, (c.requestId, ticket) ∈ s.issued ∧
    c.claim.request.confirmed = .bool true ∧ c.time < ticket.expiresAt ∧ c.takeover = false ∧
    c.revoked = false ∧ c.claim.written = true ∧
    providerRequest ticket.action ticket.params = some c.request

/-! ## Parameters -/

section Same

variable {a b : Dict String Json} {key text : String}

theorem same_str {v : Json} : (Json.str text).same v = true ↔ v = .str text := by
  cases v with
  | str s => simp [Json.same, eq_comm]
  | _ => simp [Json.same]

theorem same_str_right {v : Json} : v.same (.str text) = true ↔ v = .str text := by
  cases v with
  | str s => simp [Json.same]
  | _ => simp [Json.same, Json.number]

theorem dictSame_keys (h : dictSame a b = true) (hkey : key ∈ b.keys) : key ∈ a.keys := by
  obtain ⟨hlength, hall⟩ := of_decide_eq_true h
  have hsubset : a.keys ⊆ b.keys := fun k hk => by
    obtain ⟨e, he, rfl⟩ := List.mem_map.mp hk
    obtain ⟨v, hv, -⟩ := Option.any_eq_true _ _ |>.mp (hall e he)
    exact Dict.mem_keys.mpr ⟨v, hv⟩
  by_contra hnot
  have hmore : (key :: a.keys).length ≤ b.keys.length := by
    refine (List.Nodup.subperm (List.nodup_cons.mpr ⟨hnot, a.nodup⟩) ?_).length_le
    exact List.cons_subset.mpr ⟨hkey, hsubset⟩
  rw [List.length_cons] at hmore
  omega

theorem dictSame_text (h : dictSame a b = true) : textParam a key = textParam b key := by
  obtain ⟨-, hall⟩ := of_decide_eq_true h
  have hforth {v : Json} (hv : a.get key = some v) : ∃ v', b.get key = some v' ∧ v.same v' = true := by
    have hany := hall (key, v) (Dict.get_eq_some.mp hv)
    exact Option.any_eq_true _ _ |>.mp hany
  unfold textParam
  cases ha : a.get key with
  | none =>
    cases hb : b.get key with
    | none => rfl
    | some v =>
      obtain ⟨v', hv'⟩ := Dict.mem_keys.mp (dictSame_keys h (Dict.mem_keys.mpr ⟨v, hb⟩))
      rw [ha] at hv'
      cases hv'
  | some v =>
    obtain ⟨v', hb, hsame⟩ := hforth ha
    rw [hb]
    cases v with
    | str text =>
      rw [same_str.mp hsame]
    | _ =>
      cases v' with
      | str text =>
        have hcontra := same_str_right.mp hsame
        cases hcontra
      | _ => rfl

theorem providerRequest_same (action : StreamAction) (h : dictSame a b = true) :
    providerRequest action a = providerRequest action b := by
  unfold providerRequest
  cases action <;> simp only [dictSame_text h]

end Same

/-! ## What each function does -/

section Functions

variable {r r' : StreamRuntime} {casefold : String → String} {requestId : String} {now : ℚ}

theorem mem_of_lookup {β : Type} {key : String} {v : β} {entries : List (String × β)}
    (h : entries.lookup key = some v) : (key, v) ∈ entries := by
  induction entries with
  | nil => cases h
  | cons e rest ih =>
    obtain ⟨k, w⟩ := e
    rw [Json.lookup_cons_if] at h
    split at h
    · rename_i hk
      obtain rfl := Option.some.inj h
      rw [hk]
      exact List.mem_cons_self
    · exact List.mem_cons_of_mem _ (ih h)

theorem mem_popTicket {e : String × Ticket} :
    e ∈ (r.popTicket requestId).previews ↔ e ∈ r.previews ∧ e.1 ≠ requestId := by
  rw [StreamRuntime.popTicket, List.mem_filter, decide_eq_true_eq]

theorem record_spec (entry : AuditEntry) (required disk : Bool) :
    (r.record entry required disk).2.previews = r.previews ∧
      ((r.record entry required disk).1 = none → required = true → r.file.isSome = true →
        (r.record entry required disk).2.file.any (fun file => entry ∈ file) = true) := by
  have hpush : entry ∈ pushEntry r.actions entry := by
    have hlast : (r.actions ++ [entry]).drop r.actions.length = [entry] := by simp
    have hle : (r.actions ++ [entry]).length - maxPersistedActions ≤ r.actions.length := by
      rw [List.length_append, List.length_singleton, maxPersistedActions]
      omega
    have hmem : entry ∈ (r.actions ++ [entry]).drop r.actions.length := by
      rw [hlast]
      exact List.mem_singleton_self entry
    exact (List.drop_subset_drop_left _ hle) hmem
  unfold StreamRuntime.record
  split
  · exact ⟨rfl, fun h => by cases h⟩
  · dsimp only
    split
    · rename_i hfile
      exact ⟨rfl, fun _ _ hsome => by rw [hfile] at hsome; cases hsome⟩
    · split
      · refine ⟨rfl, fun _ _ _ => ?_⟩
        rw [Option.any_some]
        exact decide_eq_true hpush
      · split
        · exact ⟨rfl, fun h => by cases h⟩
        · rename_i hnot
          exact ⟨rfl, fun _ hrequired => absurd hrequired hnot⟩

theorem preview_spec {action : StreamAction} {params : Dict String Json}
    (h : r.preview casefold requestId action params now = .ok r') :
    ∀ e ∈ r'.previews, e ∈ r.previews ∨
      e = (requestId, { action, params, expiresAt := now + previewTtlSeconds }) := by
  unfold StreamRuntime.preview at h
  obtain ⟨-, -, h⟩ := Fallible.bind_ok.mp h
  obtain ⟨-, -, h⟩ := Fallible.bind_ok.mp h
  obtain rfl := Except.ok.inj h
  intro e he
  obtain hold | hnew := List.mem_append.mp he
  · refine Or.inl ?_
    split at hold
    · exact List.mem_of_mem_filter (List.mem_of_mem_tail hold)
    · exact List.mem_of_mem_filter hold
  · exact Or.inr (List.mem_singleton.mp hnew)

theorem look_spec (request : ExecuteRequest) :
    (∀ action, (r.look request now).1 = .ok action → request.confirmed = .bool true) ∧
      ∀ e ∈ (r.look request now).2.previews, e ∈ r.previews := by
  have hkeep : ∀ e ∈ r.previews, e ∈ r.previews := fun _ he => he
  unfold StreamRuntime.look
  split
  · exact ⟨fun _ h => (by cases h), hkeep⟩
  · split
    · exact ⟨fun _ h => (by cases h), hkeep⟩
    · split
      · exact ⟨fun _ h => (by cases h), hkeep⟩
      · rename_i hconfirmed
        have hconfirmed' : request.confirmed = .bool true := not_not.mp hconfirmed
        split
        · exact ⟨fun _ h => (by cases h), hkeep⟩
        · split
          · refine ⟨fun _ h => (by cases h), fun e he => ?_⟩
            dsimp only at he
            split at he
            · exact (mem_popTicket.mp he).1
            · exact he
          · exact ⟨fun _ _ => hconfirmed', hkeep⟩

theorem claimChecks_ok {request : ExecuteRequest} {action : StreamAction} {ticket : Ticket}
    (h : r.claimChecks casefold request action now = .ok ticket) :
    (request.requestId, ticket) ∈ r.previews ∧ now < ticket.expiresAt ∧
      dictSame ticket.params request.params = true ∧ ticket.action = action ∧
      (action = .chatSend → r.revoked = false) ∧ r.humanTakeover = false := by
  unfold StreamRuntime.claimChecks at h
  split at h
  · cases h
  · rename_i found hfound
    obtain ⟨_, halive, h⟩ := Fallible.bind_ok.mp h
    obtain ⟨_, hparams, h⟩ := Fallible.bind_ok.mp h
    obtain ⟨_, haction, h⟩ := Fallible.bind_ok.mp h
    obtain ⟨_, hrevoked, h⟩ := Fallible.bind_ok.mp h
    obtain ⟨_, htakeover, h⟩ := Fallible.bind_ok.mp h
    obtain ⟨_, -, h⟩ := Fallible.bind_ok.mp h
    obtain rfl := Except.ok.inj h
    exact ⟨mem_of_lookup hfound, Fallible.require_ok.mp halive, Fallible.require_ok.mp hparams,
      Fallible.require_ok.mp haction, Fallible.require_ok.mp hrevoked, Fallible.require_ok.mp htakeover⟩

theorem claim_error {request : ExecuteRequest} {action : StreamAction} {stamp : Stamp} {disk : Bool}
    {e : Raised} (h : r.claim casefold request action now stamp disk = (.error e, r')) :
    ∀ t ∈ r'.previews, t ∈ r.previews := by
  unfold StreamRuntime.claim at h
  split at h
  · obtain ⟨-, rfl⟩ := Prod.mk.inj h
    intro t ht
    split at ht
    · exact (mem_popTicket.mp ht).1
    · exact ht
  · dsimp only at h
    have hspec := (record_spec (r := r.popTicket request.requestId)
      (auditEntry action request.requestId stamp .sending none none none) action.external disk).1
    split at h
    · rename_i after hrecord
      obtain ⟨-, rfl⟩ := Prod.mk.inj h
      rw [hrecord] at hspec
      intro t ht
      rw [hspec] at ht
      exact (mem_popTicket.mp ht).1
    · cases h

theorem claim_ok {request : ExecuteRequest} {action : StreamAction} {stamp : Stamp} {disk : Bool}
    {ticket : Ticket} (h : r.claim casefold request action now stamp disk = (.ok ticket, r')) :
    ((request.requestId, ticket) ∈ r.previews ∧ now < ticket.expiresAt ∧
      dictSame ticket.params request.params = true ∧ ticket.action = action ∧
      (action = .chatSend → r.revoked = false) ∧ r.humanTakeover = false) ∧
      (∀ t ∈ r'.previews, t ∈ r.previews ∧ t.1 ≠ request.requestId) ∧
      (action.external = true → r.file.isSome = true → r'.file.any (fun file =>
        auditEntry action request.requestId stamp .sending none none none ∈ file) = true) := by
  unfold StreamRuntime.claim at h
  split at h
  · cases h
  · rename_i found hchecks
    dsimp only at h
    obtain ⟨hpreviews, hfile⟩ := record_spec (r := r.popTicket request.requestId)
      (auditEntry action request.requestId stamp .sending none none none) action.external disk
    split at h
    · cases h
    · rename_i after hrecord
      obtain ⟨hticket, rfl⟩ := Prod.mk.inj h
      obtain rfl : found = ticket := Except.ok.inj hticket
      rw [hrecord] at hpreviews hfile
      refine ⟨claimChecks_ok hchecks, fun t ht => ?_, fun hexternal hsome => ?_⟩
      · have hsame : (if action = .chatSend then
            { after with chatSendTimes := after.chatSendTimes ++ [now] } else after).previews =
              (r.popTicket request.requestId).previews := by
          split
          · exact hpreviews
          · exact hpreviews
        rw [hsame] at ht
        exact mem_popTicket.mp ht
      · have hwritten := hfile rfl hexternal hsome
        split
        · exact hwritten
        · exact hwritten

theorem conclude_previews (action : StreamAction) (stamp : Stamp) (outcome : Except Raised (Json × String))
    (disk : Bool) : (r.conclude action requestId stamp outcome disk).2.previews = r.previews := by
  have hrecord (r : StreamRuntime) (entry : AuditEntry) (outcome : Except Raised Json) :
      (r.recordOutcome entry disk outcome).2.previews = r.previews := by
    have hspec := (record_spec (r := r) entry false disk).1
    unfold StreamRuntime.recordOutcome
    split
    · rename_i hrecord
      rw [hrecord] at hspec
      exact hspec
    · rename_i hrecord
      rw [hrecord] at hspec
      exact hspec
  unfold StreamRuntime.conclude
  split
  · split
    · rfl
    · exact hrecord _ _ _
  · split
    · exact hrecord _ _ _
    · exact hrecord _ _ _

end Functions

/-! ## What a step keeps -/

def StreamSystem.Free (s : StreamSystem) (id : String) : Prop :=
  ∃ ticket, (id, ticket) ∈ s.runtime.previews

/-- A request has claimed a ticket and has not called its provider. -/
def StreamSystem.Holds (s : StreamSystem) (n : ℕ) (id : String) : Prop :=
  ∃ claim, s.executions.get n = some (.claimed claim) ∧ claim.request.requestId = id

/-- A claim of an issued ticket that honours it and fits it. -/
structure ClaimRecord.Proper (issued : List (String × Ticket)) (c : ClaimRecord) : Prop where
  issued : (c.request.requestId, c.ticket) ∈ issued
  honours : c.Honours c.ticket
  action : c.ticket.action = c.action
  params : dictSame c.ticket.params c.request.params = true

structure StreamSystem.Kept (s : StreamSystem) : Prop where
  tickets : (s.issued.map Prod.fst).Nodup
  custody : Custody s.Free s.Holds (s.crossings.map Crossing.requestId)
  previews : ∀ e ∈ s.runtime.previews, e ∈ s.issued
  looked : ∀ n request action, s.executions.get n = some (.looked request action) →
    request.confirmed = .bool true
  claimed : ∀ n claim, s.executions.get n = some (.claimed claim) → claim.Proper s.issued
  crossings : ∀ c ∈ s.crossings, c.claim.Proper s.issued ∧
    providerRequest c.claim.action c.claim.request.params = some c.request

section Keep

variable {casefold : String → String} {s s' : StreamSystem} {n : ℕ}

theorem ClaimRecord.Proper.mono {issued issued' : List (String × Ticket)} {c : ClaimRecord}
    (h : c.Proper issued) (hsub : ∀ e ∈ issued, e ∈ issued') : c.Proper issued' :=
  ⟨hsub _ h.issued, h.honours, h.action, h.params⟩

theorem start_kept_stream (clock : ℚ) (runtime : StreamRuntime) :
    (StreamSystem.start clock runtime).Kept where
  tickets := List.nodup_nil
  custody := Custody.start fun n id h => by
    obtain ⟨claim, hget, -⟩ := h
    cases hget
  previews _ h := by cases h
  looked _ _ _ h := by cases h
  claimed _ _ h := by cases h
  crossings _ h := by cases h

theorem StreamSystem.Kept.frame (h : s.Kept) (hissued : s'.issued = s.issued)
    (hcrossings : s'.crossings = s.crossings)
    (hpreviews : ∀ e ∈ s'.runtime.previews, e ∈ s.runtime.previews)
    (hexecutions : ∀ n e, s'.executions.get n = some e → s.executions.get n = some e ∨
      (∃ request action, e = .looked request action ∧ request.confirmed = .bool true) ∨
      ∃ claim, e = .called claim) : s'.Kept := by
  have hclaimed : ∀ n claim, s'.executions.get n = some (.claimed claim) →
      s.executions.get n = some (.claimed claim) := fun n claim hget => by
    obtain hold | ⟨request, action, heq, -⟩ | ⟨claim', heq⟩ := hexecutions n _ hget
    · exact hold
    · cases heq
    · cases heq
  refine ⟨by rw [hissued]; exact h.tickets, ?_, fun e he => ?_, fun n request action hget => ?_,
    fun n claim hget => ?_, ?_⟩
  · rw [hcrossings]
    refine h.custody.mono (fun id ⟨ticket, hmem⟩ => ⟨ticket, hpreviews _ hmem⟩) fun n id hholds => ?_
    obtain ⟨claim, hget, hid⟩ := hholds
    exact ⟨claim, hclaimed n claim hget, hid⟩
  · rw [hissued]
    exact h.previews e (hpreviews e he)
  · obtain hold | ⟨request', action', heq, hconfirmed⟩ | ⟨claim', heq⟩ := hexecutions n _ hget
    · exact h.looked n request action hold
    · obtain ⟨rfl, -⟩ := Execution.looked.inj heq
      exact hconfirmed
    · cases heq
  · rw [hissued]
    exact h.claimed n claim (hclaimed n claim hget)
  · rw [hissued, hcrossings]
    exact h.crossings

theorem StreamSystem.Kept.known (h : s.Kept) {id : String} (hnew : id ∉ s.issued.map Prod.fst) :
    (∀ n, ¬ s.Holds n id) ∧ id ∉ s.crossings.map Crossing.requestId := by
  refine ⟨fun n hholds => ?_, fun hmem => ?_⟩
  · obtain ⟨claim, hget, hid⟩ := hholds
    have hissued := (h.claimed n claim hget).issued
    rw [hid] at hissued
    exact hnew (List.mem_map_of_mem (f := Prod.fst) hissued)
  · obtain ⟨c, hc, hid⟩ := List.mem_map.mp hmem
    have hissued := (h.crossings c hc).1.issued
    rw [show c.claim.request.requestId = id from hid] at hissued
    exact hnew (List.mem_map_of_mem (f := Prod.fst) hissued)

theorem StreamSystem.Kept.issue (h : s.Kept) {id : String} {ticket : Ticket} {runtime : StreamRuntime}
    (hnew : id ∉ s.issued.map Prod.fst)
    (hpreviews : ∀ e ∈ runtime.previews, e ∈ s.runtime.previews ∨ e = (id, ticket)) :
    ({ s with runtime, issued := (id, ticket) :: s.issued } : StreamSystem).Kept := by
  obtain ⟨hheld, hused⟩ := h.known hnew
  refine ⟨List.nodup_cons.mpr ⟨hnew, h.tickets⟩, h.custody.issue hheld hused fun j hj => ?_, fun e he => ?_,
    h.looked, fun n claim hget => ?_, fun c hc => ?_⟩
  · obtain ⟨found, hmem⟩ := hj
    obtain hold | heq := hpreviews _ hmem
    · exact Or.inl ⟨found, hold⟩
    · exact Or.inr (Prod.mk.inj heq).1
  · obtain hold | rfl := hpreviews e he
    · exact List.mem_cons_of_mem _ (h.previews e hold)
    · exact List.mem_cons_self
  · exact (h.claimed n claim hget).mono fun _ => List.mem_cons_of_mem _
  · obtain ⟨hproper, hrequest⟩ := h.crossings c hc
    exact ⟨hproper.mono fun _ => List.mem_cons_of_mem _, hrequest⟩

theorem StreamSystem.Kept.claim (h : s.Kept) {request : ExecuteRequest} {action : StreamAction}
    {stamp : Stamp} {disk : Bool} (hget : s.executions.get n = some (.looked request action)) :
    (s.claimStep casefold n request action stamp disk).Kept := by
  unfold StreamSystem.claimStep
  split
  · rename_i e runtime hclaim
    refine h.frame rfl rfl (claim_error hclaim) fun m e' hm => Or.inl ?_
    rw [Dict.get_erase] at hm
    split at hm
    · cases hm
    · exact hm
  · rename_i ticket runtime hclaim
    obtain ⟨⟨hmem, halive, hparams, haction, hrevoked, htakeover⟩, hpreviews, hfile⟩ := claim_ok hclaim
    have hget' (m : ℕ) (e : Execution) (hm : (s.executions.set n (.claimed (s.claimRecord request action
        ticket stamp runtime))).get m = some e) :
        s.executions.get m = some e ∧ m ≠ n ∨
          m = n ∧ e = .claimed (s.claimRecord request action ticket stamp runtime) := by
      rw [Dict.get_set] at hm
      split at hm
      · rename_i heq
        exact Or.inr ⟨heq, (Option.some.inj hm).symm⟩
      · rename_i hne
        exact Or.inl ⟨hm, hne⟩
    refine ⟨h.tickets, h.custody.take (i := request.requestId) (k := n) ⟨ticket, hmem⟩ (fun j hj => ?_)
      fun m j hj => ?_, fun e he => h.previews e (hpreviews e he).1, fun m request' action' hm => ?_,
      fun m claim hm => ?_, h.crossings⟩
    · obtain ⟨found, hfound⟩ := hj
      obtain ⟨hold, hne⟩ := hpreviews _ hfound
      exact ⟨⟨found, hold⟩, hne⟩
    · obtain ⟨claim, hm, hid⟩ := hj
      obtain ⟨hold, -⟩ | ⟨heq, hclaimed⟩ := hget' m _ hm
      · exact Or.inl ⟨claim, hold, hid⟩
      · obtain rfl := Execution.claimed.inj hclaimed
        exact Or.inr ⟨heq, hid.symm⟩
    · obtain ⟨hold, -⟩ | ⟨-, hclaimed⟩ := hget' m _ hm
      · exact h.looked m request' action' hold
      · cases hclaimed
    · obtain ⟨hold, -⟩ | ⟨-, hclaimed⟩ := hget' m _ hm
      · exact h.claimed m claim hold
      · obtain rfl := Execution.claimed.inj hclaimed
        exact ⟨h.previews _ hmem, ⟨h.looked n request action hget, halive, htakeover, hrevoked, hfile⟩,
          haction, hparams⟩

theorem StreamSystem.Kept.cross (h : s.Kept) {claim : ClaimRecord}
    (hget : s.executions.get n = some (.claimed claim)) (hstep : s.crossStep n claim = some s') :
    s'.Kept := by
  obtain ⟨request, hrequest, rfl⟩ := Option.map_eq_some_iff.mp hstep
  have hget' (m : ℕ) (e : Execution) (hm : (s.executions.set n (.called claim)).get m = some e) :
      s.executions.get m = some e ∧ m ≠ n ∨ e = .called claim := by
    rw [Dict.get_set] at hm
    split at hm
    · exact Or.inr (Option.some.inj hm).symm
    · rename_i hne
      exact Or.inl ⟨hm, hne⟩
  refine ⟨h.tickets, h.custody.use (k := n) ⟨claim, hget, rfl⟩ fun m j hj => ?_, h.previews,
    fun m request' action' hm => ?_, fun m claim' hm => ?_, fun c hc => ?_⟩
  · obtain ⟨claim', hm, hid⟩ := hj
    obtain ⟨hold, hne⟩ | heq := hget' m _ hm
    · exact ⟨⟨claim', hold, hid⟩, hne⟩
    · cases heq
  · obtain ⟨hold, -⟩ | heq := hget' m _ hm
    · exact h.looked m request' action' hold
    · cases heq
  · obtain ⟨hold, -⟩ | heq := hget' m _ hm
    · exact h.claimed m claim' hold
    · cases heq
  · obtain rfl | hold := List.mem_cons.mp hc
    · exact ⟨h.claimed n claim hget, hrequest⟩
    · exact h.crossings c hold

theorem StreamSystem.Kept.conclude (h : s.Kept) (claim : ClaimRecord) (result : ProviderResult)
    (stamp : Stamp) (disk : Bool) : (s.concludeStep n claim result stamp disk).Kept := by
  refine h.frame rfl rfl (fun e he => ?_) fun m e hm => Or.inl ?_
  · have hsame : (s.runtime.conclude claim.action claim.request.requestId stamp
        (s.runtime.call claim.action claim.request.params result) disk).2.previews = s.runtime.previews :=
      conclude_previews claim.action stamp _ disk
    rw [← hsame]
    exact he
  · have hm' : (s.executions.erase n).get m = some e := hm
    rw [Dict.get_erase] at hm'
    split at hm'
    · cases hm'
    · exact hm'

theorem stream_step_kept {l : StreamLabel} (h : s.Kept) (hstep : StreamStep casefold s l s') : s'.Kept := by
  have hsame : ∀ n e, s.executions.get n = some e → s.executions.get n = some e ∨
      (∃ request action, e = .looked request action ∧ request.confirmed = .bool true) ∨
      ∃ claim, e = .called claim := fun n e he => Or.inl he
  cases l with
  | tick now =>
    simp only [StreamStep, StreamSystem.next] at hstep
    split at hstep
    · obtain rfl := Option.some.inj hstep
      exact h.frame rfl rfl (fun _ he => he) hsame
    · cases hstep
  | preview hex action params =>
    simp only [StreamStep, StreamSystem.next] at hstep
    split at hstep
    · cases hstep
    · rename_i hnew
      split at hstep
      · obtain rfl := Option.some.inj hstep
        exact h
      · split at hstep
        · obtain rfl := Option.some.inj hstep
          exact h
        · rename_i runtime hpreview
          obtain rfl := Option.some.inj hstep
          exact h.issue hnew (preview_spec hpreview)
  | execute n request =>
    have hconfirmed (action : StreamAction) (hlook : (s.runtime.look request s.clock).1 = .ok action) :
        request.confirmed = .bool true := (look_spec request).1 action hlook
    have hpreviews : ∀ e ∈ (s.runtime.look request s.clock).2.previews, e ∈ s.runtime.previews :=
      (look_spec request).2
    simp only [StreamStep, StreamSystem.next] at hstep
    split at hstep
    · cases hstep
    · split at hstep
      · rename_i e runtime hlook
        obtain rfl := Option.some.inj hstep
        rw [hlook] at hpreviews
        exact h.frame rfl rfl hpreviews hsame
      · rename_i action runtime hlook
        obtain rfl := Option.some.inj hstep
        rw [hlook] at hpreviews hconfirmed
        refine h.frame rfl rfl hpreviews fun m e hm => ?_
        rw [Dict.get_set] at hm
        split at hm
        · exact Or.inr (Or.inl ⟨request, action, (Option.some.inj hm).symm, hconfirmed action rfl⟩)
        · exact Or.inl hm
  | claim n stamp disk =>
    simp only [StreamStep, StreamSystem.next] at hstep
    split at hstep
    · rename_i request action hget
      obtain rfl := Option.some.inj hstep
      exact h.claim hget
    · cases hstep
  | cross n =>
    simp only [StreamStep, StreamSystem.next] at hstep
    split at hstep
    · rename_i claim hget
      exact h.cross hget hstep
    · cases hstep
  | conclude n result stamp disk =>
    simp only [StreamStep, StreamSystem.next] at hstep
    split at hstep
    · rename_i claim hget
      obtain rfl := Option.some.inj hstep
      exact h.conclude claim result stamp disk
    · rename_i claim hget
      split at hstep
      · obtain rfl := Option.some.inj hstep
        exact h.conclude claim result stamp disk
      · cases hstep
    · cases hstep
  | takeover enabled =>
    obtain rfl := Option.some.inj hstep
    exact h.frame rfl rfl (fun _ he => he) hsame
  | revoke =>
    obtain rfl := Option.some.inj hstep
    exact h.frame rfl rfl (fun _ he => he) hsame
  | resetRevocation =>
    obtain rfl := Option.some.inj hstep
    exact h.frame rfl rfl (fun _ he => he) hsame
  | configure config =>
    obtain rfl := Option.some.inj hstep
    exact h.frame rfl rfl (fun _ he => he) hsame

end Keep

/-! ## Runs -/

/-- In every run, and however requests interleave, each ticket reaches a provider at most once,
with the action and the parameters that were previewed, and from a claim that honours it. -/
theorem stream_tickets {casefold : String → String} {clock : ℚ} {runtime : StreamRuntime}
    {hist : List StreamLabel} {s : StreamSystem}
    (hrun : Run (StreamStep casefold) (StreamSystem.start clock runtime) hist s) : s.Honoured := by
  have hkept : s.Kept := hrun.invariant (start_kept_stream clock runtime)
    fun _ _ _ h hstep => stream_step_kept h hstep
  refine ⟨hkept.custody.once, hkept.tickets, fun c hc => ?_⟩
  obtain ⟨hproper, hrequest⟩ := hkept.crossings c hc
  refine ⟨c.claim.ticket, hproper.issued, hproper.honours, ?_⟩
  rw [hproper.action, providerRequest_same _ hproper.params]
  exact hrequest

/-- A runtime with a scene adapter and an action file. -/
def studio : StreamRuntime where
  previews := []
  humanTakeover := false
  revoked := false
  policy := ⟨true, [], 0, 30⟩
  chatSendTimes := []
  actions := []
  file := some []
  state := "disconnected"
  chatConfigured := true
  obsConfigured := true
  syncConfigured := false
  desired := []
  secret := true

def studioStamp : Stamp := ⟨"1970-01-01T00:00:00+00:00", by decide, by decide⟩

def studioRequest (hex action : String) : ExecuteRequest where
  requestId := StreamSystem.previewId hex
  action
  confirmed := .bool true
  params := Dict.empty

/-- A broadcast is previewed, confirmed and started. -/
def studioRun : List StreamLabel :=
  [.preview "a" "stream.broadcast_start" Dict.empty, .tick 60,
    .execute 0 (studioRequest "a" "stream.broadcast_start"),
    .execute 1 (studioRequest "a" "stream.broadcast_start"), .claim 1 studioStamp true, .cross 1,
    .claim 0 studioStamp true]

theorem stream_tickets_broadcast : ∃ s, Run (StreamStep id) (StreamSystem.start 0 studio) studioRun.reverse s ∧
    s.crossings.map Crossing.requestId = ["stream-preview-a"] ∧ s.Honoured := by
  have hrun : (Run.exec (fun s l => s.next id l) (StreamSystem.start 0 studio) studioRun).map
      (fun s => s.crossings.map Crossing.requestId) = some ["stream-preview-a"] := by
    decide +kernel
  obtain ⟨s, hs, hcrossings⟩ := Option.map_eq_some_iff.mp hrun
  have hsteps : Run (StreamStep id) (StreamSystem.start 0 studio) studioRun.reverse s := Run.of_exec hs
  exact ⟨s, hsteps, hcrossings, stream_tickets hsteps⟩

/-- A claimed broadcast is overtaken by the operator, by Twitch and by its time limit before it
reaches the provider. -/
def overtakenRun : List StreamLabel :=
  [.preview "a" "stream.broadcast_start" Dict.empty,
    .execute 0 (studioRequest "a" "stream.broadcast_start"), .claim 0 studioStamp true,
    .takeover true, .revoke, .tick 120, .cross 0]

theorem claimed_is_not_called : ¬ ∀ (casefold : String → String) (clock : ℚ) (runtime : StreamRuntime)
    (hist : List StreamLabel) (s : StreamSystem),
    Run (StreamStep casefold) (StreamSystem.start clock runtime) hist s → s.Ideal := by
  intro hall
  have hrun : (Run.exec (fun s l => s.next id l) (StreamSystem.start 0 studio) overtakenRun).map
      (fun s => s.crossings.map fun c => (c.time, c.takeover, c.revoked)) = some [(120, true, true)] := by
    decide +kernel
  obtain ⟨s, hs, hcrossings⟩ := Option.map_eq_some_iff.mp hrun
  have hideal := hall id 0 studio _ s (Run.of_exec hs)
  obtain ⟨c, rest, hsplit⟩ : ∃ c rest, s.crossings = c :: rest := by
    cases hlist : s.crossings with
    | nil =>
      rw [hlist] at hcrossings
      cases hcrossings
    | cons c rest => exact ⟨c, rest, rfl⟩
  obtain ⟨ticket, -, -, -, htakeover, -⟩ := hideal.each c (by rw [hsplit]; exact List.mem_cons_self)
  rw [hsplit] at hcrossings
  obtain ⟨hc, -⟩ := List.cons.inj hcrossings
  obtain ⟨-, hflags⟩ := Prod.mk.inj hc
  rw [htakeover] at hflags
  cases hflags

end Streaming
