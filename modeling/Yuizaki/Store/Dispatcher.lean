import Mathlib.Logic.Function.Basic
import Yuizaki.Lib.Run
import Yuizaki.Store.Outbox

/- Dispatchers over one outbox (`TurnOutboxDispatcher` in
   `modules/agent/turn_outbox.py`), and the order in which events settle.

   A dispatcher runs one dispatch at a time: it claims the oldest pending event,
   reads which projections are acknowledged, runs the others one by one, records
   an acknowledgement after each, and acknowledges the event. A projection that
   raises, or an acknowledgement that is refused, fails the event. A dispatch may
   also look an event up by its key and acknowledge it without an owner when all
   projections are. Every store call is one step of `dispatcherStep`; between any
   two of them other dispatchers, new commits and crashes (`crash`: the process
   dies or the call unwinds) may come, and each call reads its own clock.

   `outbox_in_order`: the settled events are always a prefix of the id order, and a
   projection is started only for an event below which everything is settled. -/
namespace TurnStore

open Transition

/-! ## The dispatcher -/

/-- What every dispatcher of a deployment shares: the registered projections
(`TurnProjection` refuses a blank name, the dispatcher a name twice) and
`max(1, int(max_attempts))`. -/
structure OutboxConfig where
  projections : List String
  namesUnique : projections.Nodup
  namesPresent : ∀ name ∈ projections, PyStr.strip name ≠ ""
  maxAttempts : ℕ
  maxAttempts_pos : 1 ≤ maxAttempts

/-- One `TurnOutboxDispatcher`. -/
structure Dispatcher where
  workerId : String
  claimLeaseSeconds : ℚ
  baseRetrySeconds : ℚ
  maxRetrySeconds : ℚ

/-- The delay `_record_projection_failure` asks for; `jitter` is its random factor. -/
def Dispatcher.retryDelay (d : Dispatcher) (event : ClaimedEvent) (jitter : ℚ) : ℚ :=
  min d.maxRetrySeconds (d.baseRetrySeconds * 2 ^ (min event.attemptCount 16)) * jitter

/-- Where a dispatch stands. `acked` is its local copy of the acknowledged
projections, `rest` the projections it has not come to. -/
inductive Phase where
  | idle
  | claimed (event : ClaimedEvent)
  | delivering (event : ClaimedEvent) (acked : Finset String) (rest : List String)
  | invoking (event : ClaimedEvent) (acked : Finset String) (name : String) (rest : List String)
  | returned (event : ClaimedEvent) (acked : Finset String) (name : String) (rest : List String)
  | failing (event : ClaimedEvent)
  | recovering (eventId : ℕ) (reread : Bool)
  | confirming (eventId : ℕ)

/-- The event a dispatch may still write about. -/
def Phase.inFlight : Phase → Option ℕ
  | .idle => none
  | .claimed event => some event.eventId
  | .delivering event _ _ => some event.eventId
  | .invoking event _ _ _ => some event.eventId
  | .returned event _ _ _ => some event.eventId
  | .failing event => some event.eventId
  | .recovering _ _ => none
  | .confirming eventId => some eventId

inductive DispatcherAction where
  | claim (processEpoch : String) (now : ℚ)
  | readAcknowledged
  | skip
  | start
  | return (ok : Bool)
  | acknowledgeProjection (now : ℚ)
  | fail (now : ℚ) (error : String) (jitter : ℚ)
  | acknowledge (now : ℚ)
  | renew (eventId : ℕ) (now : ℚ)
  | lookup (idempotencyKey : String)
  | readRecovered
  | confirm (now : ℚ)
  | crash

/-- What an action does to the store and to its dispatch; `none` where the dispatch
is not at that point. -/
def dispatcherStep (cfg : OutboxConfig) (d : Dispatcher) (s : Store) (phase : Phase)
    (action : DispatcherAction) : Option (Store × Phase) :=
  match action, phase with
  | .claim processEpoch now, .idle =>
    match claimNextOutbox s processEpoch now d.workerId d.claimLeaseSeconds with
    | (s', .claimed event) => some (s', .claimed event)
    | (s', _) => some (s', .idle)
  | .readAcknowledged, .claimed event =>
    some (s, .delivering event (acknowledgedProjections s event.eventId) cfg.projections)
  | .skip, .delivering event acked (name :: rest) =>
    if name ∈ acked then some (s, .delivering event acked rest) else none
  | .start, .delivering event acked (name :: rest) =>
    if name ∈ acked then none else some (s, .invoking event acked name rest)
  | .return ok, .invoking event acked name rest =>
    -- an exception, or a claim found lost after the projection, fails the event
    if ok then some (s, .returned event acked name rest) else some (s, .failing event)
  | .acknowledgeProjection now, .returned event acked name rest =>
    match acknowledgeProjection s now event.eventId name (some d.workerId) with
    | (s', true) => some (s', .delivering event (insert name acked) rest)
    | (s', false) => some (s', .failing event)
  | .fail now error jitter, .failing event =>
    let failed := failOutbox s now event.eventId d.workerId error (d.retryDelay event jitter)
      cfg.maxAttempts
    some (failed.1, .idle)
  | .acknowledge now, .delivering event acked [] =>
    if ∀ name ∈ cfg.projections, name ∈ acked then
      some ((acknowledge s now event.eventId (some d.workerId)).1, .idle)
    else some (s, .idle)
  | .renew eventId now, phase =>
    -- the renewal task runs beside the dispatch and may outlive it
    some ((renewOutboxClaim s now eventId d.workerId d.claimLeaseSeconds).1, phase)
  | .lookup idempotencyKey, .idle =>
    match findOutboxByIdempotencyKey s idempotencyKey with
    | some event =>
      if event.deadLetteredAt = none ∧ event.deliveredAt = none then
        some (s, .recovering event.eventId false)
      else some (s, .idle)
    | none => some (s, .idle)
  | .readRecovered, .recovering eventId reread =>
    -- an empty first reading is read once more
    if acknowledgedProjections s eventId = ∅ ∧ reread = false then
      some (s, .recovering eventId true)
    else if ∀ name ∈ cfg.projections, name ∈ acknowledgedProjections s eventId then
      some (s, .confirming eventId)
    else some (s, .idle)
  | .confirm now, .confirming eventId => some ((acknowledge s now eventId none).1, .idle)
  | .crash, _ => some (s, .idle)
  | _, _ => none

/-! ## The system -/

structure OutboxSystem (δ : Type) where
  store : Store
  phase : δ → Phase

/-- A fresh database and idle dispatchers. -/
def OutboxSystem.initial (δ : Type) : OutboxSystem δ where
  store := Store.empty
  phase := fun _ => .idle

/-- A new commit, or an action of a dispatcher. -/
inductive OutboxLabel (δ : Type) where
  | persist (processEpoch : String) (now : ℚ) (c : TurnCommit)
  | dispatcher (d : δ) (action : DispatcherAction)

section System

variable {δ : Type} [DecidableEq δ] (cfg : OutboxConfig) (dispatchers : δ → Dispatcher)

def OutboxStep (sys : OutboxSystem δ) : OutboxLabel δ → OutboxSystem δ → Prop
  | .persist processEpoch now c, sys' =>
    ∃ s', persist sys.store processEpoch now c = .ok s' ∧ sys' = { sys with store := s' }
  | .dispatcher d action, sys' =>
    ∃ s' phase', dispatcherStep cfg (dispatchers d) sys.store (sys.phase d) action =
        some (s', phase') ∧
      sys' = { store := s', phase := Function.update sys.phase d phase' }

end System

/-! ## Settled events -/

/-- Every event with a smaller id is delivered or dead-lettered. -/
def SettledBelow (s : Store) (eventId : ℕ) : Prop :=
  ∀ x ∈ s.turnOutbox.entries, x.id < eventId → x.row.pending = false

/-- What a step may do to the outbox: entries that are settled stay settled, new
entries are above the old ones. -/
structure Advances (s s' : Store) : Prop where
  nextId : s.turnOutbox.nextId ≤ s'.turnOutbox.nextId
  entries : ∀ x' ∈ s'.turnOutbox.entries,
    (∃ x ∈ s.turnOutbox.entries, x.id = x'.id ∧
      (x.row.pending = false → x'.row.pending = false)) ∨
    s.turnOutbox.nextId ≤ x'.id

theorem Advances.refl (s : Store) : Advances s s where
  nextId := Nat.le_refl _
  entries := fun x' hx' => Or.inl ⟨x', hx', rfl, id⟩

theorem Advances.settledBelow {s s' : Store} (h : Advances s s') {eventId : ℕ}
    (hlt : eventId < s.turnOutbox.nextId) (hs : SettledBelow s eventId) :
    SettledBelow s' eventId := by
  intro x' hx' hid
  rcases h.entries x' hx' with ⟨x, hx, hxid, hkeep⟩ | hnew
  · have hlt' : x.id < eventId := by omega
    exact hkeep (hs x hx hlt')
  · omega

theorem advances_modify {s : Store} {eventId : ℕ} {f : OutboxRow → OutboxRow}
    (hf : ∀ x ∈ s.turnOutbox.entries, x.id = eventId → x.row.pending = false →
      (f x.row).pending = false) : Advances s (s.modifyEvent eventId f) where
  nextId := Nat.le_refl _
  entries := by
    intro x' hx'
    obtain ⟨x, hx, rfl⟩ := Store.mem_modifyEvent.mp hx'
    refine Or.inl ⟨x, hx, (Journal.Entry.modify_id _ _ _).symm, ?_⟩
    intro hp
    rw [Journal.Entry.modify_row]
    split
    · rename_i hid
      exact hf x hx hid hp
    · exact hp

theorem pending_claimFor (row : OutboxRow) (owner : String) (t : ℚ) :
    (row.claimFor owner t).pending = row.pending := rfl

theorem pending_renewed (row : OutboxRow) (t : ℚ) : (row.renewed t).pending = row.pending := rfl

theorem pending_deliver (row : OutboxRow) (now : ℚ) (dropClaim : Bool) :
    (row.deliver now dropClaim).pending = false := by
  simp [OutboxRow.pending, (row.deliver_fields now dropClaim).1]

/-! ## What one action can do -/

/-- The moves of a dispatch, with what the store calls found. `abandon` is every way
back to idle that leaves the store alone. -/
inductive DispatcherMove (cfg : OutboxConfig) (d : Dispatcher) (s : Store) :
    Phase → Store → Phase → Prop
  | abandon {phase : Phase} : DispatcherMove cfg d s phase s .idle
  | claimed {x : Journal.Entry String OutboxRow} {event : ClaimedEvent} {expiresAt : ℚ} :
      x ∈ s.turnOutbox.entries → SettledBelow s x.id → event.eventId = x.id →
      DispatcherMove cfg d s .idle
        (s.modifyEvent x.id (fun row => row.claimFor d.workerId expiresAt)) (.claimed event)
  | read {event : ClaimedEvent} :
      DispatcherMove cfg d s (.claimed event) s
        (.delivering event (acknowledgedProjections s event.eventId) cfg.projections)
  | skip {event : ClaimedEvent} {acked : Finset String} {name : String} {rest : List String} :
      DispatcherMove cfg d s (.delivering event acked (name :: rest)) s
        (.delivering event acked rest)
  | start {event : ClaimedEvent} {acked : Finset String} {name : String} {rest : List String} :
      name ∉ acked →
      DispatcherMove cfg d s (.delivering event acked (name :: rest)) s
        (.invoking event acked name rest)
  | returned {event : ClaimedEvent} {acked : Finset String} {name : String}
      {rest : List String} :
      DispatcherMove cfg d s (.invoking event acked name rest) s
        (.returned event acked name rest)
  | raised {event : ClaimedEvent} {acked : Finset String} {name : String} {rest : List String} :
      DispatcherMove cfg d s (.invoking event acked name rest) s (.failing event)
  | acknowledged {event : ClaimedEvent} {acked : Finset String} {name : String}
      {rest : List String} :
      Holds s d.workerId event.eventId →
      DispatcherMove cfg d s (.returned event acked name rest)
        { s with projectionAcks := insert (event.eventId, name) s.projectionAcks }
        (.delivering event (insert name acked) rest)
  | refused {event : ClaimedEvent} {acked : Finset String} {name : String}
      {rest : List String} :
      DispatcherMove cfg d s (.returned event acked name rest) s (.failing event)
  | failed {event : ClaimedEvent} {now delay : ℚ} {error : String} :
      Holds s d.workerId event.eventId →
      DispatcherMove cfg d s (.failing event)
        (s.modifyEvent event.eventId (fun row => row.failed now error delay cfg.maxAttempts))
        .idle
  | delivered {event : ClaimedEvent} {acked : Finset String} {now : ℚ} {dropClaim : Bool} :
      (∀ name ∈ cfg.projections, name ∈ acked) →
      DispatcherMove cfg d s (.delivering event acked [])
        (s.modifyEvent event.eventId (fun row => row.deliver now dropClaim)) .idle
  | renewed {phase : Phase} {eventId : ℕ} {expiresAt : ℚ} :
      DispatcherMove cfg d s phase
        (s.modifyEvent eventId (fun row => row.renewed expiresAt)) phase
  | unrenewed {phase : Phase} : DispatcherMove cfg d s phase s phase
  | recover {eventId : ℕ} {reread : Bool} {phase : Phase} :
      DispatcherMove cfg d s phase s (.recovering eventId reread)
  | confirm {eventId : ℕ} {reread : Bool} :
      (∀ name ∈ cfg.projections, (eventId, name) ∈ s.projectionAcks) →
      DispatcherMove cfg d s (.recovering eventId reread) s (.confirming eventId)
  | confirmed {eventId : ℕ} {now : ℚ} {dropClaim : Bool} :
      DispatcherMove cfg d s (.confirming eventId)
        (s.modifyEvent eventId (fun row => row.deliver now dropClaim)) .idle

theorem dispatcherStep_move {cfg : OutboxConfig} {d : Dispatcher} {s s' : Store}
    {phase phase' : Phase} {action : DispatcherAction}
    (h : dispatcherStep cfg d s phase action = some (s', phase')) :
    DispatcherMove cfg d s phase s' phase' := by
  unfold dispatcherStep at h
  split at h
  · -- claim
    split at h
    · rename_i s₁ event hc
      cases h
      rcases claimNextOutbox_cases hc with ⟨-, hno⟩ | ⟨x, hx, ev, -, hbelow, hev, hid, -, rfl⟩
      · exact absurd rfl (hno event)
      · cases hev
        exact .claimed hx hbelow hid
    · rename_i s₁ out hout hc
      cases h
      rcases claimNextOutbox_cases hc with ⟨rfl, -⟩ | ⟨x, hx, ev, -, -, hev, -⟩
      · exact .abandon
      · exact absurd hev (hout ev)
  · -- readAcknowledged
    cases h
    exact .read
  · -- skip
    split at h
    · cases h
      exact .skip
    · cases h
  · -- start
    split at h
    · cases h
    · rename_i hname
      cases h
      exact .start hname
  · -- return
    split at h
    · cases h
      exact .returned
    · cases h
      exact .raised
  · -- acknowledgeProjection
    split at h
    · rename_i hc
      cases h
      rcases acknowledgeProjection_cases hc with ⟨-, hf⟩ | ⟨hheld, -, rfl⟩
      · cases hf
      · exact .acknowledged hheld
    · rename_i hc
      cases h
      rcases acknowledgeProjection_cases hc with ⟨rfl, -⟩ | ⟨-, hf, -⟩
      · exact .refused
      · cases hf
  · -- fail
    cases h
    rcases failOutbox_cases Prod.mk.eta.symm with heq | ⟨x, hx, hid, hclaim, hp, heq⟩
    · rw [heq]
      exact .abandon
    · rw [heq]
      exact .failed ⟨x, hx, hid, hclaim, hp⟩
  · -- acknowledge
    split at h
    · rename_i hall
      cases h
      rcases acknowledge_cases Prod.mk.eta.symm with heq | ⟨dropClaim, heq⟩
      · rw [heq]
        exact .abandon
      · rw [heq]
        exact .delivered hall
    · cases h
      exact .abandon
  · -- renew
    cases h
    rcases renewOutboxClaim_cases Prod.mk.eta.symm with heq | heq
    · rw [heq]
      exact .unrenewed
    · rw [heq]
      exact .renewed
  · -- lookup
    split at h
    · split at h
      · cases h
        exact .recover
      · cases h
        exact .abandon
    · cases h
      exact .abandon
  · -- readRecovered
    split at h
    · cases h
      exact .recover
    · split at h
      · rename_i hall
        cases h
        exact .confirm (fun name hname => mem_acknowledgedProjections.mp (hall name hname))
      · cases h
        exact .abandon
  · -- confirm
    cases h
    rcases acknowledge_cases Prod.mk.eta.symm with heq | ⟨dropClaim, heq⟩
    · rw [heq]
      exact .abandon
    · rw [heq]
      exact .confirmed
  · -- crash
    cases h
    exact .abandon
  · cases h

/-! ## What a move does to the order -/

/-- The parts of a step the order depends on. -/
structure OrderEffect (cfg : OutboxConfig) (s s' : Store) (phase phase' : Phase) : Prop where
  advances : Advances s s'
  settles : ∀ x' ∈ s'.turnOutbox.entries, x'.row.pending = false →
    (∃ x ∈ s.turnOutbox.entries, x.id = x'.id ∧ x.row.pending = false) ∨
    phase.inFlight = some x'.id
  acks : ∀ a ∈ s'.projectionAcks, a ∈ s.projectionAcks ∨ phase.inFlight = some a.1
  flight : ∀ e, phase'.inFlight = some e →
    phase.inFlight = some e ∨ (SettledBelow s e ∧ e < s.turnOutbox.nextId) ∨
    ∀ name ∈ cfg.projections, (e, name) ∈ s.projectionAcks

section Effect

variable {cfg : OutboxConfig} {s s' : Store} {phase phase' : Phase}

theorem OrderEffect.same (hflight : ∀ e, phase'.inFlight = some e →
      phase.inFlight = some e ∨ (SettledBelow s e ∧ e < s.turnOutbox.nextId) ∨
      ∀ name ∈ cfg.projections, (e, name) ∈ s.projectionAcks) :
    OrderEffect cfg s s phase phase' where
  advances := Advances.refl s
  settles := fun x' hx' hp => Or.inl ⟨x', hx', rfl, hp⟩
  acks := fun _ ha => Or.inl ha
  flight := hflight

theorem OrderEffect.modify {eventId : ℕ} {f : OutboxRow → OutboxRow}
    (hkeep : ∀ x ∈ s.turnOutbox.entries, x.id = eventId → x.row.pending = false →
      (f x.row).pending = false)
    (hsettle : phase.inFlight = some eventId ∨
      ∀ x ∈ s.turnOutbox.entries, x.id = eventId → (f x.row).pending = x.row.pending)
    (hflight : ∀ e, phase'.inFlight = some e →
      phase.inFlight = some e ∨ (SettledBelow s e ∧ e < s.turnOutbox.nextId) ∨
      ∀ name ∈ cfg.projections, (e, name) ∈ s.projectionAcks) :
    OrderEffect cfg s (s.modifyEvent eventId f) phase phase' where
  advances := advances_modify hkeep
  settles := by
    intro x' hx' hp
    obtain ⟨x, hx, rfl⟩ := Store.mem_modifyEvent.mp hx'
    rw [Journal.Entry.modify_row] at hp
    rw [Journal.Entry.modify_id]
    split at hp
    · rename_i hid
      rcases hsettle with hin | hsame
      · exact Or.inr (hid ▸ hin)
      · exact Or.inl ⟨x, hx, rfl, (hsame x hx hid) ▸ hp⟩
    · exact Or.inl ⟨x, hx, rfl, hp⟩
  acks := fun _ ha => Or.inl ha
  flight := hflight

end Effect

theorem DispatcherMove.order {cfg : OutboxConfig} {d : Dispatcher} {s s' : Store}
    {phase phase' : Phase} (h : DispatcherMove cfg d s phase s' phase') :
    OrderEffect cfg s s' phase phase' := by
  cases h with
  | abandon => exact OrderEffect.same (by intro e he; cases he)
  | @claimed x event expiresAt hx hbelow hid =>
    apply OrderEffect.modify
    · intro y _ _ hy
      rw [pending_claimFor]
      exact hy
    · right
      intro y _ _
      exact pending_claimFor _ _ _
    · intro e he
      right; left
      have hxe : e = x.id := (Option.some.inj he).symm.trans hid
      rw [hxe]
      exact ⟨hbelow, s.turnOutbox.below x hx⟩
  | read => exact OrderEffect.same (fun e he => Or.inl he)
  | skip => exact OrderEffect.same (fun e he => Or.inl he)
  | start => exact OrderEffect.same (fun e he => Or.inl he)
  | returned => exact OrderEffect.same (fun e he => Or.inl he)
  | raised => exact OrderEffect.same (fun e he => Or.inl he)
  | refused => exact OrderEffect.same (fun e he => Or.inl he)
  | unrenewed => exact OrderEffect.same (fun e he => Or.inl he)
  | recover => exact OrderEffect.same (by intro e he; cases he)
  | @acknowledged event acked name rest hheld =>
    refine ⟨⟨Nat.le_refl _, fun x' hx' => Or.inl ⟨x', hx', rfl, id⟩⟩,
      fun x' hx' hp => Or.inl ⟨x', hx', rfl, hp⟩, ?_, fun e he => Or.inl he⟩
    intro a ha
    rcases Finset.mem_insert.mp ha with rfl | ha
    · exact Or.inr rfl
    · exact Or.inl ha
  | failed hheld =>
    obtain ⟨x, hx, hid, -, hp⟩ := hheld
    apply OrderEffect.modify
    · -- the one row of the event is pending
      intro y hy hyid hyp
      rw [Journal.eq_of_id hy hx (hyid.trans hid.symm), hp] at hyp
      cases hyp
    · exact Or.inl rfl
    · intro e he
      cases he
  | delivered =>
    apply OrderEffect.modify
    · intro y _ _ _
      exact pending_deliver _ _ _
    · exact Or.inl rfl
    · intro e he
      cases he
  | renewed =>
    apply OrderEffect.modify
    · intro y _ _ hy
      rw [pending_renewed]
      exact hy
    · right
      intro y _ _
      exact pending_renewed _ _
    · exact fun e he => Or.inl he
  | confirm hall =>
    apply OrderEffect.same
    intro e he
    cases he
    exact Or.inr (Or.inr hall)
  | confirmed =>
    apply OrderEffect.modify
    · intro y _ _ _
      exact pending_deliver _ _ _
    · exact Or.inl rfl
    · intro e he
      cases he

theorem dispatcherStep_start {cfg : OutboxConfig} {d : Dispatcher} {s s' : Store}
    {phase phase' : Phase} (h : dispatcherStep cfg d s phase .start = some (s', phase')) :
    ∃ event acked name rest, phase = .delivering event acked (name :: rest) ∧
      name ∉ acked ∧ phase' = .invoking event acked name rest := by
  cases phase with
  | delivering event acked rest =>
    cases rest with
    | nil => cases h
    | cons name rest =>
      simp only [dispatcherStep] at h
      split at h
      · cases h
      · rename_i hname
        cases h
        exact ⟨event, acked, name, rest, rfl, hname, rfl⟩
  | idle | claimed | invoking | returned | failing | recovering | confirming => cases h

/-! ## The order over a run -/

/-- Settled events, acknowledgements and dispatches only lie where everything
below is settled. -/
structure OrderInv {δ : Type} (sys : OutboxSystem δ) : Prop where
  settled : ∀ x ∈ sys.store.turnOutbox.entries, x.row.pending = false →
    SettledBelow sys.store x.id
  acks : ∀ a ∈ sys.store.projectionAcks,
    SettledBelow sys.store a.1 ∧ a.1 < sys.store.turnOutbox.nextId
  flight : ∀ d e, (sys.phase d).inFlight = some e →
    SettledBelow sys.store e ∧ e < sys.store.turnOutbox.nextId

section Order

variable {δ : Type} [DecidableEq δ] {cfg : OutboxConfig} {dispatchers : δ → Dispatcher}
  {sys sys' : OutboxSystem δ}

omit [DecidableEq δ] in
theorem initial_order : OrderInv (OutboxSystem.initial δ) where
  settled := by
    intro x hx
    exact absurd hx Journal.mem_empty
  acks := by
    intro a ha
    exact absurd ha (Finset.notMem_empty a)
  flight := by
    intro d e he
    cases he

theorem persist_outbox {s s' : Store} {epoch : String} {now : ℚ} {c : TurnCommit}
    (h : persist s epoch now c = .ok s') :
    s'.projectionAcks = s.projectionAcks ∧ s.turnOutbox.nextId ≤ s'.turnOutbox.nextId ∧
    ∀ x ∈ s'.turnOutbox.entries, x ∈ s.turnOutbox.entries ∨
      (x.id = s.turnOutbox.nextId ∧ x.row = outboxRow epoch now c) := by
  unfold persist at h
  simp only at h
  split at h
  · cases h
  · split at h
    · cases h
    · cases h
      refine ⟨rfl, ?_, ?_⟩
      · show s.turnOutbox.nextId ≤ (s.turnOutbox.insertOrIgnore _ _).nextId
        unfold Journal.insertOrIgnore
        split
        · exact Nat.le_succ _
        · exact Nat.le_refl _
      · intro x hx
        rcases Journal.mem_insertOrIgnore.mp hx with hx | ⟨-, rfl⟩
        · exact Or.inl hx
        · exact Or.inr ⟨rfl, rfl⟩

theorem persist_advances {s s' : Store} {epoch : String} {now : ℚ} {c : TurnCommit}
    (h : persist s epoch now c = .ok s') : Advances s s' := by
  obtain ⟨-, hnext, hentries⟩ := persist_outbox h
  refine ⟨hnext, ?_⟩
  intro x' hx'
  rcases hentries x' hx' with hx | ⟨hid, -⟩
  · exact Or.inl ⟨x', hx, rfl, id⟩
  · exact Or.inr (Nat.le_of_eq hid.symm)

omit [DecidableEq δ] in
theorem persist_order {epoch : String} {now : ℚ} {c : TurnCommit} {s' : Store}
    (hinv : OrderInv sys) (h : persist sys.store epoch now c = .ok s') :
    OrderInv { sys with store := s' } := by
  have hadv := persist_advances h
  obtain ⟨hacks, hnext, hentries⟩ := persist_outbox h
  refine ⟨?_, ?_, ?_⟩
  · intro x hx hp
    rcases hentries x hx with hx | ⟨-, hrow⟩
    · exact hadv.settledBelow (sys.store.turnOutbox.below x hx) (hinv.settled x hx hp)
    · -- a new event is pending
      rw [hrow] at hp
      cases hp
  · intro a ha
    have ha' : a ∈ sys.store.projectionAcks := hacks ▸ ha
    obtain ⟨hs, hlt⟩ := hinv.acks a ha'
    exact ⟨hadv.settledBelow hlt hs, Nat.lt_of_lt_of_le hlt hnext⟩
  · intro d e he
    obtain ⟨hs, hlt⟩ := hinv.flight d e he
    exact ⟨hadv.settledBelow hlt hs, Nat.lt_of_lt_of_le hlt hnext⟩

theorem dispatcher_order {d : δ} {s' : Store} {phase' : Phase}
    (hne : cfg.projections ≠ []) (hinv : OrderInv sys)
    (heff : OrderEffect cfg sys.store s' (sys.phase d) phase') :
    OrderInv { store := s', phase := Function.update sys.phase d phase' } := by
  have hkeep : ∀ e, SettledBelow sys.store e ∧ e < sys.store.turnOutbox.nextId →
      SettledBelow s' e ∧ e < s'.turnOutbox.nextId := by
    intro e he
    exact ⟨heff.advances.settledBelow he.2 he.1,
      Nat.lt_of_lt_of_le he.2 heff.advances.nextId⟩
  refine ⟨?_, ?_, ?_⟩
  · intro x hx hp
    rcases heff.settles x hx hp with ⟨y, hy, hid, hyp⟩ | hin
    · have hlt := sys.store.turnOutbox.below y hy
      have hs := hinv.settled y hy hyp
      rw [hid] at hlt hs
      exact (hkeep x.id ⟨hs, hlt⟩).1
    · exact (hkeep x.id (hinv.flight d x.id hin)).1
  · intro a ha
    rcases heff.acks a ha with ha | hin
    · exact hkeep a.1 (hinv.acks a ha)
    · exact hkeep a.1 (hinv.flight d a.1 hin)
  · intro d' e he
    by_cases hd : d' = d
    · subst hd
      simp only [Function.update_self] at he
      rcases heff.flight e he with hin | hnew | hall
      · exact hkeep e (hinv.flight d' e hin)
      · exact hkeep e hnew
      · -- all projections acknowledged, and there is one
        obtain ⟨name, hname⟩ := List.exists_mem_of_ne_nil _ hne
        exact hkeep e (hinv.acks _ (hall name hname))
    · simp only [Function.update_of_ne hd] at he
      exact hkeep e (hinv.flight d' e he)

theorem step_order {l : OutboxLabel δ} (hne : cfg.projections ≠ []) (hinv : OrderInv sys)
    (h : OutboxStep cfg dispatchers sys l sys') : OrderInv sys' := by
  cases l with
  | persist epoch now c =>
    obtain ⟨s', hp, rfl⟩ := h
    exact persist_order hinv hp
  | dispatcher d action =>
    obtain ⟨s', phase', hd, rfl⟩ := h
    exact dispatcher_order hne hinv (dispatcherStep_move hd).order

/-- **Head-of-line order.** With a non-empty projection list, in every reachable
state the settled events are a prefix of the id order, and a projection starts only
for an event below which every event is settled. -/
theorem outbox_in_order {hist : List (OutboxLabel δ)} (hne : cfg.projections ≠ [])
    (hrun : Run (OutboxStep cfg dispatchers) (OutboxSystem.initial δ) hist sys) :
    (∀ x ∈ sys.store.turnOutbox.entries, ∀ y ∈ sys.store.turnOutbox.entries,
      x.id < y.id → y.row.pending = false → x.row.pending = false) ∧
    (∀ d event acked name rest sys',
      OutboxStep cfg dispatchers sys (.dispatcher d .start) sys' →
      sys'.phase d = .invoking event acked name rest →
      ∀ x ∈ sys.store.turnOutbox.entries, x.id < event.eventId → x.row.pending = false) := by
  have hinv : OrderInv sys :=
    hrun.invariant initial_order (fun _ _ _ hI h => step_order hne hI h)
  refine ⟨?_, ?_⟩
  · intro x hx y hy hlt hp
    exact hinv.settled y hy hp x hx hlt
  · intro d event acked name rest sys' hstep hphase x hx hlt
    obtain ⟨s', phase', hd, rfl⟩ := hstep
    simp only [Function.update_self] at hphase
    subst hphase
    -- the event was in flight before the start
    have hin : (sys.phase d).inFlight = some event.eventId := by
      obtain ⟨ev, ack, n, r, hph, -, hto⟩ := dispatcherStep_start hd
      cases hto
      rw [hph]
      rfl
    exact (hinv.flight d _ hin).1 x hx hlt

/-- The actions of one dispatcher in a row. -/
def runDispatcher (cfg : OutboxConfig) (d : Dispatcher) (s : Store) (phase : Phase) :
    List DispatcherAction → Option (Store × Phase)
  | [] => some (s, phase)
  | action :: rest =>
    (dispatcherStep cfg d s phase action).bind (fun r => runDispatcher cfg d r.1 r.2 rest)

theorem persist_run (cfg : OutboxConfig) (dispatchers : δ → Dispatcher) (sys : OutboxSystem δ)
    {epoch : String} {now : ℚ} {c : TurnCommit}
    {s' : Store} (h : (persist sys.store epoch now c).toOption = some s') :
    Run (OutboxStep cfg dispatchers) sys [.persist epoch now c] { sys with store := s' } := by
  have hok : persist sys.store epoch now c = .ok s' := by
    cases hp : persist sys.store epoch now c with
    | error _ =>
      rw [hp] at h
      cases h
    | ok t =>
      rw [hp] at h
      cases h
      rfl
  have hstep : OutboxStep cfg dispatchers sys (.persist epoch now c) { sys with store := s' } :=
    ⟨s', hok, rfl⟩
  exact Run.next Run.start hstep

theorem runDispatcher_run (dispatchers : δ → Dispatcher) (sys : OutboxSystem δ) (d : δ)
    {actions : List DispatcherAction} {r : Store × Phase} (h : runDispatcher cfg (dispatchers d) sys.store (sys.phase d) actions = some r) :
    ∃ hist, Run (OutboxStep cfg dispatchers) sys hist
      { store := r.1, phase := Function.update sys.phase d r.2 } := by
  induction actions generalizing sys with
  | nil =>
    cases h
    refine ⟨[], ?_⟩
    rw [Function.update_eq_self]
    exact Run.start
  | cons action rest ih =>
    obtain ⟨⟨s₁, ph₁⟩, hstep, hrest⟩ := Option.bind_eq_some_iff.mp h
    let mid : OutboxSystem δ := { store := s₁, phase := Function.update sys.phase d ph₁ }
    have hmid : runDispatcher cfg (dispatchers d) mid.store (mid.phase d) rest = some r := by
      simp only [mid, Function.update_self]
      exact hrest
    obtain ⟨hist, hrun⟩ := ih mid hmid
    have hfirst : Run (OutboxStep cfg dispatchers) sys [.dispatcher d action] mid :=
      Run.next Run.start ⟨s₁, ph₁, hstep, rfl⟩
    refine ⟨hist ++ [.dispatcher d action], ?_⟩
    have hall := hfirst.append hrun
    simp only [mid, Function.update_idem] at hall
    exact hall

end Order

/-! Two commits, the first delivered by one dispatcher with one projection. -/

/-- One registered projection, eight attempts. -/
def chatConfig : OutboxConfig where
  projections := ["chat"]
  namesUnique := by decide
  namesPresent := by decide
  maxAttempts := 8
  maxAttempts_pos := by decide

/-- A dispatcher with the default timings. -/
def chatDispatcher (_ : Unit) : Dispatcher where
  workerId := "outbox:1"
  claimLeaseSeconds := 30
  baseRetrySeconds := 1 / 4
  maxRetrySeconds := 30

def queuedStore : Option Store :=
  (persist Store.empty "p" 0 (sampleTurn sampleKey)).toOption.bind (fun s =>
    (persist s "p" 1 (sampleTurn ⟨"turn:2", by decide, by decide⟩)).toOption)

def deliverOnce : List DispatcherAction :=
  [.claim "p" 2, .readAcknowledged, .start, .return true, .acknowledgeProjection 3,
    .acknowledge 4]

theorem queuedStore_run {s : Store} (h : queuedStore = some s) :
    ∃ hist, Run (OutboxStep chatConfig chatDispatcher) (OutboxSystem.initial Unit) hist
      { store := s, phase := fun _ => .idle } := by
  obtain ⟨s₁, h₁, h₂⟩ := Option.bind_eq_some_iff.mp h
  have hrun₁ := persist_run chatConfig chatDispatcher (.initial Unit) h₁
  have hrun₂ := persist_run chatConfig chatDispatcher
    { store := s₁, phase := fun _ : Unit => .idle } h₂
  exact ⟨_, hrun₁.append hrun₂⟩

theorem delivered_run : ∃ hist sys,
    Run (OutboxStep chatConfig chatDispatcher) (OutboxSystem.initial Unit) hist sys ∧
    sys.store.turnOutbox.entries.map (fun x => (x.id, x.row.pending)) =
      [(1, false), (2, true)] := by
  have heval : (queuedStore.bind (fun s =>
      runDispatcher chatConfig (chatDispatcher ()) s .idle deliverOnce)).map
        (fun r => r.1.turnOutbox.entries.map (fun x => (x.id, x.row.pending))) =
      some [(1, false), (2, true)] := by decide +kernel
  obtain ⟨r, hr, hpend⟩ := Option.map_eq_some_iff.mp heval
  obtain ⟨s, hs, hrun⟩ := Option.bind_eq_some_iff.mp hr
  obtain ⟨hist₁, hrun₁⟩ := queuedStore_run hs
  obtain ⟨hist₂, hrun₂⟩ := runDispatcher_run chatDispatcher
    { store := s, phase := fun _ : Unit => .idle } () hrun
  exact ⟨_, _, hrun₁.append hrun₂, hpend⟩

theorem outbox_in_order_delivery : ∃ hist sys,
    Run (OutboxStep chatConfig chatDispatcher) (OutboxSystem.initial Unit) hist sys ∧
    sys.store.turnOutbox.entries.map (fun x => (x.id, x.row.pending)) =
      [(1, false), (2, true)] ∧
    ∀ x ∈ sys.store.turnOutbox.entries, ∀ y ∈ sys.store.turnOutbox.entries,
      x.id < y.id → y.row.pending = false → x.row.pending = false := by
  obtain ⟨hist, sys, hrun, hpend⟩ := delivered_run
  exact ⟨hist, sys, hrun, hpend, (outbox_in_order (by decide) hrun).1⟩

end TurnStore
