import Mathlib.Data.Finset.Basic
import Yuizaki.Lib.Dict
import Yuizaki.Lib.Json
import Yuizaki.Lib.PyStr
import Yuizaki.Lib.Run

/- The presentation event log (`CompanionPresentationEventLog` in
   `modules/agent/companion_events.py`).

   A stream is the list of its accepted events. The reducer accepts revision 1 first and
   then every next revision of the same identity, until a terminal event; a full log makes
   room for a new stream by dropping its oldest terminal one. An append threads the log
   through every branch, so that what a raise leaves behind is what the branch says. -/
namespace Events

open Transition

/-! ## Event names -/

/-- `str.lower` and `str.isalnum` beyond ASCII. -/
structure TextTables where
  lower : String → String
  alnum : Char → Bool

/-- `str.isalnum` of a character. -/
def TextTables.isAlnum (tables : TextTables) (c : Char) : Bool :=
  if c.toNat < 128 then c.isAlphanum else tables.alnum c

def compactEventName (tables : TextTables) (value : String) : String :=
  String.ofList ((PyStr.lower tables.lower value).toList.filter tables.isAlnum)

def presentationTerminalTypes : List String :=
  ["completed", "failed", "cancelled", "interrupted", "agentjobcompleted", "agentjobfailed",
    "agentjobcancelled", "agentjobinterrupted", "agentjobunknowneffect", "terminal",
    "turncompleted", "turnfailed", "turncancelled"]

def highFrequencyEventMarkers : List String :=
  ["token", "tokens", "audio", "audiochunk", "audiobuffer", "frame", "avatarframe", "viseme",
    "speechpartial", "partialtranscript", "streamchunk"]

def lifecycleEventSuffixes : List String :=
  ["started", "completed", "failed", "cancelled", "interrupted"]

def isHighFrequencyEvent (tables : TextTables) (value : String) : Bool :=
  let compact := compactEventName tables value
  if PyStr.endsWithAny compact lifecycleEventSuffixes then false
  else highFrequencyEventMarkers.any (PyStr.contains compact)

/-! ## Events -/

/-- `CompanionPresentationEvent`. -/
structure PresentationEvent where
  streamId : String
  eventType : String
  revision : ℤ
  workspaceId : String := ""
  sessionId : String := ""
  turnId : String := ""
  requestId : Option String := none
  conversationId : Option String := none
  operationId : Option String := none
  runId : Option String := none
  stepIndex : Option ℤ := none
  generationId : Option String := none
  interruptionEpoch : ℤ := 0
  source : String := "agent"
  payload : List (String × Json) := []
  version : ℤ := 1

def PresentationEvent.terminal (tables : TextTables) (event : PresentationEvent) : Bool :=
  let normalized := compactEventName tables event.eventType
  normalized ∈ presentationTerminalTypes ∨
    PyStr.endsWithAny normalized ["completed", "failed", "cancelled", "interrupted"] = true

/-- What `identity` answers. -/
structure StreamIdentity where
  streamId : String
  workspaceId : String
  sessionId : String
  turnId : String
  requestId : Option String
  conversationId : Option String
  operationId : Option String
  runId : Option String
  stepIndex : Option ℤ
  generationId : Option String
  interruptionEpoch : ℤ
  source : String
deriving DecidableEq

def PresentationEvent.identity (event : PresentationEvent) : StreamIdentity where
  streamId := event.streamId
  workspaceId := event.workspaceId
  sessionId := event.sessionId
  turnId := event.turnId
  requestId := event.requestId
  conversationId := event.conversationId
  operationId := event.operationId
  runId := event.runId
  stepIndex := event.stepIndex
  generationId := event.generationId
  interruptionEpoch := max 0 event.interruptionEpoch
  source := event.source

/-- An optional text of a dictionary, where there is one. -/
def optionalEntry (key : String) (value : Option String) : List (String × Json) :=
  if value.getD "" = "" then [] else [(key, .str (value.getD ""))]

def PresentationEvent.toDict (tables : TextTables) (event : PresentationEvent) : Json :=
  .obj ([("version", .int event.version),
      ("schemaVersion", .str "yuizaki.companion-presentation.v1"),
      ("streamId", .str event.streamId), ("type", .str event.eventType),
      ("revision", .int event.revision), ("workspaceId", .str event.workspaceId),
      ("sessionId", .str event.sessionId), ("turnId", .str event.turnId),
      ("interruptionEpoch", .int (max 0 event.interruptionEpoch)),
      ("source", .str event.source), ("terminal", .bool (event.terminal tables)),
      ("payload", .obj event.payload)] ++
    optionalEntry "generationId" event.generationId ++
    optionalEntry "requestId" event.requestId ++
    optionalEntry "conversationId" event.conversationId ++
    optionalEntry "operationId" event.operationId ++
    optionalEntry "runId" event.runId ++
    (match event.stepIndex with
      | some i => [("stepIndex", .int (max 0 i))]
      | none => []))

inductive PresentationError where
  | stale (message : String)
  | terminal (message : String)
  | capacity (message : String)
  | value (message : String)
deriving DecidableEq

def reduce (tables : TextTables) (previous : Option PresentationEvent)
    (event : PresentationEvent) : Except PresentationError PresentationEvent :=
  if isHighFrequencyEvent tables event.eventType then
    .error (.stale "high-frequency presentation events are not retained")
  else if event.version ≠ 1 then
    .error (.value ("unsupported presentation event version: " ++ toString event.version))
  else if event.revision < 1 then .error (.stale "presentation revision must be positive")
  else match previous with
    | none =>
      if event.revision ≠ 1 then
        .error (.stale "presentation stream must start at revision 1")
      else .ok event
    | some previous =>
      if previous.identity ≠ event.identity then
        .error (.value ("presentation stream identity changed: " ++ event.streamId))
      else if previous.terminal tables then
        .error (.terminal ("terminal presentation stream cannot transition: " ++ event.streamId))
      else if event.revision ≤ previous.revision then
        .error (.stale ("stale presentation revision for " ++ event.streamId ++ ": " ++
          toString event.revision ++ " <= " ++ toString previous.revision))
      else if event.revision ≠ previous.revision + 1 then
        .error (.stale ("presentation revision gap for " ++ event.streamId ++ ": expected " ++
          toString (previous.revision + 1) ++ ", got " ++ toString event.revision))
      else .ok event

/-! ## The log -/

/-- `CompanionPresentationEventLog`: the streams, the longest untouched first, and those
that ended. -/
structure PresentationLog where
  maxStreams : ℕ
  events : Dict String (List PresentationEvent)
  terminalStreams : Finset String

def PresentationLog.new (maxStreams : ℤ) : PresentationLog where
  maxStreams := (max 1 maxStreams).toNat
  events := Dict.empty
  terminalStreams := ∅

/-- What an append answers, or raises, and the log after it. -/
abbrev Appended (α : Type) := Except PresentationError α × PresentationLog

def PresentationLog.evictTerminalStream (log : PresentationLog) : Bool × PresentationLog :=
  match log.events.keys.find? (fun id => id ∈ log.terminalStreams) with
  | none => (false, log)
  | some id =>
    (true, { log with
      events := log.events.erase id
      terminalStreams := log.terminalStreams.erase id })

/-- The end of `append_event`: what is not the event before, once more, is reduced and
stored. -/
def PresentationLog.accept (tables : TextTables) (log : PresentationLog)
    (events : List PresentationEvent) (event : PresentationEvent) : Appended (Option Json) :=
  match events.getLast? with
  | some previous =>
    if event.revision = previous.revision then
      if (previous.toDict tables).same (event.toDict tables) then
        match previous.toDict tables with
        | .obj entries => (.ok (some (.obj (Json.setEntry entries "duplicate" (.bool true)))), log)
        | _ => (.ok none, log)
      else
        (.error (.stale ("conflicting duplicate presentation revision: " ++ event.streamId ++
          ":" ++ toString event.revision)), log)
    else store log (reduce tables (some previous) event)
  | none => store log (reduce tables none event)
where
  /-- A reduced event at the end of its stream, which becomes the newest. -/
  store (log : PresentationLog) : Except PresentationError PresentationEvent →
      Appended (Option Json)
    | .error e => (.error e, log)
    | .ok accepted =>
      (.ok (some (accepted.toDict tables)), { log with
        events := (log.events.set event.streamId (events ++ [accepted])).moveToEnd event.streamId
        terminalStreams := if accepted.terminal tables then
          insert event.streamId log.terminalStreams else log.terminalStreams })

def PresentationLog.appendEvent (tables : TextTables) (log : PresentationLog)
    (event : PresentationEvent) : Appended (Option Json) :=
  if isHighFrequencyEvent tables event.eventType then (.ok none, log)
  else match log.events.get event.streamId with
    | some events => log.accept tables events event
    | none =>
      match reduce tables none event with
      | .error e => (.error e, log)
      | .ok _ =>
        if log.maxStreams ≤ log.events.keys.length then
          match log.evictTerminalStream with
          | (false, log) =>
            (.error (.capacity "companion presentation log is full of active streams"), log)
          | (true, log) => log.accept tables [] event
        else log.accept tables [] event

/-- The keyword arguments of `append`. -/
structure PresentationFields where
  streamId : Option String := none
  eventType : Option String := none
  revision : Option ℤ := none
  workspaceId : String := ""
  sessionId : String := ""
  turnId : String := ""
  requestId : Option String := none
  conversationId : Option String := none
  operationId : Option String := none
  runId : Option String := none
  stepIndex : Option ℤ := none
  generationId : Option String := none
  interruptionEpoch : ℤ := 0
  source : String := "agent"
  payload : List (String × Json) := []

/-- The revision that follows the stored ones of a stream. -/
def PresentationLog.nextRevision (log : PresentationLog) (streamId : String) : ℤ :=
  match (log.events.get streamId).bind List.getLast? with
  | some last => last.revision + 1
  | none => 1

def PresentationFields.event (fields : PresentationFields) (nextRevision : ℤ) :
    PresentationEvent where
  streamId := fields.streamId.getD ""
  eventType := fields.eventType.getD ""
  revision := fields.revision.getD nextRevision
  workspaceId := fields.workspaceId
  sessionId := fields.sessionId
  turnId := fields.turnId
  requestId := fields.requestId
  conversationId := fields.conversationId
  operationId := fields.operationId
  runId := fields.runId
  stepIndex := fields.stepIndex
  generationId := fields.generationId
  interruptionEpoch := fields.interruptionEpoch
  source := fields.source
  payload := fields.payload

/-- `append`: an event, or one made of the keyword arguments. -/
def PresentationLog.append (tables : TextTables) (log : PresentationLog)
    (event : Option PresentationEvent) (fields : PresentationFields) : Appended (Option Json) :=
  match event with
  | some event => log.appendEvent tables event
  | none =>
    if fields.streamId.getD "" = "" ∨ fields.eventType.getD "" = "" then
      (.error (.value "stream_id and event_type are required"), log)
    else log.appendEvent tables (fields.event (log.nextRevision (fields.streamId.getD "")))

structure AppendCall where
  event : Option PresentationEvent
  fields : PresentationFields

def AppendStep (tables : TextTables) (log : PresentationLog) (call : AppendCall)
    (log' : PresentationLog) : Prop :=
  log' = (log.append tables call.event call.fields).2

/-! ## What a stream is -/

/-- Revisions from 1 in order, and nothing after a terminal event. -/
structure WellOrdered (tables : TextTables) (events : List PresentationEvent) : Prop where
  nonempty : events ≠ []
  revisions : ∀ i (h : i < events.length), events[i].revision = i + 1
  terminal : ∀ i (h : i < events.length), events[i].terminal tables = true →
    i + 1 = events.length

section Stream

variable {tables : TextTables} {events : List PresentationEvent} {event : PresentationEvent}

theorem WellOrdered.last (h : WellOrdered tables events) {last : PresentationEvent}
    (hlast : events.getLast? = some last) : last.revision = events.length := by
  have hpos : 0 < events.length := List.length_pos_of_ne_nil h.nonempty
  have hget : events[events.length - 1] = last := by
    rw [List.getLast?_eq_getElem?] at hlast
    exact (List.getElem?_eq_some_iff.mp hlast).2
  rw [← hget, h.revisions]
  omega

theorem reduce_none {accepted : PresentationEvent} (h : reduce tables none event = .ok accepted) :
    accepted = event ∧ event.revision = 1 := by
  unfold reduce at h
  split at h
  · cases h
  · split at h
    · cases h
    · split at h
      · cases h
      · dsimp only at h
        split at h
        · cases h
        · rename_i hfirst
          cases h
          exact ⟨rfl, not_not.mp hfirst⟩

theorem reduce_some {previous accepted : PresentationEvent}
    (h : reduce tables (some previous) event = .ok accepted) :
    accepted = event ∧ previous.terminal tables = false ∧
      event.revision = previous.revision + 1 := by
  unfold reduce at h
  split at h
  · cases h
  · split at h
    · cases h
    · split at h
      · cases h
      · dsimp only at h
        split at h
        · cases h
        · split at h
          · cases h
          · rename_i hactive
            split at h
            · cases h
            · split at h
              · cases h
              · rename_i hnext
                cases h
                exact ⟨rfl, Bool.eq_false_iff.mpr hactive, not_not.mp hnext⟩

theorem WellOrdered.single (hrevision : event.revision = 1) : WellOrdered tables [event] where
  nonempty := List.cons_ne_nil _ _
  revisions := fun i h => by
    have hi : i = 0 := Nat.lt_one_iff.mp h
    subst hi
    exact hrevision
  terminal := fun i h _ => by
    have hi : i = 0 := Nat.lt_one_iff.mp h
    rw [hi]
    rfl

theorem WellOrdered.append (h : WellOrdered tables events) {last : PresentationEvent}
    (hlast : events.getLast? = some last) (hactive : last.terminal tables = false)
    (hrevision : event.revision = last.revision + 1) : WellOrdered tables (events ++ [event]) := by
  have hlength : (events ++ [event]).length = events.length + 1 := List.length_append
  have hget : ∀ i (hi : i < (events ++ [event]).length), (events ++ [event])[i] =
      if hold : i < events.length then events[i] else event := by
    intro i hi
    split
    · rename_i hold
      exact List.getElem_append_left hold
    · have heq : i = events.length := by omega
      subst heq
      rw [List.getElem_append_right (Nat.le_refl _)]
      simp
  refine ⟨List.append_ne_nil_of_right_ne_nil _ (List.cons_ne_nil _ _), ?_, ?_⟩
  · intro i hi
    rw [hget i hi]
    split
    · exact h.revisions i _
    · have heq : i = events.length := by omega
      rw [hrevision, h.last hlast, heq]
  · intro i hi hterminal
    rw [hget i hi] at hterminal
    rw [hlength]
    split at hterminal
    · rename_i hold
      -- a terminal event was the last one, and the last one is not terminal
      have hend := h.terminal i hold hterminal
      have hthis : events[i] = last := by
        have hi : events.length - 1 = i := by omega
        rw [List.getLast?_eq_getElem?, hi] at hlast
        exact (List.getElem?_eq_some_iff.mp hlast).2
      rw [hthis, hactive] at hterminal
      cases hterminal
    · omega

end Stream

/-! ## Appends -/

/-- What a log keeps: streams in order, no more than there may be, and which have ended. -/
structure PresentationLog.Valid (tables : TextTables) (log : PresentationLog) : Prop where
  ordered : ∀ id events, log.events.get id = some events → WellOrdered tables events
  bounded : log.events.keys.length ≤ log.maxStreams
  ended : ∀ id, id ∈ log.terminalStreams ↔ ∃ events last, log.events.get id = some events ∧
    events.getLast? = some last ∧ last.terminal tables = true

/-- Room for a stream: the log itself, or the log without its oldest ended stream. -/
inductive Room (log : PresentationLog) (id : String) : PresentationLog →
    List PresentationEvent → Prop
  | stored {events : List PresentationEvent} (h : log.events.get id = some events) :
      Room log id log events
  | free (h : log.events.get id = none) (hroom : log.events.keys.length < log.maxStreams) :
      Room log id log []
  | evicted {old : String} {log' : PresentationLog} (h : log.events.get id = none)
      (hold : log.events.keys.find? (fun id => id ∈ log.terminalStreams) = some old)
      (hlog' : log' = { log with
        events := log.events.erase old, terminalStreams := log.terminalStreams.erase old }) :
      Room log id log' []

/-- An accepted event at the end of its stream. -/
def PresentationLog.stored (tables : TextTables) (log : PresentationLog)
    (events : List PresentationEvent) (event : PresentationEvent) : PresentationLog :=
  { log with
    events := (log.events.set event.streamId (events ++ [event])).moveToEnd event.streamId
    terminalStreams := if event.terminal tables then
      insert event.streamId log.terminalStreams else log.terminalStreams }

/-- What an append owes the log: one that raises, or ignores its event, leaves it as it was,
and one that accepts its event adds it to the end of the event's stream, where the log did
not have it already, and drops at most other streams. -/
def Atomic (tables : TextTables) (log : PresentationLog) : Appended (Option Json) → Prop
  | (.error _, log') | (.ok none, log') => log' = log
  | (.ok (some data), log') => log' = log ∨ ∃ event, data = event.toDict tables ∧
      log'.events.get event.streamId =
        some ((log.events.get event.streamId).getD [] ++ [event]) ∧
      ∀ id ≠ event.streamId,
        log'.events.get id = log.events.get id ∨ log'.events.get id = none

section Append

variable {tables : TextTables} {log log' : PresentationLog} {event : PresentationEvent}

theorem reduce_same {previous : Option PresentationEvent} {accepted : PresentationEvent}
    (h : reduce tables previous event = .ok accepted) : accepted = event := by
  cases previous with
  | none => exact (reduce_none h).1
  | some previous => exact (reduce_some h).1

theorem accept_cases (tables : TextTables) (log : PresentationLog) (event : PresentationEvent)
    (events : List PresentationEvent) :
    (log.accept tables events event).2 = log ∨
      reduce tables events.getLast? event = .ok event ∧
        log.accept tables events event =
          (.ok (some (event.toDict tables)), log.stored tables events event) := by
  have hstore (previous : Option PresentationEvent) :
      (PresentationLog.accept.store tables events event log (reduce tables previous event)).2 =
          log ∨
        reduce tables previous event = .ok event ∧
          PresentationLog.accept.store tables events event log (reduce tables previous event) =
            (.ok (some (event.toDict tables)), log.stored tables events event) := by
    cases hreduce : reduce tables previous event with
    | error e => exact Or.inl rfl
    | ok accepted =>
      have hsame := reduce_same hreduce
      subst hsame
      exact Or.inr ⟨rfl, rfl⟩
  unfold PresentationLog.accept
  cases hlast : events.getLast? with
  | none => exact hstore none
  | some previous =>
    dsimp only
    split
    · split
      · split
        · exact Or.inl rfl
        · exact Or.inl rfl
      · exact Or.inl rfl
    · exact hstore (some previous)

theorem appendEvent_cases (tables : TextTables) (log : PresentationLog)
    (event : PresentationEvent) :
    (log.appendEvent tables event).2 = log ∨ ∃ room events, Room log event.streamId room events ∧
      reduce tables events.getLast? event = .ok event ∧ log.appendEvent tables event =
        (.ok (some (event.toDict tables)), room.stored tables events event) := by
  unfold PresentationLog.appendEvent
  split
  · exact Or.inl rfl
  · split
    · rename_i events hevents
      rcases accept_cases tables log event events with
        hsame | hstored
      · exact Or.inl hsame
      · exact Or.inr ⟨log, events, Room.stored hevents, hstored⟩
    · rename_i hnew
      split
      · exact Or.inl rfl
      · rename_i accepted hreduce
        -- nothing is refused once the first revision has been reduced
        have hfirst (room : PresentationLog) : reduce tables none event = .ok event ∧
            room.accept tables [] event =
              (.ok (some (event.toDict tables)), room.stored tables [] event) := by
          have hsame := reduce_same hreduce
          rw [hsame] at hreduce
          refine ⟨hreduce, ?_⟩
          show PresentationLog.accept.store tables [] event room (reduce tables none event) = _
          rw [hreduce]
          rfl
        split
        · unfold PresentationLog.evictTerminalStream
          cases hold : log.events.keys.find? (fun id => id ∈ log.terminalStreams) with
          | none => exact Or.inl rfl
          | some old => exact Or.inr ⟨_, [], Room.evicted hnew hold rfl, hfirst _⟩
        · rename_i hroom
          exact Or.inr ⟨log, [], Room.free hnew (Nat.lt_of_not_le hroom), hfirst log⟩

theorem append_cases (tables : TextTables) (log : PresentationLog) (call : AppendCall) :
    (log.append tables call.event call.fields).2 = log ∨ ∃ event,
      log.append tables call.event call.fields = log.appendEvent tables event := by
  unfold PresentationLog.append
  split
  · exact Or.inr ⟨_, rfl⟩
  · split
    · exact Or.inl rfl
    · exact Or.inr ⟨_, rfl⟩

/-! ## Runs of appends -/

theorem Room.valid (hlog : log.Valid tables) {id : String} {room : PresentationLog}
    {events : List PresentationEvent} (h : Room log id room events) :
    room.Valid tables ∧ (room.events.get id = some events ∨
      room.events.get id = none ∧ events = [] ∧
        room.events.keys.length < room.maxStreams) := by
  cases h with
  | stored h => exact ⟨hlog, Or.inl h⟩
  | free h hroom => exact ⟨hlog, Or.inr ⟨h, rfl, hroom⟩⟩
  | @evicted old _ h hold hlog' =>
    subst hlog'
    have hstored : log.events.get old ≠ none := by
      obtain ⟨events, hevents⟩ := Dict.mem_keys.mp (List.mem_of_find?_eq_some hold)
      rw [hevents]
      exact Option.some_ne_none events
    have hlength := Dict.length_keys_erase hstored
    have hbounded := hlog.bounded
    refine ⟨⟨fun id' events' hevents' => ?_, ?_, fun id' => ?_⟩, Or.inr ⟨?_, rfl, ?_⟩⟩
    · rw [Dict.get_erase] at hevents'
      split at hevents'
      · cases hevents'
      · exact hlog.ordered id' events' hevents'
    · show (log.events.erase old).keys.length ≤ log.maxStreams
      omega
    · show id' ∈ log.terminalStreams.erase old ↔ _
      rw [Finset.mem_erase, hlog.ended id', Dict.get_erase]
      by_cases heq : id' = old
      · rw [if_pos heq]
        exact ⟨fun hne => absurd heq hne.1, fun hnone => by
          obtain ⟨_, _, hnone, _⟩ := hnone
          cases hnone⟩
      · rw [if_neg heq]
        exact and_iff_right heq
    · rw [Dict.get_erase, h]
      exact ite_self none
    · show (log.events.erase old).keys.length < log.maxStreams
      omega

theorem PresentationLog.Valid.stored (hlog : log.Valid tables) {events : List PresentationEvent}
    (hevents : log.events.get event.streamId = some events ∨
      log.events.get event.streamId = none ∧ events = [] ∧
        log.events.keys.length < log.maxStreams)
    (hreduce : reduce tables events.getLast? event = .ok event) :
    (log.stored tables events event).Valid tables := by
  have hget (id : String) : (log.stored tables events event).events.get id =
      if id = event.streamId then some (events ++ [event]) else log.events.get id := by
    show ((log.events.set event.streamId (events ++ [event])).moveToEnd event.streamId).get id = _
    rw [Dict.get_moveToEnd, Dict.get_set]
  have hordered : WellOrdered tables (events ++ [event]) ∧
      (events ≠ [] → event.streamId ∉ log.terminalStreams) := by
    rcases hevents with hold | hnew
    · have hstream := hlog.ordered _ _ hold
      obtain ⟨last, hlast⟩ := Option.ne_none_iff_exists'.mp
        (fun hnone => hstream.nonempty (List.getLast?_eq_none_iff.mp hnone))
      rw [hlast] at hreduce
      obtain ⟨-, hactive, hnext⟩ := reduce_some hreduce
      refine ⟨hstream.append hlast hactive hnext, fun _ hended => ?_⟩
      obtain ⟨events', last', hevents', hlast', hterminal⟩ := (hlog.ended _).mp hended
      rw [hold] at hevents'
      cases hevents'
      rw [hlast] at hlast'
      cases hlast'
      rw [hactive] at hterminal
      cases hterminal
    · rw [hnew.2.1] at hreduce ⊢
      exact ⟨WellOrdered.single (reduce_none hreduce).2, fun hne => absurd rfl hne⟩
  refine ⟨fun id events' hevents' => ?_, ?_, fun id => ?_⟩
  · rw [hget] at hevents'
    split at hevents'
    · cases hevents'
      exact hordered.1
    · exact hlog.ordered id events' hevents'
  · show ((log.events.set event.streamId (events ++ [event])).moveToEnd
      event.streamId).keys.length ≤ log.maxStreams
    rw [Dict.length_keys_moveToEnd]
    rcases hevents with hold | hnew
    · rw [Dict.length_keys_set (by rw [hold]; exact Option.some_ne_none _)]
      exact hlog.bounded
    · exact Nat.le_trans Dict.length_keys_set_le hnew.2.2
  · show id ∈ (if event.terminal tables then insert event.streamId log.terminalStreams
      else log.terminalStreams) ↔ _
    rw [hget]
    by_cases heq : id = event.streamId
    · -- the stream ends exactly where this event is terminal
      rw [if_pos heq]
      have hlast : (events ++ [event]).getLast? = some event := List.getLast?_concat
      have hactive : id ∉ log.terminalStreams := by
        rw [heq]
        rcases hevents with hold | hnew
        · exact hordered.2 (hlog.ordered _ _ hold).nonempty
        · intro hended
          obtain ⟨_, _, hsome, _⟩ := (hlog.ended _).mp hended
          rw [hnew.1] at hsome
          cases hsome
      constructor
      · intro hmem
        split at hmem
        · rename_i hterminal
          exact ⟨_, _, rfl, hlast, hterminal⟩
        · exact absurd hmem hactive
      · intro hended
        have hterminal : event.terminal tables = true := by
          obtain ⟨_, last, hsome, hlast', hterminal⟩ := hended
          cases hsome
          rw [hlast] at hlast'
          cases hlast'
          exact hterminal
        rw [if_pos hterminal, heq]
        exact Finset.mem_insert_self _ _
    · rw [if_neg heq]
      have hsame : id ∈ (if event.terminal tables then insert event.streamId log.terminalStreams
          else log.terminalStreams) ↔ id ∈ log.terminalStreams := by
        split
        · rw [Finset.mem_insert]
          exact or_iff_right heq
        · exact Iff.rfl
      rw [hsame]
      exact hlog.ended id

theorem step_valid {call : AppendCall} (hlog : log.Valid tables)
    (hstep : AppendStep tables log call log') : log'.Valid tables := by
  unfold AppendStep at hstep
  rw [hstep]
  rcases append_cases tables log call with hsame | hevent
  · rw [hsame]
    exact hlog
  · obtain ⟨event, hevent⟩ := hevent
    rw [hevent]
    rcases appendEvent_cases tables log event with hsame | hstored
    · rw [hsame]
      exact hlog
    · obtain ⟨room, events, hroom, hreduce, heq⟩ := hstored
      rw [heq]
      obtain ⟨hvalid, hevents⟩ := hroom.valid hlog
      exact hvalid.stored hevents hreduce

theorem new_valid (maxStreams : ℤ) : (PresentationLog.new maxStreams).Valid tables where
  ordered := fun _ _ h => by cases h
  bounded := Nat.zero_le _
  ended := fun id => by
    constructor
    · intro h
      cases h
    · intro h
      obtain ⟨_, _, h, _⟩ := h
      cases h

theorem Atomic.of_unchanged {r : Appended (Option Json)} (h : r.2 = log) : Atomic tables log r := by
  obtain ⟨answer, log'⟩ := r
  rcases answer with e | data
  · exact h
  · cases data with
    | none => exact h
    | some data => exact Or.inl h

/-- Whatever is appended, in any order: every retained stream has the revisions from 1 in
order and a terminal event only at its end, and every append is atomic. -/
theorem presentation_log_order (tables : TextTables) (maxStreams : ℤ) {hist : List AppendCall}
    {log : PresentationLog}
    (hrun : Run (AppendStep tables) (PresentationLog.new maxStreams) hist log) :
    (∀ id events, log.events.get id = some events → WellOrdered tables events) ∧
    ∀ call : AppendCall, Atomic tables log (log.append tables call.event call.fields) := by
  have hvalid : log.Valid tables :=
    hrun.invariant (new_valid maxStreams) (fun _ _ _ h hstep => step_valid h hstep)
  refine ⟨hvalid.ordered, fun call => ?_⟩
  rcases append_cases tables log call with hsame | hevent
  · exact Atomic.of_unchanged hsame
  · obtain ⟨event, hevent⟩ := hevent
    rw [hevent]
    have hcases := appendEvent_cases tables log event
    generalize log.appendEvent tables event = r at hcases ⊢
    rcases hcases with hsame | hstored
    · exact Atomic.of_unchanged hsame
    · obtain ⟨room, events, hroom, -, heq⟩ := hstored
      rw [heq]
      refine Or.inr ⟨event, rfl, ?_, fun id hne => ?_⟩
      · show ((room.events.set event.streamId (events ++ [event])).moveToEnd
          event.streamId).get event.streamId = _
        rw [Dict.get_moveToEnd, Dict.get_set_self]
        cases hroom with
        | stored h => rw [h]; rfl
        | free h _ => rw [h]; rfl
        | evicted h _ _ => rw [h]; rfl
      · have hget : (room.stored tables events event).events.get id = room.events.get id := by
          show ((room.events.set event.streamId (events ++ [event])).moveToEnd
            event.streamId).get id = _
          rw [Dict.get_moveToEnd, Dict.get_set_of_ne hne]
        rw [hget]
        cases hroom with
        | stored _ => exact Or.inl rfl
        | free _ _ => exact Or.inl rfl
        | evicted _ _ hlog' =>
          subst hlog'
          rw [Dict.get_erase]
          split
          · exact Or.inr rfl
          · exact Or.inl rfl

end Append

/-- Text without characters beyond ASCII. -/
def asciiTables : TextTables where
  lower := fun s => s
  alnum := fun _ => false

def appendOf (streamId eventType : String) (revision : ℤ) : AppendCall where
  event := some { streamId, eventType, revision }
  fields := {}

/-- The log after appends, oldest first. -/
def PresentationLog.appends (tables : TextTables) :
    List AppendCall → PresentationLog → PresentationLog
  | [], log => log
  | call :: rest, log => (log.append tables call.event call.fields).2.appends tables rest

theorem appends_run (tables : TextTables) (calls : List AppendCall) (log : PresentationLog) :
    Run (AppendStep tables) log calls.reverse (log.appends tables calls) := by
  induction calls generalizing log with
  | nil => exact Run.start
  | cons call rest ih =>
    rw [List.reverse_cons]
    exact Run.append (Run.start.next rfl) (ih _)

/-- In a log of one stream, a stream that ended gives way to a new one. -/
theorem presentation_log_order_evicts : ∃ hist log,
    Run (AppendStep asciiTables) (PresentationLog.new 1) hist log ∧
    log.events.keys = ["b"] ∧
    (∀ id events, log.events.get id = some events → WellOrdered asciiTables events) ∧
    ∀ call : AppendCall, Atomic asciiTables log
      (log.append asciiTables call.event call.fields) := by
  have hrun := appends_run asciiTables
    [appendOf "a" "TurnStarted" 1, appendOf "a" "TurnCompleted" 2, appendOf "b" "TurnStarted" 1]
    (PresentationLog.new 1)
  have hkeys : ((PresentationLog.new 1).appends asciiTables
      [appendOf "a" "TurnStarted" 1, appendOf "a" "TurnCompleted" 2,
        appendOf "b" "TurnStarted" 1]).events.keys = ["b"] := by
    decide +kernel
  exact ⟨_, _, hrun, hkeys, presentation_log_order asciiTables 1 hrun⟩

end Events
