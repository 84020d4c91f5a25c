import Yuizaki.Events.JobData
import Mathlib.Algebra.Order.Ring.Unbundled.Rat

/- The job event log (`CompanionJobEventLog` in `modules/agent/companion_events.py`).

   The log keeps the events of each job under a storage key: the job id, as long as one
   workspace uses it, and the workspace and the id once a second one does. Beside the
   events stand the jobs that ended, the next revision and the last progress of each, and
   the events remembered under an idempotency key. An append may move a job to another
   key, drop an ended job, replace the newest progress event, or add an event and drop the
   oldest but the first. -/
namespace Events

/-! ## Statuses -/

inductive JobStatus where
  | created
  | running
  | progress
  | completed
  | failed
  | cancelled
  | interrupted
  | unknownEffect
deriving DecidableEq

def JobStatus.text : JobStatus → String
  | .created => "created"
  | .running => "running"
  | .progress => "progress"
  | .completed => "completed"
  | .failed => "failed"
  | .cancelled => "cancelled"
  | .interrupted => "interrupted"
  | .unknownEffect => "unknown_effect"

/-- `_EVENT_TYPES`. -/
def JobStatus.eventType : JobStatus → String
  | .created => "AgentJobCreated"
  | .running => "AgentJobRunning"
  | .progress => "AgentJobProgress"
  | .completed => "AgentJobCompleted"
  | .failed => "AgentJobFailed"
  | .cancelled => "AgentJobCancelled"
  | .interrupted => "AgentJobInterrupted"
  | .unknownEffect => "AgentJobUnknownEffect"

/-- `_TERMINAL_STATUSES`. -/
def JobStatus.terminal : JobStatus → Bool
  | .completed | .failed | .cancelled | .interrupted | .unknownEffect => true
  | .created | .running | .progress => false

def jobStatuses : List JobStatus :=
  [.created, .running, .progress, .completed, .failed, .cancelled, .interrupted, .unknownEffect]

def JobStatus.ofText (text : String) : Option JobStatus :=
  jobStatuses.find? (fun status => status.text = text)

/-! ## Events -/

structure JobIdentity where
  workspaceId : String
  sessionId : String
  turnId : String
  requestId : String
  conversationId : Option String
  operationId : Option String
  stepIndex : Option ℤ
  runId : Option String
  interruptionEpoch : ℤ
  source : String
deriving DecidableEq

/-- A job event: its identity leaves out texts that are empty. -/
structure JobEvent extends JobIdentity where
  jobId : String
  revision : ℤ
  timestamp : ℚ
  status : JobStatus
  data : Option (List (String × Json))
deriving DecidableEq

/-- The workspace and the id of its job. -/
def JobEvent.job (event : JobEvent) : String × String := (event.workspaceId, event.jobId)

/-- The arguments of `append`; the timestamp is none where it is no finite number. -/
structure JobRequest where
  workspaceId : String
  sessionId : String
  turnId : String
  jobId : String
  conversationId : Option String := none
  operationId : Option String := none
  stepIndex : Option ℤ := none
  runId : Option String := none
  requestId : String
  interruptionEpoch : ℤ
  source : String
  timestamp : Option ℚ
  status : String
  data : Option (List (String × Json)) := none
  idempotencyKey : Option String := none

def JobRequest.identity (r : JobRequest) : JobIdentity where
  workspaceId := r.workspaceId
  sessionId := r.sessionId
  turnId := r.turnId
  requestId := r.requestId
  conversationId := r.conversationId
  operationId := r.operationId
  stepIndex := r.stepIndex.map (max 0)
  runId := r.runId
  interruptionEpoch := max 0 r.interruptionEpoch
  source := r.source

def nonEmpty (value : Option String) : Option String := value.filter (fun s => s ≠ "")

def JobIdentity.kept (identity : JobIdentity) : JobIdentity :=
  { identity with
    conversationId := nonEmpty identity.conversationId
    operationId := nonEmpty identity.operationId
    runId := nonEmpty identity.runId }

/-- The key the event is remembered under. -/
def JobRequest.projectionKey (r : JobRequest) : Option String :=
  nonEmpty (some (PyStr.strip (r.idempotencyKey.getD "")))

def JobRequest.sanitized (tables : TextTables) (r : JobRequest) : List (String × Json) :=
  match sanitizeJobData tables 0 (.obj (r.data.getD [])) with
  | .obj entries => entries
  | _ => []

/-- Whether the data says it is a recheck. -/
def isRecheck (data : List (String × Json)) : Bool := data.lookup "recheck" = some (.bool true)

inductive JobAnswer where
  | duplicate (event : JobEvent)
  | coalesced (event : JobEvent)
  | appended (event : JobEvent)
deriving DecidableEq

inductive JobError where
  | value (message : String)
  | capacity (message : String)
  | lookup (message : String)
deriving DecidableEq

/-! ## The presentation of an event -/

/-- `adapt_job_event` of a stored event. -/
def adaptJobEvent (tables : TextTables) (event : JobEvent) : Option PresentationEvent :=
  let streamId := PyStr.strip event.jobId
  if isHighFrequencyEvent tables event.status.eventType ∨
      isHighFrequencyEvent tables event.status.text then none
  else if streamId = "" then none
  else some {
    streamId
    eventType := event.status.eventType
    revision := event.revision
    workspaceId := event.workspaceId
    sessionId := event.sessionId
    turnId := event.turnId
    requestId := nonEmpty (some event.requestId)
    conversationId := event.conversationId
    operationId := event.operationId
    runId := event.runId
    stepIndex := event.stepIndex
    generationId := none
    interruptionEpoch := event.interruptionEpoch
    source := if event.source = "" then "job" else event.source
    payload := event.data.getD [] }

/-! ## The log -/

/-- `CompanionJobEventLog`; the jobs stand with the longest untouched first, and so do the
idempotency keys of a job. -/
structure JobLog where
  maxJobs : ℕ
  maxEventsPerJob : ℕ
  events : Dict String (List JobEvent)
  terminalJobs : Finset String
  lastProgressAt : Dict String ℚ
  nextRevision : Dict String ℤ
  projectionEvents : Dict String JobEvent
  projectionKeysByJob : Dict String (List String)
  presentation : Option PresentationLog

def JobLog.new (maxJobs maxEventsPerJob : ℤ) (presentation : Option PresentationLog) : JobLog where
  maxJobs := (max 1 maxJobs).toNat
  maxEventsPerJob := (max 2 maxEventsPerJob).toNat
  events := Dict.empty
  terminalJobs := ∅
  lastProgressAt := Dict.empty
  nextRevision := Dict.empty
  projectionEvents := Dict.empty
  projectionKeysByJob := Dict.empty
  presentation

def scopeKey (workspaceId jobId : String) : String := workspaceId ++ "\x00" ++ jobId

def newestWorkspace (events : List JobEvent) : Option String :=
  events.getLast?.map (fun event => event.workspaceId)

def newestJob (events : List JobEvent) : Option String :=
  events.getLast?.map (fun event => event.jobId)

/-- What the log holds under a key, moved to another. -/
def JobLog.rescope (log : JobLog) (key key' : String) : JobLog :=
  { log with
    events := log.events.rename key key'
    terminalJobs := if key ∈ log.terminalJobs then insert key' (log.terminalJobs.erase key)
      else log.terminalJobs
    lastProgressAt := log.lastProgressAt.rename key key'
    nextRevision := log.nextRevision.rename key key'
    projectionKeysByJob := log.projectionKeysByJob.rename key key' }

/-- `_storage_key`: where the events of a job are, or are to go. -/
def JobLog.storageKey (log : JobLog) (workspaceId jobId : String) : String × JobLog :=
  let found := log.events.entries.filter (fun e => newestJob e.2 = some jobId)
  match found.find? (fun e => newestWorkspace e.2 = some workspaceId) with
  | some e => (e.1, log)
  | none =>
    if found = [] then (jobId, log)
    else match log.events.get jobId with
      | none => (scopeKey workspaceId jobId, log)
      | some direct => match newestWorkspace direct with
        | none => (scopeKey workspaceId jobId, { log with events := log.events.erase jobId })
        | some existing =>
          (scopeKey workspaceId jobId, log.rescope jobId (scopeKey existing jobId))

/-- The idempotency keys of a job, with one as the newest. -/
def JobLog.jobKeys (log : JobLog) (key projectionKey : String) : List String :=
  ((log.projectionKeysByJob.get key).getD []).erase projectionKey ++ [projectionKey]

def JobLog.rememberProjection (log : JobLog) (key projectionKey : String) (event : JobEvent) :
    JobLog :=
  let jobKeys := log.jobKeys key projectionKey
  let overflow := jobKeys.length - log.maxEventsPerJob
  { log with
    projectionEvents := (jobKeys.take overflow).foldl Dict.erase
      (log.projectionEvents.set projectionKey event)
    projectionKeysByJob := log.projectionKeysByJob.set key (jobKeys.drop overflow) }

/-- The event remembered, where the request brings a key. -/
def JobLog.remember (log : JobLog) (key : String) (projectionKey : Option String)
    (event : JobEvent) : JobLog :=
  match projectionKey with
  | none => log
  | some projectionKey => log.rememberProjection key projectionKey event

/-- `_trim_job_events`: the first event, and the newest. -/
def trimJobEvents (limit : ℕ) : List JobEvent → List JobEvent
  | [] => []
  | first :: rest => first :: rest.drop (rest.length + 1 - limit)

/-- What is left of a log without a job. -/
def JobLog.drop (log : JobLog) (key : String) : JobLog :=
  { log with
    events := log.events.erase key
    terminalJobs := log.terminalJobs.erase key
    lastProgressAt := log.lastProgressAt.erase key
    nextRevision := log.nextRevision.erase key
    projectionKeysByJob := log.projectionKeysByJob.erase key
    projectionEvents := ((log.projectionKeysByJob.get key).getD []).foldl Dict.erase
      log.projectionEvents }

def JobLog.evictTerminalJobIfNeeded (log : JobLog) : Bool × JobLog :=
  if log.events.keys.length < log.maxJobs then (true, log)
  else match log.events.keys.find? (fun key => key ∈ log.terminalJobs) with
    | none => (false, log)
    | some key => (true, log.drop key)

/-- A checked request: where it goes, its time, its status and its data. -/
structure Admitted where
  key : String
  timestamp : ℚ
  status : JobStatus
  data : List (String × Json)

def JobRequest.event (r : JobRequest) (a : Admitted) (revision : ℤ) : JobEvent :=
  { r.identity.kept with
    jobId := r.jobId
    revision
    timestamp := a.timestamp * 1000
    status := a.status
    data := if a.data = [] then none else some a.data }

/-- The presentation log after an event: what it raises is only logged. -/
def presented (tables : TextTables) (event : JobEvent) (presentation : PresentationLog) :
    PresentationLog :=
  match adaptJobEvent tables event with
  | none => presentation
  | some event => (presentation.appendEvent tables event).2

/-- The log with an event after `events`, the events of its job. -/
def JobLog.store (tables : TextTables) (log : JobLog) (a : Admitted) (events : List JobEvent)
    (event : JobEvent) : JobLog :=
  { log with
    events := (log.events.set a.key
      (trimJobEvents log.maxEventsPerJob (events ++ [event]))).moveToEnd a.key
    nextRevision := log.nextRevision.set a.key (event.revision + 1)
    lastProgressAt := if a.status = JobStatus.progress then
      log.lastProgressAt.set a.key a.timestamp else log.lastProgressAt.erase a.key
    terminalJobs := if a.status.terminal then insert a.key log.terminalJobs
      else log.terminalJobs
    presentation := if isRecheck a.data then log.presentation
      else log.presentation.map (presented tables event) }

/-- The end of `append`: the event is stored, and remembered. -/
def JobLog.record (tables : TextTables) (log : JobLog) (r : JobRequest) (a : Admitted)
    (events : List JobEvent) : Except JobError JobAnswer × JobLog :=
  let event := r.event a ((log.nextRevision.get a.key).getD 1)
  (.ok (.appended event), (log.store tables a events event).remember a.key r.projectionKey event)

/-- A progress event that comes too soon after another takes its place. -/
def Admitted.coalesced (a : Admitted) (previous : JobEvent) : JobEvent :=
  { previous with
    timestamp := a.timestamp * 1000
    data := if a.data = [] then previous.data else some a.data }

/-- The log with another newest event of a job. -/
def JobLog.coalesce (log : JobLog) (r : JobRequest) (a : Admitted) (events : List JobEvent)
    (previous : JobEvent) : Except JobError JobAnswer × JobLog :=
  let event := a.coalesced previous
  let log := { log with events := log.events.set a.key (events.dropLast ++ [event]) }
  (.ok (.coalesced event), log.remember a.key r.projectionKey event)

/-- What becomes of a request of a job that has events. -/
def JobLog.extend (tables : TextTables) (log : JobLog) (r : JobRequest) (a : Admitted)
    (events : List JobEvent) (previous : JobEvent) : Except JobError JobAnswer × JobLog :=
  let recheck := isRecheck a.data
  if previous.status.terminal ∧ ¬ (recheck ∧ a.status = .completed) then
    (.error (.value ("terminal companion job cannot transition: " ++ r.jobId)), log)
  else
    let a := if recheck then
      { a with data := Json.merge (previous.data.getD []) a.data }
      else a
    if a.status = .progress ∧ previous.status = .progress ∧
        (log.lastProgressAt.get a.key).any (fun last => a.timestamp - last < 1 / 10) then
      log.coalesce r a events previous
    else if a.status = .created then
      (.error (.value ("invalid companion job transition: " ++ previous.status.text ++
        " -> created")), log)
    else if previous.toJobIdentity ≠ r.identity then
      (.error (.value ("companion job identity changed: " ++ r.jobId)), log)
    else log.record tables r a events

def JobLog.settle (tables : TextTables) (log : JobLog) (r : JobRequest) (a : Admitted) :
    Except JobError JobAnswer × JobLog :=
  match log.events.get a.key with
  | none =>
    match log.evictTerminalJobIfNeeded with
    | (false, log) =>
      (.error (.capacity "companion job event log is full of active jobs"), log)
    | (true, log) => log.record tables r a []
  | some events =>
    match events.getLast? with
    | none => log.record tables r a events
    | some previous => log.extend tables r a events previous

def JobLog.append (tables : TextTables) (log : JobLog) (r : JobRequest) :
    Except JobError JobAnswer × JobLog :=
  match r.timestamp with
  | none => (.error (.value "companion event timestamp must be numeric"), log)
  | some timestamp =>
    let (key, log) := log.storageKey r.workspaceId r.jobId
    match r.projectionKey.bind log.projectionEvents.get with
    | some event => (.ok (.duplicate event), log)
    | none => match JobStatus.ofText r.status with
      | none => (.error (.value ("unknown companion job status: " ++ r.status)), log)
      | some status =>
        log.settle tables r ⟨key, max 0 timestamp, status, r.sanitized tables⟩

/-! ## Queries -/

/-- Whether the events are of a job, in the workspace where one is given. -/
def isOf (jobId : String) (workspaceId : Option String) (events : List JobEvent) : Bool :=
  newestJob events = some jobId ∧
    (workspaceId = none ∨ newestWorkspace events = workspaceId)

def JobLog.latest (log : JobLog) (jobId : String) (workspaceId : Option String) :
    Option JobEvent :=
  (log.events.entries.find? (fun e => isOf jobId workspaceId e.2)).bind (fun e => e.2.getLast?)

def JobLog.contains (log : JobLog) (jobId : String) (workspaceId : Option String) : Bool :=
  log.events.entries.any (fun e => isOf jobId workspaceId e.2)

def JobLog.isActive (log : JobLog) (jobId : String) (workspaceId : Option String) : Bool :=
  log.events.entries.any (fun e => e.1 ∉ log.terminalJobs ∧ isOf jobId workspaceId e.2 = true)

def JobLog.appendRecheck (tables : TextTables) (log : JobLog) (jobId workspaceId : String)
    (timestamp : Option ℚ) (data : List (String × Json)) : Except JobError JobAnswer × JobLog :=
  match log.latest jobId (some workspaceId) with
  | none => (.error (.lookup ("companion job not found: " ++ jobId)), log)
  | some latest => log.append tables {
      workspaceId := latest.workspaceId
      sessionId := latest.sessionId
      turnId := latest.turnId
      jobId
      conversationId := latest.conversationId
      operationId := latest.operationId
      stepIndex := latest.stepIndex
      runId := latest.runId
      requestId := latest.requestId
      interruptionEpoch := latest.interruptionEpoch
      source := latest.source
      timestamp
      status := "completed"
      data := some (Json.setEntry data "recheck" (.bool true)) }

end Events
