import Yuizaki.Lib.Dict
import Yuizaki.Lib.Gate
import Mathlib.Data.Finset.Basic
import Mathlib.Data.Rat.Defs
import Mathlib.Algebra.Order.Ring.Rat

/- The scheduler and its store (`modules/agent/scheduler.py`, `modules/agent/schedule_store.py`).

   The store is a table of tasks and a file; it is read and written in threads, under one
   lock. A task is one object, whoever holds it, so the objects stand apart from the table
   (`heap`): a task that was removed from the table is still held by a run, by the snapshot
   of the loop, or by a call that looked it up. A background run is an asyncio task with an
   id of its own; what it awaits is its phase. -/
namespace Scheduler

/-! ## Tasks -/

inductive ScheduleMode where
  | once
  | interval
deriving DecidableEq

structure ScheduledTask where
  id : String
  enabled : Bool
  mode : ScheduleMode
  runAfterSeconds : Option ℤ := none
  intervalSeconds : Option ℤ := none
  nextRunAt : Option ℚ := none
  lastRunAt : Option ℚ := none
  lastStatus : Option String := none
  lastRunId : Option String := none
  lastJobId : Option String := none
  lastRequestId : Option String := none
  lastRunSummary : Option String := none
deriving DecidableEq

def ScheduledTask.due (task : ScheduledTask) (now : ℚ) : Bool :=
  task.enabled && task.nextRunAt.any (fun next => next ≤ now)

/-- A number of seconds that is none or zero counts as none. -/
def seconds (value : Option ℤ) : Option ℤ := value.filter (fun n => n ≠ 0)

/-- The task after it was refused for want of room. -/
def ScheduledTask.deferred (now : ℚ) (task : ScheduledTask) : ScheduledTask :=
  { task with
    lastStatus := some "blocked:job_capacity"
    lastRunSummary := some "Scheduler job capacity is full; the task has not started."
    nextRunAt := some (now + 5) }

def ScheduledTask.rescheduled (now : ℚ) (task : ScheduledTask) : ScheduledTask :=
  let task := { task with lastRunAt := some now }
  match task.mode with
  | .once => { task with enabled := false, nextRunAt := none }
  | .interval => match seconds task.intervalSeconds with
    | some interval => { task with nextRunAt := some (now + interval) }
    | none => task

/-- The task after `set_enabled`. -/
def ScheduledTask.setEnabled (enabled : Bool) (now : ℚ) (task : ScheduledTask) : ScheduledTask :=
  { task with
    enabled
    nextRunAt := if enabled ∧ task.nextRunAt = none then
      some (now + (((seconds task.intervalSeconds).or (seconds task.runAfterSeconds)).getD 1))
      else task.nextRunAt }

/-- The task after a start of the scheduler found it queued or running. -/
def ScheduledTask.interrupted (now : ℚ) (task : ScheduledTask) : ScheduledTask :=
  let task := { task with
    lastStatus := some "interrupted:manual_rerun_required"
    lastRunSummary := some "Previous scheduler run was interrupted; run manually to retry." }
  match task.mode, seconds task.intervalSeconds with
  | .interval, some interval => { task with nextRunAt := some (now + interval) }
  | _, _ => { task with enabled := false, nextRunAt := none }

/-! ## Runs -/

/-- What a background run awaits: its first step, its first write, the turn, the durable
commit, its last write, or nothing more. -/
inductive RunPhase where
  | fresh
  | starting
  | working
  | reconciling
  | closing
  | done
deriving DecidableEq

/-- `_ScheduledRun`, with its background task; `cancelling` holds from `cancel()` until the
`CancelledError` is raised in it. -/
structure ScheduledRun where
  taskId : String
  runId : String
  jobId : String
  requestId : String
  status : String := "created"
  phase : RunPhase := .fresh
  cancelling : Bool := false
deriving DecidableEq

def terminalRunStatuses : List String :=
  ["completed", "failed", "cancelled", "interrupted", "unknown_effect"]

def ScheduledRun.unfinished (run : ScheduledRun) : Bool := run.phase ≠ .done

/-! ## Coroutines -/

inductive Owner where
  | run (k : ℕ)
  | loop
  | call (n : ℕ)
deriving DecidableEq

/-- What is done under the lock of the store; only a read needs no thread. -/
inductive StoreOp where
  | upsert (id : String)
  | remove (id : String)
  | enable (id : String) (enabled : Bool)
  | read (id : String)
deriving DecidableEq

/-- Where the loop is: it waits for a task to come due, or writes one that was refused with
the rest of its snapshot before it. -/
inductive LoopPhase where
  | stopped
  | waiting
  | deferring (now : ℚ) (rest : List String)
deriving DecidableEq

inductive Call where
  | adding (id : String)
  | enabling (id : String)
  | reading (id : String)
  | queueing (id : String)
  | deferring (id : String)
  | cancelling (k : ℕ) (removes : Option String)
  | removing (id : String)
  | recovering (rest : List String)
deriving DecidableEq

/-- What the start of a run meets: whether the job log has room for it, its ids, and the
time. -/
structure Arrival where
  room : Bool
  runId : String
  jobId : String
  requestId : String
  now : ℚ

structure SchedulerState where
  heap : Dict String ScheduledTask
  tasks : List String
  file : List String
  activeTaskIds : Finset String
  runs : Dict ℕ ScheduledRun
  nextRun : ℕ
  backgroundRuns : Finset ℕ
  runsByTask : Dict String ℕ
  runsByJob : Dict String ℕ
  runsById : Dict String ℕ
  latestRunsByTask : Dict String ℕ
  storeLock : Gate Owner StoreOp
  running : Bool
  loop : LoopPhase
  calls : Dict ℕ Call

/-- A scheduler over a store that was loaded. -/
def SchedulerState.new (loaded : List ScheduledTask) : SchedulerState where
  heap := loaded.foldl (fun heap task => heap.set task.id task) Dict.empty
  tasks := (loaded.map ScheduledTask.id).dedup
  file := (loaded.map ScheduledTask.id).dedup
  activeTaskIds := ∅
  runs := Dict.empty
  nextRun := 0
  backgroundRuns := ∅
  runsByTask := Dict.empty
  runsByJob := Dict.empty
  runsById := Dict.empty
  latestRunsByTask := Dict.empty
  storeLock := Gate.new
  running := false
  loop := .stopped
  calls := Dict.empty

namespace SchedulerState

/-- A change of a task, which everyone who holds it sees. -/
def mapTask (s : SchedulerState) (id : String) (f : ScheduledTask → ScheduledTask) :
    SchedulerState :=
  match s.heap.get id with
  | none => s
  | some task => { s with heap := s.heap.set id (f task) }

def mapRun (s : SchedulerState) (k : ℕ) (f : ScheduledRun → ScheduledRun) : SchedulerState :=
  match s.runs.get k with
  | none => s
  | some run => { s with runs := s.runs.set k (f run) }

def request (s : SchedulerState) (o : Owner) (op : StoreOp) : SchedulerState :=
  { s with storeLock := s.storeLock.request o op }

/-- A coroutine goes on without the store. -/
def leave (s : SchedulerState) (o : Owner) : SchedulerState :=
  { s with storeLock := s.storeLock.leave o }

/-- A coroutine takes what the store gave it. -/
def take (s : SchedulerState) (o : Owner) (op : StoreOp) (ok : Bool) : SchedulerState :=
  { s with storeLock := s.storeLock.take (o, op, ok) }

def setCall (s : SchedulerState) (n : ℕ) (call : Call) : SchedulerState :=
  { s with calls := s.calls.set n call }

def endCall (s : SchedulerState) (n : ℕ) : SchedulerState := { s with calls := s.calls.erase n }

def resolveRun (s : SchedulerState) (key : String) : Option ℕ :=
  (s.runsByTask.get key).or ((s.runsByJob.get key).or
    ((s.runsById.get key).or (s.latestRunsByTask.get key)))

/-! ## The store -/

/-- `ScheduleStore.upsert`; the file is written where `saved` holds. -/
def upsert (s : SchedulerState) (id : String) (saved : Bool) : SchedulerState :=
  let tasks := if id ∈ s.tasks then s.tasks else s.tasks ++ [id]
  { s with tasks, file := if saved then tasks else s.file }

def remove (s : SchedulerState) (id : String) (saved : Bool) : SchedulerState :=
  let tasks := s.tasks.filter (fun other => other ≠ id)
  { s with tasks, file := if saved then tasks else s.file }

def apply (s : SchedulerState) (now : ℚ) (saved : Bool) : StoreOp → SchedulerState
  | .upsert id => s.upsert id saved
  | .remove id => s.remove id saved
  | .enable id enabled =>
    if id ∈ s.tasks then (s.mapTask id (ScheduledTask.setEnabled enabled now)).upsert id saved
    else s
  | .read _ => s

/-! ## Queueing a task -/

/-- The registries without a run that is over. -/
def forget (s : SchedulerState) (e : String × ℕ) : SchedulerState :=
  match s.runs.get e.2 with
  | none => { s with runsById := s.runsById.erase e.1 }
  | some removed =>
    { s with
      runsById := s.runsById.erase e.1
      runsByJob := s.runsByJob.erase removed.jobId
      latestRunsByTask := if s.latestRunsByTask.get removed.taskId = some e.2 then
        s.latestRunsByTask.erase removed.taskId else s.latestRunsByTask }

/-- The oldest run in the registries that is over. -/
def forgettable (s : SchedulerState) : Option (String × ℕ) :=
  s.runsById.entries.find? (fun e =>
    (s.runs.get e.2).any (fun run => run.status ∈ terminalRunStatuses))

/-- `_trim_run_history`, from so many runs on. -/
def trimRunHistory (maxRuns : ℕ) : ℕ → SchedulerState → SchedulerState
  | 0, s => s
  | n + 1, s =>
    if s.runsById.keys.length ≤ maxRuns then s
    else match s.forgettable with
      | none => s
      | some e => trimRunHistory maxRuns n (s.forget e)

/-- `_trim_run_history`. -/
def trim (s : SchedulerState) : SchedulerState := trimRunHistory 256 s.runsById.keys.length s

/-- A run is registered and its background task created. -/
def launch (s : SchedulerState) (id : String) (arrival : Arrival) : SchedulerState :=
  let k := s.nextRun
  let run : ScheduledRun := {
    taskId := id, runId := arrival.runId, jobId := arrival.jobId, requestId := arrival.requestId }
  let s := { s with
    activeTaskIds := insert id s.activeTaskIds
    runs := s.runs.set k run
    nextRun := k + 1
    runsByTask := s.runsByTask.set id k
    runsByJob := s.runsByJob.set arrival.jobId k
    runsById := s.runsById.set arrival.runId k
    latestRunsByTask := s.latestRunsByTask.set id k }
  let s := s.mapTask id fun task => { task with
    lastRunId := some arrival.runId
    lastJobId := some arrival.jobId
    lastRequestId := some arrival.requestId }
  { s.trim with backgroundRuns := insert k s.backgroundRuns }

/-- `_queue_task` up to its write, and whether it comes to one. -/
def queueTask (s : SchedulerState) (id : String) (arrival : Arrival) : SchedulerState × Bool :=
  if id ∈ s.activeTaskIds then (s, false)
  else if arrival.room then (s.launch id arrival, false)
  else (s.mapTask id (ScheduledTask.deferred arrival.now), true)

/-- The loop goes through the rest of its snapshot, as far as a task that is refused. -/
def scan (arrivals : String → Arrival) (now : ℚ) : List String → SchedulerState → SchedulerState
  | [], s => { s with loop := .waiting }
  | id :: rest, s =>
    match s.heap.get id with
    | none => scan arrivals now rest s
    | some task =>
      if task.due now then
        match s.queueTask id (arrivals id) with
        | (s, false) => scan arrivals now rest s
        | (s, true) => { s.request .loop (.upsert id) with loop := .deferring now rest }
      else scan arrivals now rest s

/-! ## The end of a run -/

/-- The run is over, and its callback is run. -/
def endRun (s : SchedulerState) (k : ℕ) : SchedulerState :=
  let s := s.mapRun k fun run => { run with phase := .done }
  { s with backgroundRuns := s.backgroundRuns.erase k }

/-- The `finally` block of `_run_task`, up to its write. -/
def finalize (s : SchedulerState) (k : ℕ) (now : ℚ) : SchedulerState :=
  match s.runs.get k with
  | none => s
  | some run =>
    let s := { s with
      activeTaskIds := s.activeTaskIds.erase run.taskId
      runsByTask := s.runsByTask.erase run.taskId }
    let s := s.mapTask run.taskId (ScheduledTask.rescheduled now)
    if run.taskId ∈ s.tasks then
      (s.mapRun k fun run => { run with phase := .closing }).request (.run k) (.upsert run.taskId)
    else s.trim.endRun k

/-! ## Calls -/

/-- `run_now` after it took the lock. -/
def readTask (s : SchedulerState) (n : ℕ) (id : String) : SchedulerState :=
  if id ∈ s.tasks then
    if id ∈ s.activeTaskIds then s.endCall n
    else
      let s := s.mapTask id fun task => { task with lastStatus := some "queued" }
      (s.setCall n (.queueing id)).request (.call n) (.upsert id)
  else s.endCall n

/-- `run_now` after its write: the task is queued. -/
def queueNow (s : SchedulerState) (n : ℕ) (id : String) (arrival : Arrival) : SchedulerState :=
  match s.queueTask id arrival with
  | (s, false) => s.endCall n
  | (s, true) => (s.setCall n (.deferring id)).request (.call n) (.upsert id)

/-- A call that waited for a run goes on: `remove_task` asks for the removal. -/
def afterCancel (s : SchedulerState) (n : ℕ) : Option String → SchedulerState
  | none => s.endCall n
  | some id => (s.setCall n (.removing id)).request (.call n) (.remove id)

/-- `cancel`, on its own or first in `remove_task`. -/
def cancel (s : SchedulerState) (n : ℕ) (key : String) (removes : Option String) :
    SchedulerState :=
  match s.resolveRun key with
  | none => s.afterCancel n removes
  | some k =>
    if (s.runs.get k).any ScheduledRun.unfinished then
      (s.mapRun k fun run => { run with cancelling := true }).setCall n (.cancelling k removes)
    else s.afterCancel n removes

/-- The tasks a start finds queued or running. -/
def interruptedTasks (s : SchedulerState) : List String :=
  s.tasks.filter (fun id => (s.heap.get id).any
    (fun task => task.lastStatus = some "queued" ∨ task.lastStatus = some "running"))

/-- The writes of a start, and the loop after them. -/
def recover (s : SchedulerState) (n : ℕ) : List String → SchedulerState
  | [] => { s.endCall n with running := true, loop := .waiting }
  | id :: rest => (s.setCall n (.recovering rest)).request (.call n) (.upsert id)

/-- `start`, as far as its first write. -/
def start (s : SchedulerState) (n : ℕ) (now : ℚ) : SchedulerState :=
  let interrupted := s.interruptedTasks
  (interrupted.foldl (fun s id => s.mapTask id (ScheduledTask.interrupted now)) s).recover n
    interrupted

end SchedulerState

end Scheduler
