import Yuizaki.Scheduler.State
import Yuizaki.Lib.Run

/- The steps of the scheduler.

   The event loop runs one coroutine at a time, from one `await` to the next, so a step is
   what a coroutine does in between; threads run the jobs of the store at any time. The job
   log, the turn service, the file system and the clock answer as they like. A cancelled
   coroutine gets its `CancelledError` where it waits: a background run that has not begun is
   dropped without a step of its body. -/
namespace Scheduler

open Transition

/-- How the body of a run goes on: it awaits the turn, it awaits the durable commit of a turn
that was cut off, or it comes to its `finally` block. A task keeps the status and the summary
of its run. -/
inductive Settling where
  | works
  | reconciles (lastStatus : String) (lastRunSummary : Option String)
  | ends (lastStatus : String) (lastRunSummary : Option String) (status : String) (now : ℚ)

def SchedulerState.settle (s : SchedulerState) (k : ℕ) (run : ScheduledRun) :
    Settling → SchedulerState
  | .works => s.mapRun k fun run => { run with phase := .working, status := "running" }
  | .reconciles lastStatus lastRunSummary =>
    (s.mapTask run.taskId fun task => { task with
      lastStatus := some lastStatus
      lastRequestId := some run.requestId
      lastRunSummary }).mapRun k fun run => { run with phase := .reconciling }
  | .ends lastStatus lastRunSummary status now =>
    ((s.mapTask run.taskId fun task => { task with
      lastStatus := some lastStatus
      lastRequestId := some run.requestId
      lastRunSummary }).mapRun k fun run => { run with status }).finalize k now

/-- Whether the body can go on so from a phase; where its first write did not come back it
has no context, and so no turn to await and no commit to look for. -/
def RunPhase.settles : RunPhase → Settling → Bool → Bool
  | .starting, .ends .., _ => true
  | .starting, _, saved => saved
  | .working, .works, _ => false
  | .working, _, _ => true
  | .reconciling, .ends .., _ => true
  | _, _, _ => false

inductive SchedulerLabel where
  | add (n : ℕ) (task : ScheduledTask)
  | setEnabled (n : ℕ) (id : String) (enabled : Bool)
  | runNow (n : ℕ) (id : String)
  | cancel (n : ℕ) (key : String) (removes : Option String)
  | start (n : ℕ) (now : ℚ)
  | stop
  | stopRuns
  | waited (n : ℕ)
  | interrupted (n : ℕ)
  | returned (n : ℕ) (op : StoreOp) (saved : Bool) (arrival : Arrival)
  | abandoned (n : ℕ)
  | wake (arrivals : String → Arrival) (now : ℚ)
  | loopReturned (arrivals : String → Arrival) (saved : Bool)
  | grant (o : Owner) (op : StoreOp)
  | executed (o : Option Owner) (op : StoreOp) (now : ℚ) (saved : Bool)
  | begin (k : ℕ)
  | settled (k : ℕ) (how : Settling)
  | saved (k : ℕ) (ok : Bool) (how : Settling)
  | raised (k : ℕ) (how : Settling)
  | dropped (k : ℕ)
  | closed (k : ℕ)

def SchedulerState.callReturned (s : SchedulerState) (n : ℕ) (saved : Bool) (arrival : Arrival) :
    Call → SchedulerState
  | .queueing id => if saved then s.queueNow n id arrival else s.endCall n
  | .recovering rest => if saved then s.recover n rest else s.endCall n
  | _ => s.endCall n

/-- The loop after the store answered: a write that failed ends it. -/
def SchedulerState.loopReturned (s : SchedulerState) (arrivals : String → Arrival) (now : ℚ)
    (rest : List String) (saved : Bool) : SchedulerState :=
  if saved then SchedulerState.scan arrivals now rest s else { s with loop := .stopped }

inductive SchedulerStep (s : SchedulerState) : SchedulerLabel → SchedulerState → Prop
  /-- `add_once` and `add_interval`: the task is a new object under a new id. -/
  | add (n : ℕ) (task : ScheduledTask) (hcall : s.calls.get n = none)
      (hnew : s.heap.get task.id = none) (hid : task.id ∉ s.tasks) :
      SchedulerStep s (.add n task)
        ((({ s with heap := s.heap.set task.id task }).setCall n (.adding task.id)).request
          (.call n) (.upsert task.id))
  | setEnabled (n : ℕ) (id : String) (enabled : Bool) (hcall : s.calls.get n = none) :
      SchedulerStep s (.setEnabled n id enabled)
        ((s.setCall n (.enabling id)).request (.call n) (.enable id enabled))
  | runNow (n : ℕ) (id : String) (hcall : s.calls.get n = none) :
      SchedulerStep s (.runNow n id)
        (if s.storeLock.isFree then s.readTask n id
        else { s.setCall n (.reading id) with storeLock := s.storeLock.wait (.call n) (.read id) })
  /-- `cancel`, or `remove_task` of a task that was loaded or added. -/
  | cancel (n : ℕ) (key : String) (removes : Option String) (hcall : s.calls.get n = none)
      (hremoves : removes = none ∨ removes = some key ∧ s.heap.get key ≠ none) :
      SchedulerStep s (.cancel n key removes) (s.cancel n key removes)
  | start (n : ℕ) (now : ℚ) (hcall : s.calls.get n = none) (hloop : s.loop = .stopped) :
      SchedulerStep s (.start n now) (s.start n now)
  | stop : SchedulerStep s .stop { s.leave .loop with running := false, loop := .stopped }
  | stopRuns :
      SchedulerStep s .stopRuns
        { s with
          runs := s.runs.mapValues (fun k run =>
            if k ∈ s.backgroundRuns ∧ run.unfinished then { run with cancelling := true } else run)
          backgroundRuns := ∅ }
  | waited (n k : ℕ) (removes : Option String) (run : ScheduledRun)
      (hcall : s.calls.get n = some (.cancelling k removes)) (hrun : s.runs.get k = some run)
      (hdone : run.unfinished = false) :
      SchedulerStep s (.waited n) (s.afterCancel n removes)
  /-- A caller of `cancel` that is cancelled passes it on to the run, and goes on. -/
  | interrupted (n k : ℕ) (removes : Option String)
      (hcall : s.calls.get n = some (.cancelling k removes)) :
      SchedulerStep s (.interrupted n)
        ((s.mapRun k fun run => { run with cancelling := run.unfinished || run.cancelling }
          ).afterCancel n removes)
  | returned (n : ℕ) (call : Call) (op : StoreOp) (saved : Bool) (arrival : Arrival)
      (hcall : s.calls.get n = some call)
      (hback : (Owner.call n, op, saved) ∈ s.storeLock.returned) :
      SchedulerStep s (.returned n op saved arrival)
        ((s.take (.call n) op saved).callReturned n saved arrival call)
  | abandoned (n : ℕ) (call : Call) (hcall : s.calls.get n = some call)
      (hwaits : ∀ k removes, call ≠ .cancelling k removes) :
      SchedulerStep s (.abandoned n) ((s.leave (.call n)).endCall n)
  | wake (arrivals : String → Arrival) (now : ℚ) (hloop : s.loop = .waiting) :
      SchedulerStep s (.wake arrivals now)
        (if s.running then SchedulerState.scan arrivals now s.tasks s else { s with loop := .stopped })
  | loopReturned (arrivals : String → Arrival) (now : ℚ) (rest : List String) (id : String)
      (saved : Bool) (hloop : s.loop = .deferring now rest)
      (hback : (Owner.loop, .upsert id, saved) ∈ s.storeLock.returned) :
      SchedulerStep s (.loopReturned arrivals saved)
        ((s.take .loop (.upsert id) saved).loopReturned arrivals now rest saved)
  /-- The lock goes on to the next that waits: a read is done at once, anything else is handed
  to a thread. -/
  | grantRead (n : ℕ) (id : String) (rest : List (Owner × StoreOp))
      (hfree : s.storeLock.holder = none)
      (hwaiters : s.storeLock.waiters = (.call n, .read id) :: rest) :
      SchedulerStep s (.grant (.call n) (.read id))
        (({ s with storeLock := { s.storeLock with waiters := rest } }).readTask n id)
  | grant (o : Owner) (op : StoreOp) (rest : List (Owner × StoreOp))
      (hfree : s.storeLock.holder = none) (hwaiters : s.storeLock.waiters = (o, op) :: rest)
      (hop : ∀ id, op ≠ .read id) :
      SchedulerStep s (.grant o op)
        { s with storeLock := ({ s.storeLock with waiters := rest }).submit o op }
  | executed (o : Option Owner) (op : StoreOp) (now : ℚ) (saved : Bool)
      (hjob : (o, op) ∈ s.storeLock.jobs) :
      SchedulerStep s (.executed o op now saved)
        { s.apply now saved op with storeLock := s.storeLock.ran (o, op) saved }
  /-- A run that has not been cancelled begins: its task is written as running. -/
  | begin (k : ℕ) (run : ScheduledRun) (hrun : s.runs.get k = some run)
      (hfresh : run.phase = .fresh) (hlive : run.cancelling = false) :
      SchedulerStep s (.begin k)
        (((s.mapTask run.taskId fun task => { task with
          lastStatus := some "running", lastRequestId := some run.requestId }).mapRun k
            fun run => { run with phase := .starting }).request (.run k) (.upsert run.taskId))
  | saved (k : ℕ) (run : ScheduledRun) (ok : Bool) (how : Settling)
      (hrun : s.runs.get k = some run) (hstarting : run.phase = .starting)
      (hlive : run.cancelling = false)
      (hback : (Owner.run k, .upsert run.taskId, ok) ∈ s.storeLock.returned)
      (hhow : run.phase.settles how ok = true) :
      SchedulerStep s (.saved k ok how)
        ((s.take (.run k) (.upsert run.taskId) ok).settle k run how)
  | settled (k : ℕ) (run : ScheduledRun) (how : Settling) (hrun : s.runs.get k = some run)
      (hphase : run.phase = .working ∨ run.phase = .reconciling) (hlive : run.cancelling = false)
      (hhow : run.phase.settles how true = true) :
      SchedulerStep s (.settled k how) (s.settle k run how)
  /-- A run that was cancelled gets its `CancelledError` in its body. -/
  | raised (k : ℕ) (run : ScheduledRun) (how : Settling) (hrun : s.runs.get k = some run)
      (hcancelling : run.cancelling = true) (hhow : run.phase.settles how false = true) :
      SchedulerStep s (.raised k how)
        (((s.leave (.run k)).mapRun k fun run => { run with cancelling := false }).settle k run
          how)
  /-- A run that was cancelled before its first step. -/
  | dropped (k : ℕ) (run : ScheduledRun) (hrun : s.runs.get k = some run)
      (hcancelling : run.cancelling = true) (hfresh : run.phase = .fresh) :
      SchedulerStep s (.dropped k) (s.endRun k)
  /-- The last write of a run came back, or the run was cancelled in it. -/
  | closed (k : ℕ) (run : ScheduledRun) (ok : Bool) (hrun : s.runs.get k = some run)
      (hclosing : run.phase = .closing) (hlive : run.cancelling = false)
      (hback : (Owner.run k, .upsert run.taskId, ok) ∈ s.storeLock.returned) :
      SchedulerStep s (.closed k)
        ((if ok then (s.take (.run k) (.upsert run.taskId) ok).trim
          else s.take (.run k) (.upsert run.taskId) ok).endRun k)
  | closedEarly (k : ℕ) (run : ScheduledRun) (hrun : s.runs.get k = some run)
      (hclosing : run.phase = .closing) (hcancelling : run.cancelling = true) :
      SchedulerStep s (.closed k) ((s.leave (.run k)).endRun k)

end Scheduler
