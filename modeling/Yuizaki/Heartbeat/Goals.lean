import Yuizaki.Lib.Dict
import Yuizaki.Lib.Json
import Yuizaki.Lib.PyStr
import Yuizaki.Lib.Run
import Mathlib.Data.List.Sort
import Mathlib.Data.Rat.Defs
import Mathlib.Algebra.Order.Ring.Unbundled.Rat

/- The goal queue of the heartbeat (`modules/system/heartbeat.py`) and the file that keeps it
   (`modules/system/heartbeat_goal_store.py`).

   A goal is registered, finished once, and evicted when the queue is full. Every change is made
   under the goal lock, which also takes the snapshot that is written to the file afterwards,
   outside the lock: between the two the process can die, and of two snapshots the older can be
   written last. A restart reads the file and calls every goal interrupted that is not terminal
   there. -/
namespace Heartbeat

open Transition

def maxHeartbeatGoals : ℕ := 32

/-- The state of a goal; a file may have any text in the place of `pending`. -/
inductive GoalState where
  | pending
  | completed
  | cancelled
  | expired
  | failed
  | interrupted
deriving DecidableEq

/-- `{'completed', 'cancelled', 'expired', 'failed', 'interrupted'}`. -/
def GoalState.terminal : GoalState → Bool
  | .pending => false
  | _ => true

/-- `{'completed', 'cancelled', 'expired', 'failed'}`. -/
def GoalState.evictable : GoalState → Bool
  | .completed | .cancelled | .expired | .failed => true
  | _ => false

inductive Outcome where
  | delivered
  | suppressed
  | expired
  | cancelled
  | failed
deriving DecidableEq

/-- The state of a goal that ends with an outcome. -/
def Outcome.goalState : Outcome → GoalState
  | .delivered | .suppressed => .completed
  | .expired => .expired
  | .cancelled => .cancelled
  | .failed => .failed

structure Goal where
  goalId : String
  kind : String
  dueAt : ℚ
  priority : ℤ
  cooldownSeconds : ℚ
  expiresAt : Option ℚ
  state : GoalState
  createdAt : ℚ
  updatedAt : ℚ
  payload : Json
  reason : Option String := none
deriving DecidableEq

/-- A `float` argument. -/
inductive Number where
  | finite (value : ℚ)
  | notFinite
deriving DecidableEq

def Number.value? : Number → Option ℚ
  | .finite value => some value
  | .notFinite => none

def Number.optional? : Option Number → Option (Option ℚ)
  | none => some none
  | some number => number.value?.map some

/-- The arguments of `register_goal`. -/
structure GoalRequest where
  kind : String
  dueAt : Option Number := none
  priority : ℤ := 0
  cooldownSeconds : Number := .finite 0
  expiresAt : Option Number := none
  payload : Json := .obj []
deriving DecidableEq

/-- The numbers of a request are finite. -/
def GoalRequest.Finite (r : GoalRequest) : Prop :=
  (∀ due, r.dueAt = some due → due ≠ .notFinite) ∧ (∀ expiry, r.expiresAt = some expiry → expiry ≠ .notFinite) ∧
    r.cooldownSeconds ≠ .notFinite

/-- The goal that a request asks for; none where a number is not finite. -/
def GoalRequest.goal (r : GoalRequest) (goalId : String) (now : ℚ) : Option Goal := do
  let rawDue ← (r.dueAt.getD (.finite now)).value?
  let rawExpiry ← Number.optional? r.expiresAt
  let rawCooldown ← r.cooldownSeconds.value?
  let due := max 0 rawDue
  pure {
    goalId
    kind := if r.kind = "" then "proactive" else r.kind
    dueAt := due
    priority := max (-10) (min 10 r.priority)
    cooldownSeconds := max 0 rawCooldown
    expiresAt := rawExpiry.map fun expiry => max due expiry
    state := .pending
    createdAt := now
    updatedAt := now
    payload := r.payload }

/-- The order of a snapshot: by priority, due time and id. -/
def Goal.before (a b : Goal) : Bool :=
  if a.priority ≠ b.priority then b.priority < a.priority
  else if a.dueAt ≠ b.dueAt then a.dueAt < b.dueAt
  else a.goalId ≤ b.goalId

/-- `_goal_snapshot_unlocked`. -/
def goalSnapshot (goals : Dict String Goal) : List Goal :=
  ((goals.entries.map fun e =>
    { e.2 with priority := max (-10) (min 10 e.2.priority), dueAt := max 0 e.2.dueAt }).insertionSort
      fun a b => a.before b).take maxHeartbeatGoals

/-- `_valid_goal`, for goals whose numbers are finite. -/
def validGoal (goal : Goal) : Bool := PyStr.strip goal.goalId ≠ "" && PyStr.strip goal.kind ≠ ""

/-- `goals[-n:]`. -/
def lastGoals (goals : List Goal) : List Goal := goals.drop (goals.length - maxHeartbeatGoals)

/-- What `HeartbeatGoalStore.save` writes. -/
def savedGoals (goals : List Goal) : List Goal := (lastGoals goals).filter validGoal

/-- What `HeartbeatGoalStore.load` reads. -/
def readGoals (file : List Goal) : List Goal := lastGoals (file.filter validGoal)

/-- The goals of a file under their ids, as the file has them. -/
def loadedGoals (file : List Goal) : Dict String Goal :=
  ((lastGoals (readGoals file)).filter fun goal => PyStr.strip goal.goalId ≠ "").foldl
    (fun goals goal => goals.set (PyStr.strip goal.goalId) goal) Dict.empty

def Goal.restored (now : ℚ) (goal : Goal) : Goal :=
  if goal.state.terminal = true then goal
  else { goal with state := .interrupted, reason := some "runtime_restart", updatedAt := now }

/-- The queue of a process, the snapshots it has still to write, the file, and the ids that were
ever given to a goal. -/
structure GoalQueue where
  goals : Dict String Goal
  saves : List (List Goal)
  file : List Goal
  ids : List String
deriving DecidableEq

namespace GoalQueue

variable (s : GoalQueue)

/-- A changed queue, whose snapshot is to be written. -/
def changed (goals : Dict String Goal) : GoalQueue := { s with goals, saves := s.saves ++ [goalSnapshot goals] }

/-- `register_goal`; none is the empty answer. -/
def registerGoal (goalId : String) (r : GoalRequest) (now : ℚ) : Option GoalQueue := do
  let goal ← r.goal goalId now
  let s := { s with ids := goalId :: s.ids }
  if maxHeartbeatGoals ≤ s.goals.keys.length then
    let terminal ← s.goals.entries.find? fun e => e.2.state.evictable
    pure (s.changed ((s.goals.erase terminal.1).set goalId goal))
  else pure (s.changed (s.goals.set goalId goal))

/-- `_finish_goal`; the end of every way a goal is completed or cancelled. -/
def finishGoal (goalId : String) (outcome : Outcome) (reason : Option String) (now : ℚ) : GoalQueue :=
  match s.goals.get goalId with
  | none => s
  | some goal =>
    if goal.state.terminal = true then s
    else s.changed (s.goals.set goalId { goal with
      state := outcome.goalState, updatedAt := now
      reason := if reason.getD "" = "" then goal.reason else reason })

/-- `_persist_goal_snapshot` of a snapshot that was taken; one that fails leaves the file. -/
def save (i : ℕ) (written : Bool) : GoalQueue :=
  match s.saves[i]? with
  | none => s
  | some snapshot =>
    { s with saves := s.saves.eraseIdx i, file := if written then savedGoals snapshot else s.file }

/-- A process ends and another starts (`_load_goals`): the file is read, or it cannot be, and
where a goal was interrupted the queue is written back, or that fails. -/
def restart (readable written : Bool) (now : ℚ) : GoalQueue :=
  let loaded := if readable then loadedGoals s.file else Dict.empty
  let goals := loaded.mapValues fun _ goal => goal.restored now
  let isChanged := loaded.entries.any fun e => !e.2.state.terminal
  { s with
    goals, saves := []
    file := if isChanged && written then savedGoals (goalSnapshot goals) else s.file }

end GoalQueue

inductive GoalOp where
  | register (goalId : String) (r : GoalRequest) (now : ℚ)
  | finish (goalId : String) (outcome : Outcome) (reason : Option String) (now : ℚ)
  | persist
  | save (i : ℕ) (written : Bool)
  | restart (readable written : Bool) (now : ℚ)

/-- A step; `uuid4` gives a registration an id that no goal ever had, without blanks. -/
def GoalQueue.next (s : GoalQueue) : GoalOp → Option GoalQueue
  | .register goalId r now =>
    if goalId ∉ s.ids ∧ PyStr.strip goalId = goalId then some ((s.registerGoal goalId r now).getD s) else none
  | .finish goalId outcome reason now => some (s.finishGoal goalId outcome reason now)
  | .persist => some (s.changed s.goals)
  | .save i written => some (s.save i written)
  | .restart readable written now => some (s.restart readable written now)

def GoalQueue.Step (s : GoalQueue) (op : GoalOp) (s' : GoalQueue) : Prop := s.next op = some s'

def GoalQueue.start (file : List Goal) (now : ℚ) : GoalQueue :=
  GoalQueue.restart ⟨Dict.empty, [], file, (loadedGoals file).keys⟩ true false now

end Heartbeat
