import Yuizaki.Desktop.Steps

/- The tool envelope of a live action, and the way to it from the moment the adapter is entered
   (`_run_driver`, the end of `perform`, and `_result`).

   Two threads are under way: the driver's, which runs the adapter, and the one that waits for
   it; between two of their steps the sections of any other call can come in. An adapter is any
   machine that asks the host one thing after the other; the Windows adapter is one. -/
namespace Desktop

/-! ## Envelopes -/

inductive EffectOutcome where
  | knownSuccess
  | knownFailure
  | unknownEffect
deriving DecidableEq

def EffectOutcome.text : EffectOutcome → String
  | .knownSuccess => "known_success"
  | .knownFailure => "known_failure"
  | .unknownEffect => "unknown_effect"

/-- `ToolResultEnvelope`, of a call without a receipt. -/
structure ToolResultEnvelope where
  success : Bool
  content : String
  toolName : String
  data : Json
  error : Option String
  outcome : EffectOutcome
  retryable : Bool
deriving DecidableEq

/-- What `__post_init__` makes of the outcome and of the flag that were given. -/
def resolve (success : Bool) (outcome : Option EffectOutcome) (retryable : Option Bool) :
    Except String (EffectOutcome × Bool) :=
  let resolved := outcome.getD (if success then .knownSuccess else .knownFailure)
  let retry := retryable.getD (decide (resolved = .knownFailure))
  if resolved = .knownSuccess ∧ success = false then .error "known_success requires success=True"
  else if resolved ≠ .knownSuccess ∧ success = true then .error (resolved.text ++ " requires success=False")
  else if resolved = .unknownEffect ∧ retry = true then
    .error "unknown_effect is terminal and cannot be retryable"
  else .ok (resolved, retry)

/-- What an envelope does with the texts of the model: it hides secrets and writes a document. -/
structure Writer where
  redact : Json → Json
  dumps : Json → String

def result (writer : Writer) (toolName : String) : Except DesktopActionError Json → Except String ToolResultEnvelope
  | .ok value => do
    let (outcome, retryable) ← resolve true none none
    pure ⟨true, writer.dumps value, toolName, value, none, outcome, retryable⟩
  | .error e => do
    let unknown := decide (e.code = "DA_OUTCOME_UNKNOWN")
    let (outcome, retryable) ← resolve false
      (some (if unknown then .unknownEffect else .knownFailure)) (if unknown then some false else none)
    let category := match e.category.filter (· ≠ "") with
      | none => []
      | some category => [("failure_category", .str category)]
    pure ⟨false, "", toolName, .obj ([("code", .str e.code)] ++ category), some (e.code ++ ": " ++ e.message),
      outcome, retryable⟩

/-! ## Adapters -/

structure NativeDesktopResult where
  category : String
  evidence : List (String × String)
deriving DecidableEq

/-- What is raised: the module's own error, another exception, or one that no handler of the
driver takes. -/
inductive Raised where
  | action (e : DesktopActionError)
  | exception
  | base
deriving DecidableEq

/-- What the host answers when an adapter asks it, or that the question raises. -/
inductive Answer where
  | target (found : Option NativeWindowTarget)
  | number (n : ℤ)
  | time (t : ℚ)
  | raised (raised : Raised)
deriving DecidableEq

/-- What an adapter does with an answer: it goes on, looks at the fence and goes on, goes on
after its native effect, raises, or returns; a value that is no result is none. -/
inductive Move (σ : Type) where
  | goesOn (next : σ)
  | checks (next : σ)
  | effects (next : σ)
  | raises (raised : Raised)
  | answers (result : Option NativeDesktopResult)

/-- A `DesktopActionAdapter`: where `focus` and `request_close` begin, and what they do next. -/
structure Adapter (σ : Type) where
  entered : NativeWindowTarget → Action → σ
  step : σ → Answer → Move σ

namespace Windows

/-- Where `WindowsDesktopActionAdapter.focus` and `request_close` are. -/
inductive State where
  | revalidate (target : NativeWindowTarget) (action : Action)
  | check (current : NativeWindowTarget) (action : Action)
  | call (current : NativeWindowTarget) (action : Action)
  | focused (current : NativeWindowTarget)
  | foreground (current : NativeWindowTarget)
  | posted (current : NativeWindowTarget)
  | observeTime (current : NativeWindowTarget) (deadline : ℚ)
  | observeWindow (current : NativeWindowTarget) (deadline : ℚ)
  | observeFence (current : NativeWindowTarget) (deadline : ℚ)
  | observed (current : NativeWindowTarget)
  | closed (current : NativeWindowTarget)
deriving DecidableEq

def revalidate (target : NativeWindowTarget) (action : Action) : Option NativeWindowTarget → Move State
  | none => .raises (.action ⟨"DA_TARGET_GONE", "target window no longer exists", none⟩)
  | some current =>
    if current.fingerprint ≠ target.fingerprint then
      .raises (.action ⟨"DA_TARGET_RECYCLED", "target window identity changed", none⟩)
    else .goesOn (.check current action)

/-- `SetForegroundWindow` and `PostMessageW`. -/
def call (current : NativeWindowTarget) (answer : ℤ) : Action → Move State
  | .focus =>
    if answer = 0 then .raises (.action ⟨"DA_FOCUS_REJECTED", "Windows rejected foreground focus", none⟩)
    else .effects (.focused current)
  | .requestClose =>
    if answer = 0 then .raises (.action ⟨"DA_CLOSE_REJECTED", "Windows rejected WM_CLOSE", none⟩)
    else .effects (.posted current)

/-- `WindowsDesktopActionAdapter`, with its `_close_observation_seconds`. -/
def adapter (closeObservationSeconds : ℚ) : Adapter State where
  entered := .revalidate
  step
    | .revalidate target action, .target found => revalidate target action found
    | .check current action, _ => .checks (.call current action)
    | .call current action, .number answer => call current answer action
    | .focused current, _ => .checks (.foreground current)
    | .foreground current, .number answer =>
      if answer ≠ current.nativeId then
        .raises (.action ⟨"DA_POSTCONDITION_FAILED", "foreground focus was not established", none⟩)
      else .answers (some ⟨"completed", [("foreground_verified", "true")]⟩)
    | .posted current, .time t => .goesOn (.observeTime current (t + closeObservationSeconds))
    | .observeTime current deadline, .time t =>
      if t < deadline then .goesOn (.observeWindow current deadline) else .goesOn (.observed current)
    | .observeWindow current deadline, .number answer =>
      if answer ≠ 0 then .goesOn (.observeFence current deadline) else .goesOn (.observed current)
    | .observeFence current deadline, _ => .checks (.observeTime current deadline)
    | .observed current, _ => .checks (.closed current)
    | .closed _, .number answer =>
      .answers (some ⟨"requested", [("message", "WM_CLOSE"),
        ("observed_state", if answer = 0 then "closed" else "still_open")]⟩)
    | _, .raised raised => .raises raised
    | _, _ => .raises .exception

end Windows

/-! ## The driver thread and the one that waits -/

/-- What the driver thread leaves: nothing where no handler took what was raised. -/
abbrev Left : Type := Option (Except Raised (Option NativeDesktopResult))

/-- Where the driver thread is: in the adapter, past it, past the queue, and over. -/
inductive DriverPhase (σ : Type) where
  | adapter (s : σ)
  | leaving (result : Option NativeDesktopResult)
  | put (left : Left)
  | ended (left : Left)

inductive WaiterPhase where
  | head
  | looking
  | timing
  | joined
  | taking
  | returning (result : NativeDesktopResult)
  | returned (answer : Except String ToolResultEnvelope)

/-- Where the waiting thread can be while the driver thread runs. -/
inductive Loop where
  | head
  | looking
  | timing
deriving DecidableEq

/-- A place of the loop as one of the thread. -/
def Loop.phase : Loop → WaiterPhase
  | .head => .head
  | .looking => .looking
  | .timing => .timing

/-- A live action whose adapter was entered: `effected` and `rejected` are a record for the
statements, of whether the native effect took place and of whether the adapter raised before. -/
structure ActionRun (σ : Type) where
  system : System
  live : LiveAction
  current : NativeWindowTarget
  toolName : String
  driver : DriverPhase σ
  effected : Bool
  rejected : Bool
  waiter : WaiterPhase

/-- A section of another call, a step of the driver thread, or one of the waiting thread, which
may find its time over. -/
inductive RunEvent where
  | world (e : Event)
  | driver (answer : Answer)
  | waiter (late : Bool)

def raiseIfStopped (c : Controller) (now : ℚ) (live : LiveAction) : Section Unit :=
  let c := c.expireHostLease now
  if c.fenceMoved live.fence = true ∨ c.grantIsActiveForLease now live.lease live.action = false then
    (.error c.fenceError, c)
  else (.ok (), c)

def normalizeAdapterError : Raised → DesktopActionError
  | .action e =>
    ⟨e.code, "native desktop operation was rejected", some ((e.category.filter (· ≠ "")).getD "adapter_rejection")⟩
  | .exception | .base => ⟨"DA_ADAPTER_FAILURE", "native desktop adapter failed", some "adapter_error"⟩

/-- What `run` puts for what it catches. -/
def Raised.left : Raised → Left
  | .base => none
  | raised => some (.error raised)

/-- What the waiting thread makes of what the driver thread left. -/
def takeResult : Left → Except DesktopActionError NativeDesktopResult
  | none => .error ⟨"DA_ADAPTER_FAILURE", "native driver returned no result", none⟩
  | some (.error raised) => .error (normalizeAdapterError raised)
  | some (.ok none) => .error ⟨"DA_ADAPTER_RESULT_INVALID", "adapter returned an invalid result", none⟩
  | some (.ok (some result)) =>
    if 8 < result.evidence.length ∨
        result.evidence.any (fun item => decide (64 < item.1.length) || decide (256 < item.2.length)) = true then
      .error ⟨"DA_ADAPTER_RESULT_INVALID", "adapter evidence exceeded bounds", none⟩
    else .ok result

namespace ActionRun

variable {σ : Type} (host : Host) (writer : Writer) (adapter : Adapter σ) (r : ActionRun σ)

/-- A look at the fence: what is raised is handed on, and else the run goes on. -/
def looks (now : ℚ) (raises : DesktopActionError → ActionRun σ → ActionRun σ) (goes : ActionRun σ → ActionRun σ) :
    ActionRun σ :=
  let looked := raiseIfStopped r.system.controller now r.live
  let r := { r with system := { r.system with controller := looked.2 } }
  match looked.1 with
  | .error e => raises e r
  | .ok () => goes r

def raises (raised : Raised) : ActionRun σ :=
  { r with
    driver := .put raised.left
    rejected := r.rejected || !r.effected }

def drive (now : ℚ) (answer : Answer) : Option (ActionRun σ) :=
  match r.driver with
  | .adapter s =>
    some (match adapter.step s answer with
      | .goesOn next => { r with driver := .adapter next }
      | .checks next => r.looks now (fun e r => r.raises (.action e)) fun r => { r with driver := .adapter next }
      | .effects next => { r with
          driver := .adapter next
          effected := true }
      | .raises raised => r.raises raised
      | .answers result => { r with driver := .leaving result })
  | .leaving result =>
    some (r.looks now (fun e r => { r with driver := .put (some (.error (.action e))) })
      fun r => { r with driver := .put (some (.ok result)) })
  | .put left => some { r with driver := .ended left }
  | .ended _ => none

def returns (value : Except DesktopActionError Json) : ActionRun σ :=
  { r with waiter := .returned (result writer r.toolName value) }

/-- What `perform` returns of a result. -/
def answer (found : NativeDesktopResult) : Json :=
  .obj [("code", .str (match r.live.action with
      | .focus => "DA_FOCUSED"
      | .requestClose => "DA_CLOSE_REQUESTED")),
    ("action", .str r.live.action.text), ("target_lease", .str r.live.leaseId),
    ("evidence", .obj [
      ("before", .obj [("title", .str (boundedLabel r.current.title)), ("app_label", .str (boundedLabel r.current.appLabel))]),
      ("completion", .str found.category),
      ("adapter", writer.redact (.obj (found.evidence.map fun item => (item.1, .str item.2)))),
      ("feature_revision", .num r.live.fence.featureRevision), ("stop_epoch", .num r.live.fence.stopEpoch)])]

/-- A look of the waiting thread at the fence. -/
def waits (now : ℚ) (next : ActionRun σ → ActionRun σ) : ActionRun σ :=
  r.looks now (fun e r => r.returns writer (.error e)) next

/-- The waiting thread takes what the driver thread left. -/
def takes (left : Left) : ActionRun σ :=
  match takeResult left with
  | .error e => r.returns writer (.error e)
  | .ok found => { r with waiter := .returning found }

def wait (now : ℚ) (late : Bool) : Option (ActionRun σ) :=
  match r.waiter with
  | .head =>
    some (match r.driver with
      | .ended _ => { r with waiter := .joined }
      | _ => { r with waiter := .looking })
  | .looking => some (r.waits writer now fun r => { r with waiter := .timing })
  | .timing =>
    if late then
      some ({ r with system := { r.system with controller := r.system.controller.latchOutcomeUnknown } }.returns writer
        (.error ⟨"DA_OUTCOME_UNKNOWN", "desktop action timed out after a possible native effect", none⟩))
    else some { r with waiter := .head }
  | .joined => some (r.waits writer now fun r => { r with waiter := .taking })
  | .taking =>
    match r.driver with
    | .ended left => some (r.takes writer left)
    | _ => none
  | .returning found => some (r.waits writer now fun r => r.returns writer (.ok (r.answer writer found)))
  | .returned _ => none

/-- A step, at a time that is not before the last one. -/
def next (l : RunEvent × ℚ) : Option (ActionRun σ) :=
  if r.system.clock ≤ l.2 then
    let timed := { r with system := { r.system with clock := l.2 } }
    match l.1 with
    | .world e => (r.system.next host (e, l.2)).map fun system => { r with system }
    | .driver answer => timed.drive adapter l.2 answer
    | .waiter late => timed.wait writer l.2 late
  else none

def Step (r : ActionRun σ) (l : RunEvent × ℚ) (r' : ActionRun σ) : Prop := r.next host writer adapter l = some r'

/-- The adapter of a live action is entered for a target, while the waiting thread is somewhere in its loop. -/
def start (system : System) (live : LiveAction) (current : NativeWindowTarget) (toolName : String) (loop : Loop) :
    ActionRun σ where
  system := system
  live := live
  current := current
  toolName := toolName
  driver := .adapter (adapter.entered current live.action)
  effected := false
  rejected := false
  waiter := loop.phase

end ActionRun

end Desktop
