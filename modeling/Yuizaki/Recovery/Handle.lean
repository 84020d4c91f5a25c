import Yuizaki.Recovery.Store

/- Recovery handles (`modules/agent/step_executor.py`).

   A failed step's handle is registered in the process and marked in the store. A use takes
   the registered handle and retries the step in the process; where none is registered it
   claims the durable marker, rebuilds a context and runs the step through the turn service,
   and finishes the marker under its lease. What runs up to an `await` is one step here; the
   turns, the context factory and the tools are whatever they are, so a use that is under
   way may end either way, be cut off, or be lost with its process. -/
namespace Recovery

open Plan Transition

/-! ## Registered handles -/

/-- What a use must name: the texts that scope a handle. -/
structure HandleScope where
  workspaceId : String
  sessionId : String
  turnId : String
  failedStepId : String
deriving DecidableEq

/-- The scope as the columns of a marker. -/
def HandleScope.columns (scope : HandleScope) : RecoveryScope where
  workspaceId := some scope.workspaceId
  sessionId := some scope.sessionId
  turnId := some scope.turnId
  failedStepId := some scope.failedStepId

/-- `_RecoveryHandle`. -/
structure LocalHandle where
  scope : HandleScope
  expiresAt : ℚ
deriving DecidableEq

inductive ResumePhase where
  | running
  | succeeded
  | failed
deriving DecidableEq

/-- How far a durable attempt is: its marker claimed, its step run, its step over. -/
inductive AttemptPhase where
  | claimed
  | running
  | ended (success : Bool)
deriving DecidableEq

structure Attempt where
  handle : String
  owner : String
  leaseEnds : ℚ
  phase : AttemptPhase
deriving DecidableEq

/-- The store and the process. `resumes` has the last retry of each handle and `attempts`
the durable attempts under way, by their token; `issued` has every handle drawn so far. -/
structure HandleState where
  store : RecoveryStore
  registry : Dict String LocalHandle
  resumes : Dict String ResumePhase
  attempts : Dict String Attempt
  issued : List String
  executor : String
  now : ℚ

def HandleState.initial (executor : String) : HandleState :=
  ⟨Dict.empty, Dict.empty, Dict.empty, Dict.empty, [], executor, 0⟩

inductive HandleEvent where
  | issued (handle : String)
  | rejected (handle : String)
  | resumed (handle : String)
  | claimed (handle token : String)
  | invoked (handle : String)
  | succeeded (handle : String)
  | failed (handle : String)
  | recorded (handle token : String)
  | abandoned (token : String)
  | restarted
  | pruned
  | passed (now : ℚ)
deriving DecidableEq

/-! ## Registering and using -/

def maxRecoveryEntries : ℕ := 512

/-- `_prune_recovery_state`. -/
def HandleState.prune (s : HandleState) : HandleState :=
  { s with
    store := reapExpired s.store s.now
    registry := (s.registry.filter (fun _ r => s.now < r.expiresAt)).keepNewest maxRecoveryEntries }

/-- What a context snapshot reads of a request. -/
structure RequestIdentity where
  sid : String
  workspaceId : String
  sessionId : String
  requestId : String
  turnId : String
  generationId : String
  interruptionEpoch : ℤ
  runtimeRevision : Json
  model : String
  maxTokens : ℤ
  permissionScope : String
  autonomyMode : String

/-- A text of at most `n` characters. -/
def boundedText (n : ℕ) (value : String) : Json := .str (PyStr.textPrefix n value)

/-- The same, or `None` where it is empty. -/
def boundedOptional (n : ℕ) (value : String) : Json :=
  if value = "" then .null else boundedText n value

def recoveryContextEntries (ctx : RequestIdentity) (recoveryId : String) : List (String × Json) :=
  [("recovery_id", .str recoveryId), ("sid", boundedText 256 ctx.sid),
    ("workspace_id", boundedText 256 ctx.workspaceId),
    ("session_id", boundedText 256 ctx.sessionId),
    ("request_id", boundedText 256 ctx.requestId), ("turn_id", boundedText 256 ctx.turnId),
    ("generation_id", boundedText 256 ctx.generationId),
    ("interruption_epoch", .int (max 0 ctx.interruptionEpoch)),
    ("runtime_revision", ctx.runtimeRevision), ("model", boundedOptional 256 ctx.model),
    ("max_tokens", .int (max 1 (min 262144 (if ctx.maxTokens = 0 then 8192 else ctx.maxTokens)))),
    ("permission_scope", boundedOptional 256 ctx.permissionScope),
    ("autonomy_mode",
      boundedText 64 (if ctx.autonomyMode = "" then "companion" else ctx.autonomyMode))]

def recoveryContextSnapshot (ctx : RequestIdentity) (recoveryId : String) : Json :=
  .obj (recoveryContextEntries ctx recoveryId)

/-- What a handle is registered with: the failed step where it is a tool step, and the request
where the tool is a durable read. -/
structure IssueArgs where
  step : Option Step
  scope : HandleScope
  planHash : Option String
  durableRead : Option RequestIdentity
  ttlSeconds : ℤ

def IssueArgs.expiresAt (args : IssueArgs) (now : ℚ) : ℚ := now + ((max 1 args.ttlSeconds : ℤ) : ℚ)

/-- The marker of a new handle; a step that cannot be written has none. -/
def markHandle (codec : RecoveryCodec) (s : RecoveryStore) (now : ℚ) (handle : String)
    (args : IssueArgs) : RecoveryStore :=
  match args.step with
  | none => s
  | some step =>
    (put codec s now handle step ⟨some now, some (args.expiresAt now), args.scope.columns,
      args.planHash,
      args.durableRead.map (fun ctx => recoveryContextSnapshot ctx handle), none⟩).toOption.getD s

/-- `_register_recovery_handle`. -/
def HandleState.issue (codec : RecoveryCodec) (s : HandleState) (handle : String)
    (args : IssueArgs) : HandleState :=
  { s with
    store := markHandle codec s.store s.now handle args
    registry := s.registry.set handle ⟨args.scope, args.expiresAt s.now⟩
    issued := handle :: s.issued }.prune

/-- `_take_recovery_handle`. -/
def HandleState.take (s : HandleState) (handle : String) (scope : HandleScope) :
    HandleState × Option LocalHandle :=
  match s.registry.get handle with
  | none => (s, none)
  | some r =>
    if r.expiresAt ≤ s.now then
      ({ s with registry := s.registry.erase handle, store := (delete s.store handle).1 }, none)
    else if r.scope ≠ scope then (s, none)
    else ({ s with registry := s.registry.erase handle }, some r)

/-- The error a marker is finished with. -/
def errorCode (code : String) : Json := .obj [("code", .str code)]

/-- `_resume_durable_recovery_handle`, up to the context factory. -/
def HandleState.resumeDurable (codec : RecoveryCodec) (s : HandleState) (handle : String)
    (scope : HandleScope) (token : String) : HandleState × HandleEvent :=
  match claimRecovery codec s.store s.now handle s.executor scope.columns token with
  | (store, .ok (some claim)) =>
    match claim.contextSnapshot with
    | some (.obj _) =>
      ({ s with
          store := store
          attempts := s.attempts.set token
            ⟨handle, s.executor, s.now + leaseSeconds, .claimed⟩ }, .claimed handle token)
    | _ =>
      ({ s with store := (finish codec store s.now handle false s.executor token none
          (some (errorCode "recovery_context_missing"))).1 }, .rejected handle)
  | (store, _) => ({ s with store := store }, .rejected handle)

/-- `resume_recovery_handle`, up to the step: `accepted` says whether the token and the
capability behind a registered handle still stand. -/
def HandleState.use (codec : RecoveryCodec) (s : HandleState) (handle : String)
    (scope : HandleScope) (token : String) (accepted : Bool) : HandleState × HandleEvent :=
  match s.prune.take handle scope with
  | (s', some _) =>
    if accepted then ({ s' with resumes := s'.resumes.set handle .running }, .resumed handle)
    else (s', .rejected handle)
  | (s', none) => s'.resumeDurable codec handle scope token

/-! ## The system -/

/-- A token as it is drawn: hex digits that no attempt has. -/
def HandleState.draws (s : HandleState) (token : String) : Prop :=
  s.attempts.get token = none ∧ PyStr.strip token = token

/-- The event of an execution that is over. -/
def HandleEvent.ended (handle : String) (success : Bool) : HandleEvent :=
  if success then .succeeded handle else .failed handle

/-- The marker is finished with what its attempt came to. -/
def HandleState.record (codec : RecoveryCodec) (s : HandleState) (token : String) (a : Attempt)
    (success : Bool) (result error : Option Json) : HandleState :=
  { s with
    store := (finish codec s.store s.now a.handle success a.owner token result error).1
    attempts := s.attempts.erase token }

/-- One step of the process, of a turn or of the clock. -/
inductive HandleStep (codec : RecoveryCodec) : HandleState → HandleEvent → HandleState → Prop
  /-- A failed step gets a handle. -/
  | issue {s : HandleState} (handle : String) (args : IssueArgs) (hnew : handle ∉ s.issued) :
      HandleStep codec s (.issued handle) (s.issue codec handle args)
  /-- A handle is submitted. -/
  | use {s : HandleState} (handle : String) (scope : HandleScope) (token : String)
      (accepted : Bool) (hdrawn : s.draws token) :
      HandleStep codec s (s.use codec handle scope token accepted).2
        (s.use codec handle scope token accepted).1
  /-- A retry in the process is over. -/
  | resumeEnds {s : HandleState} {handle : String}
      (hrunning : s.resumes.get handle = some .running) (success : Bool) :
      HandleStep codec s (.ended handle success)
        { s with resumes := s.resumes.set handle (if success then .succeeded else .failed) }
  /-- The rebuilt context does not admit the step: its marker is finished without a run. -/
  | decline {s : HandleState} {token : String} {a : Attempt}
      (ha : s.attempts.get token = some a) (hphase : a.phase = .claimed) (code : String) :
      HandleStep codec s (.recorded a.handle token)
        (s.record codec token a false none (some (errorCode code)))
  /-- The turn service runs the step. -/
  | invoke {s : HandleState} {token : String} {a : Attempt}
      (ha : s.attempts.get token = some a) (hphase : a.phase = .claimed) :
      HandleStep codec s (.invoked a.handle)
        { s with attempts := s.attempts.set token { a with phase := .running } }
  /-- The step is over. -/
  | attemptEnds {s : HandleState} {token : String} {a : Attempt}
      (ha : s.attempts.get token = some a) (hphase : a.phase = .running) (success : Bool) :
      HandleStep codec s (.ended a.handle success)
        { s with attempts := s.attempts.set token { a with phase := .ended success } }
  /-- The marker is finished with the outcome; a finish that raises is an abandoned
  attempt. -/
  | record {s : HandleState} {token : String} {a : Attempt} {success : Bool} {written : Bool}
      (ha : s.attempts.get token = some a) (hphase : a.phase = .ended success) (outcome : Json)
      (hwritten : (finish codec s.store s.now a.handle success a.owner token
        (if success then some outcome else none) (if success then none else some outcome)).2 =
          .ok written) :
      HandleStep codec s (.recorded a.handle token)
        (s.record codec token a success (if success then some outcome else none)
          (if success then none else some outcome))
  /-- An attempt is cut off: it is cancelled, or its turn or its outcome cannot be written. -/
  | abandon {s : HandleState} {token : String} :
      HandleStep codec s (.abandoned token) { s with attempts := s.attempts.erase token }
  /-- The process is replaced. -/
  | restart {s : HandleState} (executor : String) :
      HandleStep codec s .restarted
        { s with
          registry := Dict.empty
          resumes := s.resumes.filter (fun _ phase => phase ≠ .running)
          attempts := Dict.empty
          executor := executor }
  /-- Old state is dropped. -/
  | prune {s : HandleState} : HandleStep codec s .pruned s.prune
  /-- A handle is taken back before it is handed out. -/
  | withdraw {s : HandleState} (handle : String) :
      HandleStep codec s .pruned { s with registry := s.registry.erase handle }
  /-- Time passes. -/
  | tick {s : HandleState} {now : ℚ} (hle : s.now ≤ now) :
      HandleStep codec s (.passed now) { s with now := now }

end Recovery
