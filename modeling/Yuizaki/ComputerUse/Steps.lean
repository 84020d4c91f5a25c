import Yuizaki.ComputerUse.Controller
import Yuizaki.Lib.Run

/- Invocations of computer use, one lock section at a time.

   An invocation is a sequence of sections: the handler reads the binding of its context, the permit
   is verified, the session accepts the action, the fence is checked, the adapter is called, and
   the fence is checked again before the action is reported as executed. Between any two of
   them the sections of other threads can come in. What has been done is kept in a log, for the
   statements. -/
namespace ComputerUse

open Tool ToolExecutionPermit Transition

/-- A live action that was accepted, with the epoch of its fence. -/
structure LiveCall where
  id : ℕ
  request : Request
  fence : ℕ

/-- How the adapter comes back: with a result, or by raising. -/
inductive AdapterOutcome where
  | completed (evidence : List (String × String))
  | raised
deriving DecidableEq

/-- The bounds of what the adapter may answer. -/
def AdapterOutcome.accepted : AdapterOutcome → Bool
  | .completed evidence =>
    decide (evidence.length ≤ 8) && evidence.all fun entry => decide (entry.1.length ≤ 64) && decide (entry.2.length ≤ 256)
  | .raised => false

/-- The next part of an invocation that is not over. -/
inductive Pending where
  | invoke (i : Invocation)
  | accept (r : Request)
  | fence (call : LiveCall)
  | adapter (call : LiveCall)
  | running (call : LiveCall)
  | returned (call : LiveCall) (outcome : AdapterOutcome)

inductive Entry where
  | issued (sessionKey : String) (session : ActionSession)
  | stopped (workspaceId sessionId : Option String)
  | accepted (id : ℕ) (r : Request) (live : Bool) (time : ℚ)
  | entered (call : LiveCall)
  | returned (id : ℕ)
  | executed (id : ℕ)

/-- The controller, the invocations that are not over, the permits that were minted, and the log,
newest first. -/
structure System where
  controller : Controller
  pending : List Pending
  minted : List ToolExecutionPermit
  count : ℕ
  log : List Entry

/-- What can happen: a call comes in, or a part of one goes on. -/
inductive Event where
  | issueSession (id : String) (scope : ComputerUseScope) (dryRun : Bool) (ttlSeconds : ℚ) (actionBudget : ℕ)
  | emergencyStop (workspaceId sessionId : Option String)
  | bindContext (ctx : ℕ) (actionSessionId : Json) (trustedScope : ComputerUseScope)
  | dropContext (ctx : ℕ)
  | mint (toolName : String) (parameters : Json) (ctx : ℕ) (receipt : PermissionReceipt) (claims nonce : String)
  | handle (previewOnly : Bool) (args : Json) (ctx : Option ℕ) (receipt : Option PermissionReceipt)
      (permit : Option ToolExecutionPermit)
  | invoke (i : Invocation)
  | resume (n : ℕ) (outcome : AdapterOutcome)

/-- The arguments with which `_handler` invokes. -/
def handlerInvocation (previewOnly : Bool) (args : Json) (ctx : Option ℕ) (receipt : Option PermissionReceipt)
    (permit : Option ToolExecutionPermit) (binding : String × ComputerUseScope) : Invocation where
  actionSessionId := .str binding.1
  scopeValues := binding.2.toDict
  sequence := args.get "sequence"
  actionValue := args.get "action"
  previewOnly := previewOnly
  permissionReceipt := receipt
  toolArgs := args
  trustedContext := ctx
  executionPermit := permit

namespace System

variable (world : World) (s : System)

def goOn (part : Pending) : System := { s with pending := s.pending ++ [part] }

/-- The permit of an invocation is verified. -/
def verify (i : Invocation) : System :=
  match s.controller.verify world i with
  | .ok r => s.goOn (.accept r)
  | .error _ => s

def take (now : ℚ) (r : Request) (session : ActionSession) : System :=
  let live := !Controller.dryRun r session
  { s with
    controller := s.controller.consume r session
    count := s.count + 1
    log := .accepted s.count r live now :: s.log
    pending := s.pending ++
      if live && s.controller.hasAdapter then [.fence ⟨s.count, r, session.stopEpoch⟩] else [] }

def advance (now : ℚ) (outcome : AdapterOutcome) : Pending → System
  | .invoke i => s.verify world i
  | .accept r =>
    match s.controller.admitAction now r with
    | .ok session => s.take now r session
    | .error _ => s
  | .fence call =>
    if s.controller.fenceStopped call.request.sessionKey call.fence = true then s else s.goOn (.adapter call)
  | .adapter call => { s with log := .entered call :: s.log }.goOn (.running call)
  | .running call => { s with log := .returned call.id :: s.log }.goOn (.returned call outcome)
  | .returned call outcome =>
    if outcome = .raised ∨ s.controller.fenceStopped call.request.sessionKey call.fence = true ∨
      outcome.accepted = false then s
    else { s with log := .executed call.id :: s.log }

/-- A permit that somebody presents: one whose seal holds was minted. -/
def presentable (permit : Option ToolExecutionPermit) : Bool :=
  permit.all fun permit => !permit.sealed || decide (permit ∈ s.minted)

def act (now : ℚ) : Event → Option System
  | .issueSession id scope dryRun ttlSeconds actionBudget =>
    -- the id of a session is random: it is an opaque text that was not given before
    if s.controller.sessions.get id = none ∧ opaqueText (.str id) "action_session_id" = .ok id then
      some (match s.controller.issueSession now id scope dryRun ttlSeconds actionBudget with
        | .ok (session, c) => { s with
            controller := c
            log := .issued id session :: s.log }
        | .error _ => s)
    else none
  | .emergencyStop workspaceId sessionId => some { s with
      controller := s.controller.emergencyStop workspaceId sessionId
      log := .stopped workspaceId sessionId :: s.log }
  | .bindContext ctx actionSessionId trustedScope =>
    some (match s.controller.bindContext ctx actionSessionId trustedScope with
      | .ok c => { s with controller := c }
      | .error _ => s)
  | .dropContext ctx =>
    some { s with controller := { s.controller with contextBindings := s.controller.contextBindings.erase ctx } }
  | .mint toolName parameters ctx receipt claims nonce =>
    -- so is the nonce of a permit
    if ∀ permit ∈ s.minted, permit.nonce ≠ nonce then
      some (match mintExecutionPermit world.sha256 toolName parameters ctx receipt claims nonce with
        | .ok permit => { s with minted := permit :: s.minted }
        | .error _ => s)
    else none
  | .handle previewOnly args ctx receipt permit =>
    if s.presentable permit then
      some (match s.controller.bindingForContext ctx with
        | .ok binding => s.goOn (.invoke (handlerInvocation previewOnly args ctx receipt permit binding))
        | .error _ => s)
    else none
  | .invoke i => if s.presentable i.executionPermit then some (s.verify world i) else none
  | .resume n outcome =>
    (s.pending[n]?).map fun part => { s with pending := s.pending.eraseIdx n }.advance world now outcome part

def Step (s : System) (l : Event × ℚ) (s' : System) : Prop := s.act world l.2 l.1 = some s'

def start (hasAdapter : Bool) : System := ⟨⟨hasAdapter, Dict.empty, Dict.empty, [], 0⟩, [], [], 0, []⟩

end System

end ComputerUse
