import Yuizaki.Lib.PyStr
import Yuizaki.Lib.Run
import Mathlib.Data.Rat.Defs
import Mathlib.Algebra.Order.Ring.Rat

/- The supervisor of the Twitch IRC connection (`modules/system/twitch_connection.py`).

   A call holds the state lock for a part of its work only: an attempt takes the lock, calls the
   transport without it, and takes it again for what the transport answered. Between two parts
   any other call can come in, so a call that is not over is kept as the part that comes next
   (`Pending`), and a step is one part of one call. Retries are `tick` calls; the worker thread
   that makes them is not kept, since a tick may come at any time. -/
namespace Twitch

open Transition

/-- `_STATUSES`. -/
inductive Status where
  | stopped
  | connecting
  | connected
  | backoff
  | unconfigured
  | revoked
deriving DecidableEq

/-- What the supervisor is built with: whether there is a transport, and the bounds of the backoff. -/
structure Setup where
  hasTransport : Bool
  baseBackoff : ℚ
  maxBackoff : ℚ

/-- What the transport makes of a call to connect. -/
inductive Answer where
  | accepted
  | rejected
  | raised (name : String)
deriving DecidableEq

/-- The next part of a call that is not over. -/
inductive Pending where
  | attempt (now : ℚ)
  | call (attempt : ℕ) (now : ℚ)
  | answer (attempt : ℕ) (now : ℚ)
  | check (attempt : ℕ) (now : ℚ) (connected : Bool)
  | confirm
  | retry (error : Option String) (now : ℚ)
deriving DecidableEq

/-- The supervisor, the calls that are not over, and how often the transport was called. -/
structure Supervisor where
  configured : Bool
  desired : Bool
  status : Status
  attempt : ℕ
  nextRetryAt : Option ℚ
  lastError : Option String
  pending : List Pending
  calls : ℕ
deriving DecidableEq

def nonRetryableErrors : List String := ["auth_failed", "permission_denied"]

/-- `str(error or "connection_lost")[:120]`. -/
def errorText (error : Option String) : String :=
  PyStr.textPrefix 120 (if error.getD "" = "" then "connection_lost" else error.getD "")

namespace Supervisor

/-- `__init__`. -/
def start (configured : Bool) : Supervisor :=
  ⟨configured, false, if configured then .stopped else .unconfigured, 0, none, none, [], 0⟩

variable (setup : Setup) (s : Supervisor)

/-- The status of a connection that is not wanted. -/
def idle : Status := if s.configured then .stopped else .unconfigured

def await (next : Pending) : Supervisor := { s with pending := s.pending ++ [next] }

def backoffForAttempt : ℚ := min setup.maxBackoff (setup.baseBackoff * 2 ^ min (s.attempt - 1) 16)

/-! ## The parts of the calls -/

def configure (configured : Bool) : Supervisor :=
  if configured = false then
    { s with configured, desired := false, nextRetryAt := none, status := .unconfigured }
  else { s with configured, status := if s.status = .unconfigured then .stopped else s.status }

/-- `start`, up to the attempt. -/
def startCall (now : ℚ) : Supervisor :=
  if s.status = .revoked then { s with desired := false }
  else if s.configured = false then { s with desired := false, status := .unconfigured }
  else { s with desired := true, nextRetryAt := none }.await (.attempt now)

def stop : Supervisor := { s with desired := false, nextRetryAt := none, status := s.idle }

def markConnected : Supervisor :=
  if s.configured = false ∨ s.desired = false ∨ s.status = .revoked then
    { s with status := if s.status = .revoked then .revoked else s.idle }
  else { s with status := .connected, attempt := 0, nextRetryAt := none, lastError := none }

/-- `mark_disconnected`, up to the retry. -/
def markDisconnected (error : Option String) (now : ℚ) : Supervisor :=
  if s.status = .revoked then s
  else if s.desired = false then { s with status := s.idle }
  else s.await (.retry error now)

/-- `mark_revoked()`. -/
def markRevoked : Supervisor := { s with desired := false, nextRetryAt := none, status := .revoked }

/-- `mark_revoked(False)`. -/
def resetRevoked : Supervisor := { s with status := if s.status = .revoked then s.idle else s.status }

/-- `tick`, up to the attempt. -/
def tick (now : ℚ) : Supervisor :=
  if s.desired = true ∧ s.status = .backoff ∧ s.nextRetryAt.any (· ≤ now) = true then s.await (.attempt now)
  else s

/-- `_attempt_connect`, up to the call of the transport. -/
def attemptConnect (now : ℚ) : Supervisor :=
  if s.desired = false ∨ s.configured = false ∨ s.status = .revoked then s
  else
    let s := { s with status := .connecting, attempt := s.attempt + 1 }
    if setup.hasTransport then s.await (.call s.attempt now)
    else s.await (.retry (some "transport_unconfigured") now)

def callTransport (attempt : ℕ) (now : ℚ) : Supervisor := { s with calls := s.calls + 1 }.await (.answer attempt now)

def answered (attempt : ℕ) (now : ℚ) : Answer → Supervisor
  | .accepted => s.await (.check attempt now true)
  | .rejected => s.await (.check attempt now false)
  | .raised name => s.await (.retry (some name) now)

/-- `_attempt_connect`, after the answer of the transport. -/
def checkAttempt (attempt : ℕ) (now : ℚ) (connected : Bool) : Supervisor :=
  let stillCurrent := s.desired && s.configured && s.status = .connecting && s.attempt = attempt
  if connected = true ∧ stillCurrent = true then s.await .confirm
  else if connected = true then s
  else s.await (.retry (some "transport_rejected") now)

def scheduleRetry (error : Option String) (now : ℚ) : Supervisor :=
  let s := { s with lastError := some (errorText error) }
  if errorText error ∈ nonRetryableErrors then { s with desired := false, status := s.idle, nextRetryAt := none }
  else if s.desired = false ∨ s.configured = false then { s with status := s.idle, nextRetryAt := none }
  else { s with status := .backoff, nextRetryAt := some (now + s.backoffForAttempt setup) }

def resume (answer : Answer) : Pending → Supervisor
  | .attempt now => s.attemptConnect setup now
  | .call attempt now => s.callTransport attempt now
  | .answer attempt now => s.answered attempt now answer
  | .check attempt now connected => s.checkAttempt attempt now connected
  | .confirm => s.markConnected
  | .retry error now => s.scheduleRetry setup error now

end Supervisor

/-- What can happen: a call comes in, or the `i`-th of those that are not over goes on. -/
inductive Event where
  | configure (configured : Bool)
  | start (now : ℚ)
  | stop
  | markConnected
  | markDisconnected (error : Option String) (now : ℚ)
  | markRevoked
  | resetRevoked
  | tick (now : ℚ)
  | resume (i : ℕ) (answer : Answer)
deriving DecidableEq

def Supervisor.next (setup : Setup) (s : Supervisor) : Event → Option Supervisor
  | .configure configured => some (s.configure configured)
  | .start now => some (s.startCall now)
  | .stop => some s.stop
  | .markConnected => some s.markConnected
  | .markDisconnected error now => some (s.markDisconnected error now)
  | .markRevoked => some s.markRevoked
  | .resetRevoked => some s.resetRevoked
  | .tick now => some (s.tick now)
  | .resume i answer =>
    (s.pending[i]?).map fun part => { s with pending := s.pending.eraseIdx i }.resume setup answer part

def Supervisor.Step (setup : Setup) (s : Supervisor) (e : Event) (s' : Supervisor) : Prop := s.next setup e = some s'

/-! ## Statements -/

/-- A step other than the reset of a revocation. -/
def Supervisor.HeldStep (setup : Setup) (s : Supervisor) (e : Event) (s' : Supervisor) : Prop :=
  s.Step setup e s' ∧ e ≠ .resetRevoked

/-- The part of a call that forgets a revocation, or calls the transport in spite of it. -/
def Pending.overrides : Pending → Bool
  | .call _ _ | .retry _ _ => true
  | _ => false

/-- The step stops the connection or takes its configuration away, calls the transport, or
schedules a retry. -/
def Overrides (s : Supervisor) : Event → Prop
  | .stop => True
  | .configure configured => configured = false
  | .resume i _ => ∃ part, s.pending[i]? = some part ∧ part.overrides = true
  | _ => False

/-- A step that overrides a revocation does not find one. -/
def Heeds (s : Supervisor) (e : Event) : Prop := s.status = .revoked → ¬ Overrides s e

/-- The connection is revoked, and the transport was not called again. -/
def StaysRevoked (calls : ℕ) (s : Supervisor) : Prop := s.status = .revoked ∧ s.calls = calls

section Rules

variable {setup : Setup} {s s' : Supervisor} {e : Event} {part : Pending} {answer : Answer} {calls : ℕ}

theorem resume_keeps (h : part.overrides = false) (hrevoked : StaysRevoked calls s) :
    StaysRevoked calls (s.resume setup answer part) := by
  obtain ⟨hstatus, hcalls⟩ := hrevoked
  cases part with
  | attempt now =>
    have hsame : s.attemptConnect setup now = s := if_pos (Or.inr (Or.inr hstatus))
    show StaysRevoked calls (s.attemptConnect setup now)
    rw [hsame]
    exact ⟨hstatus, hcalls⟩
  | answer attempt now =>
    cases answer with
    | accepted => exact ⟨hstatus, hcalls⟩
    | rejected => exact ⟨hstatus, hcalls⟩
    | raised name => exact ⟨hstatus, hcalls⟩
  | check attempt now connected =>
    show StaysRevoked calls (s.checkAttempt attempt now connected)
    unfold Supervisor.checkAttempt
    dsimp only
    split
    · exact ⟨hstatus, hcalls⟩
    · split
      · exact ⟨hstatus, hcalls⟩
      · exact ⟨hstatus, hcalls⟩
  | confirm =>
    have hsame : s.markConnected = { s with status := if s.status = .revoked then .revoked else s.idle } :=
      if_pos (Or.inr (Or.inr hstatus))
    show StaysRevoked calls s.markConnected
    rw [hsame]
    exact ⟨if_pos hstatus, hcalls⟩
  | call attempt now => cases h
  | retry error now => cases h

theorem idle_ne_revoked : s.idle ≠ .revoked := by
  unfold Supervisor.idle
  split
  · exact fun h => by cases h
  · exact fun h => by cases h

theorem scheduleRetry_ne_revoked {error : Option String} {now : ℚ} :
    (s.scheduleRetry setup error now).status ≠ .revoked := by
  unfold Supervisor.scheduleRetry
  dsimp only
  split
  · exact idle_ne_revoked
  · split
    · exact idle_ne_revoked
    · exact fun h => by cases h

theorem resume_overrides (h : part.overrides = true) (hrevoked : StaysRevoked calls s) :
    ¬ StaysRevoked calls (s.resume setup answer part) := by
  obtain ⟨hstatus, hcalls⟩ := hrevoked
  intro ⟨hstill, hsame⟩
  cases part with
  | call attempt now =>
    have hmore : s.calls + 1 = calls := hsame
    omega
  | retry error now =>
    exact scheduleRetry_ne_revoked hstill
  | _ => cases h

theorem Supervisor.HeldStep.keeps (h : s.HeldStep setup e s') (hrevoked : StaysRevoked calls s) (hheeds : Heeds s e) :
    StaysRevoked calls s' := by
  obtain ⟨hstep, hreset⟩ := h
  obtain ⟨hstatus, hcalls⟩ := hrevoked
  have hallowed := hheeds hstatus
  unfold Supervisor.Step Supervisor.next at hstep
  cases e with
  | configure configured =>
    obtain rfl := Option.some.inj hstep
    have htrue : ¬ configured = false := hallowed
    have hsame : s.configure configured =
        { s with configured, status := if s.status = .unconfigured then .stopped else s.status } := if_neg htrue
    rw [hsame]
    refine ⟨?_, hcalls⟩
    show (if s.status = .unconfigured then Status.stopped else s.status) = .revoked
    rw [hstatus]
    rfl
  | start now =>
    obtain rfl := Option.some.inj hstep
    have hsame : s.startCall now = { s with desired := false } := if_pos hstatus
    rw [hsame]
    exact ⟨hstatus, hcalls⟩
  | stop => exact absurd trivial hallowed
  | markConnected =>
    obtain rfl := Option.some.inj hstep
    have hpart : StaysRevoked calls (s.resume setup .accepted .confirm) := resume_keeps rfl ⟨hstatus, hcalls⟩
    exact hpart
  | markDisconnected error now =>
    obtain rfl := Option.some.inj hstep
    have hsame : s.markDisconnected error now = s := if_pos hstatus
    rw [hsame]
    exact ⟨hstatus, hcalls⟩
  | markRevoked =>
    obtain rfl := Option.some.inj hstep
    exact ⟨rfl, hcalls⟩
  | resetRevoked => exact absurd rfl hreset
  | tick now =>
    obtain rfl := Option.some.inj hstep
    unfold Supervisor.tick
    split
    · exact ⟨hstatus, hcalls⟩
    · exact ⟨hstatus, hcalls⟩
  | resume i answer =>
    obtain ⟨part, hpart, rfl⟩ := Option.map_eq_some_iff.mp hstep
    refine resume_keeps ?_ ⟨hstatus, hcalls⟩
    cases hover : part.overrides with
    | false => rfl
    | true => exact absurd ⟨part, hpart, hover⟩ hallowed

theorem Supervisor.HeldStep.heeds (h : s.HeldStep setup e s') (hrevoked : StaysRevoked calls s)
    (hstays : StaysRevoked calls s') : Heeds s e := by
  intro _ hoverrides
  obtain ⟨hstep, -⟩ := h
  unfold Supervisor.Step Supervisor.next at hstep
  cases e with
  | stop =>
    obtain rfl := Option.some.inj hstep
    exact idle_ne_revoked hstays.1
  | configure configured =>
    obtain rfl := Option.some.inj hstep
    have hfalse : configured = false := hoverrides
    rw [hfalse] at hstays
    cases hstays.1
  | resume i answer =>
    obtain ⟨part, hpart, rfl⟩ := Option.map_eq_some_iff.mp hstep
    obtain ⟨other, hother, hover⟩ := hoverrides
    obtain rfl := Option.some.inj (hpart.symm.trans hother)
    have hbefore : StaysRevoked calls { s with pending := s.pending.eraseIdx i } := hrevoked
    exact resume_overrides hover hbefore hstays
  | _ => cases hoverrides

end Rules

/-! ## Every run -/

/-- In whatever state a revocation comes: as long as it is not reset, the status stays revoked
and the transport is not called, exactly where each stop, each loss of the configuration, each
retry that is scheduled and each call of the transport finds no revocation. -/
theorem revocation_absorbing {setup : Setup} {s₁ s₂ : Supervisor} (hrevoked : s₁.Step setup .markRevoked s₂)
    (newer : List Event) :
    Run.Always (Supervisor.HeldStep setup) s₂ (StaysRevoked s₂.calls) newer ↔
      Run.Meets (Supervisor.HeldStep setup) s₂ Heeds newer := by
  have hfirst : StaysRevoked s₂.calls s₂ := by
    obtain rfl := Option.some.inj hrevoked
    exact ⟨rfl, rfl⟩
  refine Run.always_iff_meets (I := fun _ => True) (Q := StaysRevoked s₂.calls) trivial ?_ hfirst ?_ ?_ ?_
  · intro s e s' _ _
    trivial
  · intro s e s' _ hstays hstep hheeds
    exact hstep.keeps hstays hheeds
  · intro s _ hstays
    exact hstays
  · intro s e s' _ hstays hstep hstays'
    exact hstep.heeds hstays hstays'

/-! ## An attempt that fails after the revocation -/

def plainSetup : Setup := ⟨true, 1, 60⟩

def callingTransport : Supervisor :=
  (Run.exec (Supervisor.next plainSetup) (Supervisor.start true)
    [.start 0, .resume 0 .accepted, .resume 0 .accepted]).get (by decide +kernel)

/-- A start that comes after the revocation is refused. -/
theorem revocation_absorbing_start :
    StaysRevoked callingTransport.markRevoked.calls (callingTransport.markRevoked.startCall 5) := by
  have hmeets : Run.Meets (Supervisor.HeldStep plainSetup) callingTransport.markRevoked Heeds [.start 5] := by
    intro newer l older s s' hsplit _ _
    cases newer with
    | nil =>
      obtain ⟨rfl, -⟩ := List.cons.inj hsplit
      exact fun _ hoverrides => hoverrides
    | cons e rest => exact absurd hsplit (by simp)
  have hrevoked : callingTransport.Step plainSetup .markRevoked callingTransport.markRevoked := rfl
  have hall := (revocation_absorbing hrevoked [.start 5]).mpr hmeets
  exact hall [] [.start 5] _ rfl (Run.next Run.start ⟨rfl, fun h => by cases h⟩)

/-- The transport refuses after the revocation. -/
def refusedTransport : Supervisor :=
  (Run.exec (Supervisor.next plainSetup) callingTransport.markRevoked
    [.resume 0 .rejected, .resume 0 .accepted, .resume 0 .accepted]).get (by decide +kernel)

/-- The authorisation is revoked while the transport is being called, the transport refuses, and
the status is no longer revoked. -/
theorem refused_attempt_forgets_revocation : ∃ older s₁ s₂ newer s,
    Run (Supervisor.Step plainSetup) (Supervisor.start true) older s₁ ∧ s₁.Step plainSetup .markRevoked s₂ ∧
      Run (Supervisor.Step plainSetup) s₂ newer s ∧ (∀ e ∈ newer, e ≠ .resetRevoked) ∧
      ¬ StaysRevoked s₂.calls s := by
  have hbefore : Run (Supervisor.Step plainSetup) (Supervisor.start true) _ callingTransport :=
    Run.of_exec (Option.some_get _).symm
  have hafter : Run (Supervisor.Step plainSetup) callingTransport.markRevoked _ refusedTransport :=
    Run.of_exec (Option.some_get _).symm
  refine ⟨_, callingTransport, _, _, refusedTransport, hbefore, rfl, hafter, by decide +kernel, fun hstays => ?_⟩
  have hstopped : refusedTransport.status = .stopped := by decide +kernel
  cases hstopped.symm.trans hstays.1

end Twitch
