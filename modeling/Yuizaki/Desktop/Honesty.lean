import Yuizaki.Desktop.Envelope
import Yuizaki.Desktop.Lease

/- How far the envelope of a live action can be trusted once its adapter was entered.

   Only an error of the code `DA_OUTCOME_UNKNOWN` becomes `unknown_effect`, and only the wait
   that runs out of time raises it. A fence that the waiting thread finds stopped, and what the
   driver thread leaves after the native effect, become `known_failure` like a rejection. -/
namespace Desktop

open Transition

/-! ## Statements -/

/-- An envelope that tells no more than is known, for an adapter that rejected the action before
its native effect or not. -/
def ToolResultEnvelope.Honest (e : ToolResultEnvelope) (rejected : Bool) : Prop :=
  e.outcome = .knownSuccess ∧ e.success = true ∨ e.outcome = .unknownEffect ∧ e.retryable = false ∨
    e.outcome = .knownFailure ∧ rejected = true

namespace ActionRun

variable {σ : Type}

/-- What the waiting thread returned is an envelope, and an honest one. -/
def Honest (r : ActionRun σ) : Prop := ∀ answer, r.waiter = .returned answer → ∃ e, answer = .ok e ∧ e.Honest r.rejected

/-- What the driver thread left can be taken: the adapter rejected the action before its effect,
or returned a result within bounds, or raised that the outcome is unknown. -/
def Takes (rejected : Bool) : Left → Prop
  | none => rejected = true
  | some (.error raised) => rejected = true ∨ (normalizeAdapterError raised).code = "DA_OUTCOME_UNKNOWN"
  | some (.ok result) => rejected = true ∨ (takeResult (some (.ok result))).isOk = true

/-- The waiting thread finds no stop, and takes nothing that came after the effect, unless the
adapter rejected the action before. -/
def Clear (r : ActionRun σ) (l : RunEvent × ℚ) : Prop :=
  ∀ late, l.1 = .waiter late →
    match r.waiter, r.driver with
    | .looking, _ | .joined, _ | .returning _, _ =>
      (raiseIfStopped r.system.controller l.2 r.live).1 = .ok () ∨ r.rejected = true
    | .taking, .ended left => Takes r.rejected left
    | _, _ => True

/-! ## Envelopes -/

section Rules

variable {host : Host} {writer : Writer} {adapter : Adapter σ} {r r' : ActionRun σ} {now : ℚ}

theorem result_ok (writer : Writer) (toolName : String) (value : Json) : ∃ e, result writer toolName (.ok value) = .ok e ∧
    e.outcome = .knownSuccess ∧ e.success = true :=
  ⟨_, rfl, rfl, rfl⟩

theorem result_error (writer : Writer) (toolName : String) (e : DesktopActionError) : ∃ envelope, result writer toolName (.error e) = .ok envelope ∧
    (e.code = "DA_OUTCOME_UNKNOWN" → envelope.outcome = .unknownEffect ∧ envelope.retryable = false) ∧
    (e.code ≠ "DA_OUTCOME_UNKNOWN" → envelope.outcome = .knownFailure ∧ envelope.retryable = true) := by
  by_cases hcode : e.code = "DA_OUTCOME_UNKNOWN"
  · simp [result, resolve, hcode, bind, Except.bind, pure, Except.pure]
  · simp [result, resolve, hcode, bind, Except.bind, pure, Except.pure]

theorem honest_returns_error (e : DesktopActionError) :
    (r.returns writer (.error e)).Honest ↔ r.rejected = true ∨ e.code = "DA_OUTCOME_UNKNOWN" := by
  obtain ⟨envelope, hresult, hunknown, hknown⟩ := result_error writer r.toolName e
  have hreturned : (r.returns writer (.error e)).Honest ↔ envelope.Honest r.rejected := by
    refine ⟨fun h => ?_, fun h answer hanswer => ?_⟩
    · obtain ⟨other, hother, hhonest⟩ := h _ rfl
      rw [hresult] at hother
      exact Except.ok.inj hother ▸ hhonest
    · exact ⟨envelope, (WaiterPhase.returned.inj hanswer).symm.trans hresult, h⟩
  rw [hreturned]
  by_cases hcode : e.code = "DA_OUTCOME_UNKNOWN"
  · exact ⟨fun _ => Or.inr hcode, fun _ => Or.inr (Or.inl (hunknown hcode))⟩
  · obtain ⟨houtcome, -⟩ := hknown hcode
    refine ⟨fun h => ?_, fun h => Or.inr (Or.inr ⟨houtcome, h.resolve_right hcode⟩)⟩
    obtain ⟨hsuccess, -⟩ | ⟨hno, -⟩ | ⟨-, hrejected⟩ := h
    · rw [houtcome] at hsuccess
      cases hsuccess
    · rw [houtcome] at hno
      cases hno
    · exact Or.inl hrejected

theorem honest_returns_ok (value : Json) : (r.returns writer (.ok value)).Honest := by
  intro answer hanswer
  obtain ⟨e, hresult, houtcome⟩ := result_ok writer r.toolName value
  exact ⟨e, (WaiterPhase.returned.inj hanswer).symm.trans hresult, Or.inl houtcome⟩

theorem honest_of_waiting (h : ∀ answer, r.waiter ≠ .returned answer) : r.Honest :=
  fun answer hanswer => absurd hanswer (h answer)

/-! ## Steps -/

theorem raiseIfStopped_code {c : Controller} {live : LiveAction} {e : DesktopActionError}
    (h : (raiseIfStopped c now live).1 = .error e) : e.code ≠ "DA_OUTCOME_UNKNOWN" := by
  unfold raiseIfStopped at h
  dsimp only at h
  split at h
  · rw [← Except.error.inj h, Controller.fenceError]
    split
    · simp
    · simp
  · cases h

theorem honest_waits {next : ActionRun σ → ActionRun σ} (hnext : ∀ r, (next r).Honest) :
    (r.waits writer now next).Honest ↔
      (raiseIfStopped r.system.controller now r.live).1 = .ok () ∨ r.rejected = true := by
  unfold waits looks
  dsimp only
  cases hlook : (raiseIfStopped r.system.controller now r.live).1 with
  | ok _ => exact ⟨fun _ => Or.inl rfl, fun _ => hnext _⟩
  | error e =>
    have hcode : e.code ≠ "DA_OUTCOME_UNKNOWN" := raiseIfStopped_code hlook
    refine (honest_returns_error e).trans ⟨fun h => ?_, fun h => ?_⟩
    · exact Or.inr (h.resolve_right hcode)
    · exact Or.inl (h.resolve_left fun heq => by cases heq)

theorem takeResult_invalid {found : Option NativeDesktopResult} {e : DesktopActionError}
    (h : takeResult (some (.ok found)) = .error e) : e.code = "DA_ADAPTER_RESULT_INVALID" := by
  cases found with
  | none => rw [← Except.error.inj h]
  | some found =>
    simp only [takeResult] at h
    split at h
    · rw [← Except.error.inj h]
    · cases h

theorem honest_takes (left : Left) : (r.takes writer left).Honest ↔ Takes r.rejected left := by
  unfold takes
  cases hresult : takeResult left with
  | ok found =>
    refine ⟨fun _ => ?_, fun _ => honest_of_waiting fun answer hanswer => by cases hanswer⟩
    obtain - | raised | found' := left
    · cases hresult
    · cases hresult
    · exact Or.inr (hresult ▸ rfl)
  | error e =>
    refine (honest_returns_error e).trans ?_
    obtain - | raised | found := left
    · obtain rfl := Except.error.inj hresult
      simp [Takes]
    · obtain rfl := Except.error.inj hresult
      rfl
    · have hcode : e.code ≠ "DA_OUTCOME_UNKNOWN" := by
        rw [takeResult_invalid hresult]
        decide
      have hinvalid : (takeResult (some (.ok found))).isOk = false := by rw [hresult]; rfl
      simp [Takes, hinvalid, hcode]

theorem wait_honest {late : Bool} (h : r.wait writer now late = some r') :
    r'.Honest ↔ match r.waiter, r.driver with
      | .looking, _ | .joined, _ | .returning _, _ =>
        (raiseIfStopped r.system.controller now r.live).1 = .ok () ∨ r.rejected = true
      | .taking, .ended left => Takes r.rejected left
      | _, _ => True := by
  unfold wait at h
  cases hwaiter : r.waiter with
  | head =>
    rw [hwaiter] at h
    obtain rfl := Option.some.inj h
    refine iff_true_intro (honest_of_waiting fun answer hanswer => ?_)
    split at hanswer
    · cases hanswer
    · cases hanswer
  | looking =>
    rw [hwaiter] at h
    obtain rfl := Option.some.inj h
    exact honest_waits fun _ => honest_of_waiting fun answer hanswer => by cases hanswer
  | timing =>
    rw [hwaiter] at h
    dsimp only at h
    split at h
    · obtain rfl := Option.some.inj h
      exact iff_true_intro ((honest_returns_error _).mpr (Or.inr rfl))
    · obtain rfl := Option.some.inj h
      exact iff_true_intro (honest_of_waiting fun answer hanswer => by cases hanswer)
  | joined =>
    rw [hwaiter] at h
    obtain rfl := Option.some.inj h
    exact honest_waits fun _ => honest_of_waiting fun answer hanswer => by cases hanswer
  | taking =>
    rw [hwaiter] at h
    dsimp only at h
    cases hdriver : r.driver with
    | ended left =>
      rw [hdriver] at h
      obtain rfl := Option.some.inj h
      exact honest_takes left
    | adapter s =>
      rw [hdriver] at h
      cases h
    | leaving result =>
      rw [hdriver] at h
      cases h
    | put left =>
      rw [hdriver] at h
      cases h
  | returning found =>
    rw [hwaiter] at h
    obtain rfl := Option.some.inj h
    exact honest_waits fun _ => honest_returns_ok _
  | returned answer =>
    rw [hwaiter] at h
    cases h

/-- A step that is none of the waiting thread. -/
structure Keeps (r r' : ActionRun σ) : Prop where
  waiter : r'.waiter = r.waiter
  rejected : r.rejected = true → r'.rejected = true

theorem Keeps.honest (h : Keeps r r') (hhonest : r.Honest) : r'.Honest := by
  intro answer hanswer
  obtain ⟨e, heq, hsuccess | hunknown | ⟨hfailure, hrejected⟩⟩ := hhonest answer (h.waiter ▸ hanswer)
  · exact ⟨e, heq, Or.inl hsuccess⟩
  · exact ⟨e, heq, Or.inr (Or.inl hunknown)⟩
  · exact ⟨e, heq, Or.inr (Or.inr ⟨hfailure, h.rejected hrejected⟩)⟩

theorem keeps_raises (raised : Raised) : Keeps r (r.raises raised) where
  waiter := rfl
  rejected h := by
    show (r.rejected || _) = true
    rw [h, Bool.true_or]

theorem keeps_looks {raises : DesktopActionError → ActionRun σ → ActionRun σ} {goes : ActionRun σ → ActionRun σ}
    (hraises : ∀ e r, Keeps r (raises e r)) (hgoes : ∀ r : ActionRun σ, Keeps r (goes r)) :
    Keeps r (r.looks now raises goes) := by
  unfold looks
  dsimp only
  cases (raiseIfStopped r.system.controller now r.live).1 with
  | ok _ =>
    obtain ⟨hwaiter, hrejected⟩ := hgoes { r with system := { r.system with
      controller := (raiseIfStopped r.system.controller now r.live).2 } }
    exact ⟨hwaiter, hrejected⟩
  | error e =>
    obtain ⟨hwaiter, hrejected⟩ := hraises e { r with system := { r.system with
      controller := (raiseIfStopped r.system.controller now r.live).2 } }
    exact ⟨hwaiter, hrejected⟩

theorem keeps_drive {answer : Answer} (h : r.drive adapter now answer = some r') : Keeps r r' := by
  unfold drive at h
  cases hdriver : r.driver with
  | adapter s =>
    rw [hdriver] at h
    obtain rfl := Option.some.inj h
    cases adapter.step s answer with
    | goesOn next => exact ⟨rfl, fun hrejected => hrejected⟩
    | checks next => exact keeps_looks (fun _ _ => keeps_raises _) fun _ => ⟨rfl, fun hrejected => hrejected⟩
    | effects next => exact ⟨rfl, fun hrejected => hrejected⟩
    | raises raised => exact keeps_raises raised
    | answers result => exact ⟨rfl, fun hrejected => hrejected⟩
  | leaving result =>
    rw [hdriver] at h
    obtain rfl := Option.some.inj h
    exact keeps_looks (fun _ _ => ⟨rfl, fun hrejected => hrejected⟩) fun _ => ⟨rfl, fun hrejected => hrejected⟩
  | put left =>
    rw [hdriver] at h
    obtain rfl := Option.some.inj h
    exact ⟨rfl, fun hrejected => hrejected⟩
  | ended left =>
    rw [hdriver] at h
    cases h

theorem step_cases {l : RunEvent × ℚ} (h : r.Step host writer adapter l r') :
    Keeps r r' ∧ (∀ late, l.1 ≠ .waiter late) ∨ ∃ late, l.1 = .waiter late ∧
      { r with system := { r.system with clock := l.2 } }.wait writer l.2 late = some r' := by
  obtain ⟨event, now⟩ := l
  obtain ⟨-, hstep⟩ := Option.ite_none_right_eq_some.mp h
  cases event with
  | world e =>
    obtain ⟨system, -, rfl⟩ := Option.map_eq_some_iff.mp hstep
    exact Or.inl ⟨⟨rfl, fun hrejected => hrejected⟩, fun late heq => by cases heq⟩
  | driver answer =>
    obtain ⟨hwaiter, hrejected⟩ := keeps_drive hstep
    exact Or.inl ⟨⟨hwaiter, hrejected⟩, fun late heq => by cases heq⟩
  | waiter late => exact Or.inr ⟨late, rfl, hstep⟩

theorem step_honest {l : RunEvent × ℚ} (hhonest : r.Honest) (h : r.Step host writer adapter l r') :
    r'.Honest ↔ r.Clear l := by
  obtain ⟨hkeeps, hother⟩ | ⟨late, hlate, hwait⟩ := step_cases h
  · exact ⟨fun _ late heq => absurd heq (hother late), fun _ => hkeeps.honest hhonest⟩
  · refine (wait_honest hwait).trans ⟨fun hclear _ _ => hclear, fun hclear => hclear late hlate⟩

end Rules

/-- From the moment the adapter of a live action is entered, in every interleaving of the driver
thread, the waiting thread and all other calls: what the waiting thread returned is honest all
along a run exactly where the waiting thread finds no stop, and takes nothing that came after
the effect, unless the adapter rejected the action before. -/
theorem outcome_honest (host : Host) (writer : Writer) (adapter : Adapter σ) (system : System) (live : LiveAction)
    (current : NativeWindowTarget) (toolName : String) (loop : Loop) (hist : List (RunEvent × ℚ)) :
    Run.Always (Step host writer adapter) (start adapter system live current toolName loop) Honest hist ↔
      Run.Meets (Step host writer adapter) (start adapter system live current toolName loop) Clear hist := by
  have hstart : (start adapter system live current toolName loop).Honest := by
    refine honest_of_waiting fun answer hanswer => ?_
    cases loop with
    | head => cases hanswer
    | looking => cases hanswer
    | timing => cases hanswer
  refine Run.always_iff_meets (I := fun _ => True) (Q := Honest) trivial (fun _ _ _ _ _ => trivial) hstart ?_ ?_ ?_
  · exact fun s l s' _ hhonest hstep hclear => (step_honest hhonest hstep).mpr hclear
  · exact fun s _ hhonest => hhonest
  · exact fun s l s' _ hhonest hstep hafter => (step_honest hhonest hstep).mp hafter

/-- The outcome and the flag of the envelope that was returned. -/
def told (r : ActionRun σ) : Option (EffectOutcome × Bool) :=
  match r.waiter with
  | .returned (.ok e) => some (e.outcome, e.retryable)
  | _ => none

theorem not_honest {r : ActionRun σ} {retryable : Bool} (h : r.told = some (.knownFailure, retryable))
    (hrejected : r.rejected = false) : ¬ r.Honest := by
  intro hhonest
  unfold told at h
  split at h
  · rename_i e hreturned
    obtain ⟨other, hother, htold⟩ := hhonest _ hreturned
    obtain rfl := Except.ok.inj hother
    obtain ⟨houtcome, -⟩ := Prod.mk.inj (Option.some.inj h)
    obtain ⟨hsuccess, -⟩ | ⟨hunknown, -⟩ | ⟨-, hbefore⟩ := htold
    · rw [houtcome] at hsuccess
      cases hsuccess
    · rw [houtcome] at hunknown
      cases hunknown
    · rw [hrejected] at hbefore
      cases hbefore
  · cases h

end ActionRun

/-! ## A failure that is told for sure after the effect -/

namespace Sample

def writer : Writer := ⟨id, fun _ => ""⟩

/-- The action of the call that is alone, on Windows. -/
def focusing (loop : Loop) : ActionRun Windows.State :=
  .start (Windows.adapter (1 / 4)) called ⟨"da", lease, .focus, ⟨0, 1, 0⟩, lease, 2, true, 5⟩ window "desktop.focus_window" loop

/-- The window is focused, and then the emergency stop comes. -/
def stopped : List (RunEvent × ℚ) :=
  [(.driver (.target (some window)), 2), (.driver (.number 0), 2), (.driver (.number 1), 2), (.world .emergencyStop, 3),
    (.waiter false, 3)]

/-- The window was asked to be focused, and another one is in the foreground. -/
def elsewhere : List (RunEvent × ℚ) :=
  [(.driver (.target (some window)), 2), (.driver (.number 0), 2), (.driver (.number 1), 2), (.driver (.number 0), 2),
    (.driver (.number 3), 2), (.driver (.number 0), 2), (.waiter false, 2), (.waiter false, 2), (.waiter false, 2)]

def afterStop : ActionRun Windows.State :=
  (Run.exec (ActionRun.next host writer (Windows.adapter (1 / 4))) (focusing .looking) stopped).get (by decide +kernel)

def afterFocus : ActionRun Windows.State :=
  (Run.exec (ActionRun.next host writer (Windows.adapter (1 / 4))) (focusing .head) elsewhere).get (by decide +kernel)

end Sample

/-- A stop that the waiting thread finds after the window was focused is told as a known failure
that can be tried again, and so is a focus that did not hold. -/
theorem effect_told_as_failure :
    (∃ hist r, Run (ActionRun.Step Sample.host Sample.writer (Windows.adapter (1 / 4))) (Sample.focusing .looking) hist r ∧
      r.effected = true ∧ r.told = some (.knownFailure, true) ∧ ¬ r.Honest) ∧
      ∃ hist r, Run (ActionRun.Step Sample.host Sample.writer (Windows.adapter (1 / 4))) (Sample.focusing .head) hist r ∧
        r.effected = true ∧ r.told = some (.knownFailure, true) ∧ ¬ r.Honest := by
  have hstop : Run (ActionRun.Step Sample.host Sample.writer (Windows.adapter (1 / 4))) (Sample.focusing .looking)
      Sample.stopped.reverse Sample.afterStop := Run.of_exec (Option.some_get _).symm
  have hfocus : Run (ActionRun.Step Sample.host Sample.writer (Windows.adapter (1 / 4))) (Sample.focusing .head)
      Sample.elsewhere.reverse Sample.afterFocus := Run.of_exec (Option.some_get _).symm
  have htold : Sample.afterStop.told = some (.knownFailure, true) := by decide +kernel
  have htold' : Sample.afterFocus.told = some (.knownFailure, true) := by decide +kernel
  exact ⟨⟨_, _, hstop, by decide +kernel, htold, ActionRun.not_honest htold (by decide +kernel)⟩,
    _, _, hfocus, by decide +kernel, htold', ActionRun.not_honest htold' (by decide +kernel)⟩

end Desktop
