import Yuizaki.Package.Calls
import Yuizaki.Lib.Run

/- Revoked versions of a package, along runs of a lifecycle.

   The list of revoked versions is part of the state of a package. Installing, rolling back and
   revoking carry it on and look at it, and a restart reads it back from the state store; an
   uninstall forgets it with the rest of the state. -/
namespace Package

open Fallible Transition

namespace Lifecycle

/-! ## Statements -/

/-- A version of a package is listed as revoked, and is not the active one. -/
structure Bars (l : Lifecycle) (packageId version : String) : Prop where
  listed : version ∈ (l.current packageId).revokedVersions
  inactive : (l.current packageId).activeVersion ≠ some version

/-- The package is not uninstalled, and what is in memory is not lost. -/
def KeepsState (packageId : String) (l : Lifecycle) (e : Operation × Answers) : Prop :=
  match e.1 with
  | .uninstall other _ => other ≠ packageId
  | .restart => l.stored.isSome = true
  | _ => True

/-- A step that keeps the state of the package. -/
def KeepingStep (host : Host) (policy : Policy) (packageId : String) (l : Lifecycle) (e : Operation × Answers)
    (l' : Lifecycle) : Prop :=
  l.Step host policy e l' ∧ l.KeepsState packageId e

/-! ## Steps -/

section Rules

variable {host : Host} {policy : Policy} {answers : Answers} {l l' : Lifecycle} {packageId version other : String}
  {state : PackageState}

theorem Bars.congr (h : l.Bars packageId version) (hrecorded : l'.recorded packageId = l.recorded packageId) :
    l'.Bars packageId version := by
  have hcurrent : l'.current packageId = l.current packageId := congrArg (·.getD .fresh) hrecorded
  exact ⟨hcurrent ▸ h.listed, hcurrent ▸ h.inactive⟩

theorem Bars.records (h : l.Bars packageId version) (hrecords : Records l other state l')
    (hstate : packageId = other → version ∈ state.revokedVersions ∧ state.activeVersion ≠ some version) :
    l'.Bars packageId version := by
  have hcurrent := hrecords.current packageId
  split at hcurrent
  · rename_i heq
    obtain ⟨hlisted, hinactive⟩ := hstate heq
    exact ⟨hcurrent ▸ hlisted, hcurrent ▸ hinactive⟩
  · exact ⟨hcurrent ▸ h.listed, hcurrent ▸ h.inactive⟩

theorem checkInstall_listed {manifest : PackageManifest} (h : l.checkInstall manifest state = .ok ()) :
    manifest.version ∉ state.revokedVersions := by
  obtain ⟨_, -, h⟩ := bind_ok.mp h
  obtain ⟨_, hrevoked, -⟩ := bind_ok.mp h
  exact require_ok.mp hrevoked

theorem install_bars {manifest : PackageManifest} {artifact : Buffer} (hsynced : l.Synced) (h : l.Bars packageId version) :
    (l.install host policy answers manifest artifact).2.Synced ∧
      (l.install host policy answers manifest artifact).2.Bars packageId version := by
  cases hcall : l.install host policy answers manifest artifact with
  | mk answer l' =>
    obtain ⟨-, -, hsame⟩ | ⟨hadmitted, ⟨-, -, l₁, hwrote, rfl⟩ | ⟨-, -, l₁, hwrote, hrecords⟩⟩ := install_cases hsynced hcall
    · exact ⟨hsame.synced hsynced, h.congr (hsame.recorded packageId)⟩
    · exact ⟨hwrote.synced hsynced, h.congr (hwrote.recorded packageId)⟩
    · refine ⟨hrecords.synced (hwrote.synced hsynced), ?_⟩
      refine (h.congr (hwrote.recorded packageId)).records hrecords fun heq => ?_
      have hlisted : version ∈ (l.current manifest.packageId).revokedVersions := heq ▸ h.listed
      refine ⟨hlisted, fun hactive => ?_⟩
      exact checkInstall_listed hadmitted.checked (Option.some.inj hactive ▸ hlisted)

theorem rollback_bars (hsynced : l.Synced) (h : l.Bars packageId version) :
    (l.rollback answers other).2.Synced ∧ (l.rollback answers other).2.Bars packageId version := by
  cases hcall : l.rollback answers other with
  | mk answer l' =>
    obtain ⟨-, hsame⟩ | ⟨previous, active, hchecked, -, hrecords⟩ := rollback_cases hsynced hcall
    · exact ⟨hsame.synced hsynced, h.congr (hsame.recorded packageId)⟩
    · refine ⟨hrecords.synced hsynced, h.records hrecords fun heq => ?_⟩
      have hlisted : version ∈ (l.current other).revokedVersions := heq ▸ h.listed
      obtain ⟨-, -, hprevious⟩ := checkRollback_ok hchecked
      exact ⟨hlisted, fun hactive => hprevious (Option.some.inj hactive ▸ hlisted)⟩

theorem mem_revokedState {v : String} (h : v ∈ state.revokedVersions) : v ∈ (revokedState state version).revokedVersions := by
  show v ∈ if _ then _ else _
  split
  · exact h
  · exact List.mem_append_left _ h

theorem inactive_revokedState {v : String} (h : state.activeVersion ≠ some v) :
    (revokedState state version).activeVersion ≠ some v := by
  show (if _ then _ else _) ≠ _
  split
  · exact fun hnone => by cases hnone
  · exact h

theorem revoke_bars {v : String} (hsynced : l.Synced) (h : l.Bars packageId version) :
    (l.revoke answers other v).2.Synced ∧ (l.revoke answers other v).2.Bars packageId version := by
  cases hcall : l.revoke answers other v with
  | mk answer l' =>
    obtain ⟨-, hsame, -⟩ | ⟨-, ⟨-, -, hremoved⟩ | ⟨-, -, l₁, hremoved, hrecords⟩⟩ := revoke_cases hsynced hcall
    · exact ⟨hsame.synced hsynced, h.congr (hsame.recorded packageId)⟩
    · exact ⟨hremoved.synced hsynced, h.congr (hremoved.recorded packageId)⟩
    · refine ⟨hrecords.synced (hremoved.synced hsynced), ?_⟩
      refine (h.congr (hremoved.recorded packageId)).records hrecords fun heq => ?_
      exact ⟨mem_revokedState (heq ▸ h.listed), inactive_revokedState (heq ▸ h.inactive)⟩

theorem revoked_bars {result : PackageOperationResult} (hsynced : l.Synced)
    (h : l.revoke answers packageId version = (.ok result, l')) : l'.Synced ∧ l'.Bars packageId version := by
  obtain ⟨⟨e, herror⟩, -⟩ | ⟨-, ⟨⟨e, herror⟩, -⟩ | ⟨-, -, l₁, hremoved, hrecords⟩⟩ := revoke_cases hsynced h
  · cases herror
  · cases herror
  · have hcurrent : l'.current packageId = revokedState (l.current packageId) version :=
      (hrecords.current packageId).trans (if_pos rfl)
    refine ⟨hrecords.synced (hremoved.synced hsynced), ?_, ?_⟩
    · rw [hcurrent]
      show version ∈ if _ then _ else _
      split
      · assumption
      · exact List.mem_append_right _ List.mem_cons_self
    · rw [hcurrent]
      show (if _ then _ else _) ≠ _
      split
      · exact fun hnone => by cases hnone
      · assumption

theorem uninstall_bars {preserveUserData : Bool} (hsynced : l.Synced) (h : l.Bars packageId version)
    (hother : other ≠ packageId) :
    (l.uninstall answers other preserveUserData).2.Synced ∧
      (l.uninstall answers other preserveUserData).2.Bars packageId version := by
  cases hcall : l.uninstall answers other preserveUserData with
  | mk answer l' =>
    obtain ⟨hsynced', ⟨-, hsame, -⟩ | ⟨-, hrecorded, -⟩ | ⟨-, -, ⟨-, -, hrecorded⟩ | ⟨-, -, hrecorded⟩⟩⟩ :=
      uninstall_cases hsynced hcall
    · exact ⟨hsynced', h.congr (hsame.recorded packageId)⟩
    · exact ⟨hsynced', h.congr (hrecorded packageId)⟩
    · exact ⟨hsynced', h.congr (hrecorded packageId)⟩
    · refine ⟨hsynced', h.congr ?_⟩
      rw [hrecorded packageId, if_neg (Ne.symm hother)]

theorem look_same : Same l (l.look answers other).2 := by
  have hstate : Same l (l.state answers other).2 := state_same
  unfold look
  cases hcall : l.state answers other with
  | mk answer l' =>
    rw [hcall] at hstate
    cases answer with
    | error e => exact hstate
    | ok current => exact hstate

theorem restart_recorded (hsynced : l.Synced) (hstore : l.stored.isSome = true) (packageId : String) :
    l.restart.recorded packageId = l.recorded packageId := by
  obtain ⟨file, hfile⟩ := Option.isSome_iff_exists.mp hstore
  show none.or (l.stored.bind _) = (l.states.get packageId).or (l.stored.bind _)
  rw [hfile]
  cases hmemory : l.states.get packageId with
  | none => rfl
  | some state => exact hsynced file hfile packageId state hmemory

theorem restart_synced : l.restart.Synced := fun _ _ => Dict.empty_within

theorem step_bars {e : Operation × Answers} (hsynced : l.Synced) (h : l.Bars packageId version)
    (hstep : l.KeepingStep host policy packageId e l') : l'.Synced ∧ l'.Bars packageId version := by
  obtain ⟨operation, answers⟩ := e
  obtain ⟨rfl, hkeeps⟩ := hstep
  cases operation with
  | install manifest artifact => exact install_bars hsynced h
  | rollback other => exact rollback_bars hsynced h
  | revoke other v => exact revoke_bars hsynced h
  | uninstall other preserveUserData => exact uninstall_bars hsynced h hkeeps
  | look other =>
    have hsame : Same l (l.look answers other).2 := look_same
    exact ⟨hsame.synced hsynced, h.congr (hsame.recorded packageId)⟩
  | restart => exact ⟨restart_synced, h.congr (restart_recorded hsynced hkeeps packageId)⟩

theorem step_synced {e : Operation × Answers} (hsynced : l.Synced) (hstep : l.Step host policy e l') : l'.Synced := by
  obtain ⟨operation, answers⟩ := e
  obtain rfl := hstep
  cases operation with
  | install manifest artifact =>
    cases hcall : l.install host policy answers manifest artifact with
    | mk answer l' =>
      show (l.install host policy answers manifest artifact).2.Synced
      rw [hcall]
      obtain ⟨-, -, hsame⟩ | ⟨-, ⟨-, -, l₁, hwrote, rfl⟩ | ⟨-, -, l₁, hwrote, hrecords⟩⟩ := install_cases hsynced hcall
      · exact hsame.synced hsynced
      · exact hwrote.synced hsynced
      · exact hrecords.synced (hwrote.synced hsynced)
  | rollback packageId =>
    cases hcall : l.rollback answers packageId with
    | mk answer l' =>
      show (l.rollback answers packageId).2.Synced
      rw [hcall]
      obtain ⟨-, hsame⟩ | ⟨previous, active, -, -, hrecords⟩ := rollback_cases hsynced hcall
      · exact hsame.synced hsynced
      · exact hrecords.synced hsynced
  | revoke packageId version =>
    cases hcall : l.revoke answers packageId version with
    | mk answer l' =>
      show (l.revoke answers packageId version).2.Synced
      rw [hcall]
      obtain ⟨-, hsame, -⟩ | ⟨-, ⟨-, -, hremoved⟩ | ⟨-, -, l₁, hremoved, hrecords⟩⟩ := revoke_cases hsynced hcall
      · exact hsame.synced hsynced
      · exact hremoved.synced hsynced
      · exact hrecords.synced (hremoved.synced hsynced)
  | uninstall packageId preserveUserData =>
    cases hcall : l.uninstall answers packageId preserveUserData with
    | mk answer l' =>
      show (l.uninstall answers packageId preserveUserData).2.Synced
      rw [hcall]
      exact (uninstall_cases hsynced hcall).1
  | look packageId => exact look_same.synced hsynced
  | restart => exact restart_synced

theorem start_synced (hasStore : Bool) : (start hasStore).Synced := fun _ _ => Dict.empty_within

end Rules

end Lifecycle

/-- Once a version of a package has been revoked, it is not the active version again as long as
the package is not uninstalled and no restart loses the memory. -/
theorem revoked_stays_revoked (host : Host) (policy : Policy) (hasStore : Bool) (packageId version : String)
    (older newer : List (Operation × Answers)) (l₁ l₂ l : Lifecycle) (answers : Answers) (result : PackageOperationResult)
    (hbefore : Run (Lifecycle.Step host policy) (Lifecycle.start hasStore) older l₁)
    (hrevoke : l₁.revoke answers packageId version = (.ok result, l₂))
    (hafter : Run (Lifecycle.KeepingStep host policy packageId) l₂ newer l) :
    (l.current packageId).activeVersion ≠ some version := by
  have hsynced : l₁.Synced :=
    hbefore.invariant (Lifecycle.start_synced hasStore) fun _ _ _ hsynced hstep => Lifecycle.step_synced hsynced hstep
  have hboth : l.Synced ∧ l.Bars packageId version :=
    Run.invariant (I := fun l => l.Synced ∧ l.Bars packageId version) hafter (Lifecycle.revoked_bars hsynced hrevoke)
      fun _ _ _ hboth hstep => Lifecycle.step_bars hboth.1 hboth.2 hstep
  exact hboth.2.inactive

/-! ## A version that comes back -/

namespace Sample

def installed : List (Operation × Answers) := [(.install (manifest "1") artifact, answers)]

/-- The package is uninstalled, and version 1 is installed again. -/
def reinstalled : List (Operation × Answers) :=
  [(.uninstall "cat" true, answers), (.install (manifest "1") artifact, answers)]

/-- The lifecycle after operations in turn. -/
def after (es : List (Operation × Answers)) : Lifecycle :=
  es.foldl (fun l e => (l.run host policy e.2 e.1).2) (Lifecycle.start true)

end Sample

/-- A version that is installed again without an uninstall is refused. -/
theorem revoked_stays_revoked_cat :
    ((((Sample.after Sample.installed).revoke Sample.answers "cat" "1").2.install Sample.host Sample.policy Sample.answers
      (Sample.manifest "1") Sample.artifact).2.current "cat").activeVersion ≠ some "1" := by
  have hrevoke : (Sample.after Sample.installed).revoke Sample.answers "cat" "1" =
      (.ok ⟨"cat", some "1", "revoke", [], true⟩, ((Sample.after Sample.installed).revoke Sample.answers "cat" "1").2) := by
    decide +kernel
  exact revoked_stays_revoked Sample.host Sample.policy true "cat" "1" Sample.installed.reverse
    [(.install (Sample.manifest "1") Sample.artifact, Sample.answers)] (Sample.after Sample.installed) _ _ Sample.answers _
    (Run.of_foldl _ _ Sample.installed) hrevoke (Run.next Run.start ⟨rfl, trivial⟩)

/-- An uninstall forgets which versions were revoked: version 1 is revoked, and is active later. -/
theorem revoked_version_returns :
    ∃ older middle l₁ l₂ l answers result,
      Run (Lifecycle.Step Sample.host Sample.policy) (Lifecycle.start true) older l₁ ∧
        l₁.revoke answers "cat" "1" = (.ok result, l₂) ∧ Run (Lifecycle.Step Sample.host Sample.policy) l₂ middle l ∧
          (l.current "cat").activeVersion = some "1" := by
  have hrevoke : (Sample.after Sample.installed).revoke Sample.answers "cat" "1" =
      (.ok ⟨"cat", some "1", "revoke", [], true⟩, ((Sample.after Sample.installed).revoke Sample.answers "cat" "1").2) := by
    decide +kernel
  refine ⟨Sample.installed.reverse, Sample.reinstalled.reverse, Sample.after Sample.installed, _, _, Sample.answers, _,
    Run.of_foldl _ _ Sample.installed, hrevoke,
    Run.of_foldl _ _ Sample.reinstalled, ?_⟩
  decide +kernel

end Package
