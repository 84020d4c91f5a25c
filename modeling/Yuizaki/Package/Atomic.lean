import Yuizaki.Package.Revoked
import Mathlib.Data.List.Dedup

/- Operations on packages that throw, and the artifacts of the versions in use.

   An operation that throws means to leave everything as it was, and every version in use has its
   artifact. Three clean-ups work against that: a failed install takes back the artifact of its
   version, which is still in use where the install comes after a rollback from that version; and a
   revocation and an uninstall remove artifacts before the state store is written. -/
namespace Package

open Fallible Transition

namespace Lifecycle

/-! ## Statements -/

/-- Every version in use has its artifact, so that an install and a rollback are not refused for
the lack of one. -/
structure Complete (l : Lifecycle) : Prop where
  there : ∀ packageId, ∀ version ∈ (l.current packageId).referenced, l.artifacts.get (packageId, version) ≠ none
  available : ∀ packageId, l.assertReferencedArtifactsAvailable packageId (l.current packageId) = .ok ()

/-- The states are what they were, and so are the artifacts of the versions they refer to. -/
structure Unchanged (l l' : Lifecycle) : Prop where
  recorded : ∀ packageId, l'.recorded packageId = l.recorded packageId
  artifacts : ∀ packageId, ∀ version ∈ (l.current packageId).referenced,
    l'.artifacts.get (packageId, version) = l.artifacts.get (packageId, version)

/-- An operation that throws changes nothing, and every version in use has its artifact after it. -/
structure Atomic (l : Lifecycle) (answer : Except String PackageOperationResult) (l' : Lifecycle) : Prop where
  unchanged : ∀ e, answer = .error e → Unchanged l l'
  complete : l'.Complete

/-- The clean-up of an operation does not meet a version in use. -/
def SparesArtifacts (host : Host) (policy : Policy) (l : Lifecycle) (e : Operation × Answers) : Prop :=
  match e.1 with
  | .install manifest artifact => Admitted host policy l e.2 manifest artifact →
      manifest.version ∈ (l.current manifest.packageId).referenced → l.Holds e.2 manifest artifact
  | .revoke packageId version => Gives (l.state e.2 packageId).1 →
      (l.current packageId).activeVersion = some version → l.Saves e.2 packageId
  | .uninstall packageId _ => Gives (l.state e.2 packageId).1 → l.removedVersions packageId ≠ [] → l.Erases e.2 packageId
  | _ => True

/-! ## What is in use -/

section Rules

variable {host : Host} {policy : Policy} {answers : Answers} {l l' : Lifecycle} {packageId version : String}
  {answer : Except String PackageOperationResult}

theorem has_true : l.has packageId version = .ok true ↔
    checkSegments packageId version = .ok () ∧ l.artifacts.get (packageId, version) ≠ none := by
  unfold has
  rw [bind_ok, ← Option.isSome_iff_ne_none]
  constructor
  · intro h
    obtain ⟨_, hsegments, hget⟩ := h
    exact ⟨hsegments, pure_ok.mp hget⟩
  · intro h
    exact ⟨(), h.1, pure_ok.mpr h.2⟩

theorem missing_nil {versions : List String} : l.missing packageId versions = .ok [] ↔
    ∀ version ∈ versions, checkSegments packageId version = .ok () ∧ l.artifacts.get (packageId, version) ≠ none := by
  induction versions with
  | nil => exact ⟨fun _ _ hnone => absurd hnone List.not_mem_nil, fun _ => rfl⟩
  | cons version rest ih =>
    rw [List.forall_mem_cons, ← ih, ← has_true]
    show (l.has packageId version >>= fun there => l.missing packageId rest >>= fun others =>
      pure (if there = true then others else version :: others)) = .ok [] ↔ _
    rw [bind_ok]
    constructor
    · intro h
      obtain ⟨there, hthere, h⟩ := h
      obtain ⟨others, hothers, h⟩ := bind_ok.mp h
      have hnone : (if there = true then others else version :: others) = [] := pure_ok.mp h
      cases there with
      | false => cases hnone
      | true =>
        obtain rfl : others = [] := hnone
        exact ⟨hthere, hothers⟩
    · intro h
      exact ⟨true, h.1, bind_ok.mpr ⟨[], h.2, rfl⟩⟩

theorem available_iff {state : PackageState} : l.assertReferencedArtifactsAvailable packageId state = .ok () ↔
    ∀ version ∈ state.referenced,
      checkSegments packageId version = .ok () ∧ l.artifacts.get (packageId, version) ≠ none := by
  rw [← missing_nil]
  unfold assertReferencedArtifactsAvailable
  rw [bind_ok]
  constructor
  · intro h
    obtain ⟨missing, hmissing, hnone⟩ := h
    rw [hmissing, require_ok.mp hnone]
  · intro h
    exact ⟨[], h, rfl⟩

theorem complete_iff : l.Complete ↔ ∀ packageId, ∀ version ∈ (l.current packageId).referenced,
    checkSegments packageId version = .ok () ∧ l.artifacts.get (packageId, version) ≠ none := by
  refine ⟨fun h packageId => available_iff.mp (h.available packageId), fun h => ⟨fun packageId version hversion => ?_,
    fun packageId => available_iff.mpr (h packageId)⟩⟩
  exact (h packageId version hversion).2

theorem Same.unchanged (h : Same l l') : Unchanged l l' :=
  ⟨h.recorded, fun _ _ _ => by rw [h.artifacts]⟩

theorem Unchanged.current (h : Unchanged l l') (packageId : String) : l'.current packageId = l.current packageId :=
  congrArg (·.getD .fresh) (h.recorded packageId)

theorem Unchanged.complete (h : Unchanged l l') (hcomplete : l.Complete) : l'.Complete := by
  rw [complete_iff] at hcomplete ⊢
  intro packageId version hversion
  rw [h.current packageId] at hversion
  rw [h.artifacts packageId version hversion]
  exact hcomplete packageId version hversion

theorem Unchanged.atomic (h : Unchanged l l') (hcomplete : l.Complete) : Atomic l answer l' :=
  ⟨fun _ _ => h, h.complete hcomplete⟩

theorem not_atomic {e : String} (hcomplete : l.Complete) (hversion : version ∈ (l.current packageId).referenced)
    (hgone : l'.artifacts.get (packageId, version) = none) : ¬ Atomic l (.error e) l' := by
  intro h
  have hkept := (h.unchanged e rfl).artifacts packageId version hversion
  rw [hgone] at hkept
  exact hcomplete.there packageId version hversion hkept.symm

/-! ## Operations -/

theorem install_atomic {manifest : PackageManifest} {artifact : Buffer} (hsynced : l.Synced) (hcomplete : l.Complete)
    (h : l.install host policy answers manifest artifact = (answer, l')) :
    Atomic l answer l' ↔ l.SparesArtifacts host policy (.install manifest artifact, answers) := by
  unfold SparesArtifacts
  dsimp only
  have hall := complete_iff.mp hcomplete
  obtain ⟨⟨e, rfl⟩, hrefused, hsame⟩ | ⟨hadmitted, ⟨⟨e, rfl⟩, hfails, l₁, hwrote, rfl⟩ | ⟨⟨result, rfl⟩, hholds, l₁, hwrote, hrecords⟩⟩ :=
    install_cases hsynced h
  · exact ⟨fun _ hadmitted => absurd hadmitted hrefused, fun _ => hsame.unchanged.atomic hcomplete⟩
  · have hget (k : String × String) : (l₁.artifacts.erase (manifest.packageId, manifest.version)).get k =
        if k = (manifest.packageId, manifest.version) then none else l.artifacts.get k := by
      rw [Dict.get_erase, hwrote.artifacts, Dict.get_set]
      split
      · rfl
      · rfl
    constructor
    · intro hatomic _ hused
      refine absurd hatomic (not_atomic hcomplete hused ?_)
      rw [hget, if_pos rfl]
    · intro hspares
      refine Unchanged.atomic ⟨hwrote.recorded, fun packageId version hversion => ?_⟩ hcomplete
      rw [hget, if_neg fun heq => ?_]
      obtain ⟨rfl, rfl⟩ := Prod.mk.inj heq
      exact hfails (hspares hadmitted hversion)
  · refine ⟨fun _ _ _ => hholds, fun _ => ⟨fun e herror => (by cases herror), ?_⟩⟩
    -- the version that is installed, and the one that was active before it
    refine complete_iff.mpr fun packageId version hversion => ?_
    rw [hrecords.artifacts, hwrote.artifacts, Dict.get_set]
    have hcurrent := hrecords.current packageId
    split at hcurrent
    · rename_i heq
      rw [hcurrent] at hversion
      obtain hnew | hold := List.mem_append.mp hversion
      · obtain rfl : version = manifest.version := List.mem_singleton.mp hnew
        rw [heq, if_pos rfl]
        exact ⟨hadmitted.segments, Option.some_ne_none artifact⟩
      · obtain ⟨hsegments, hthere⟩ := hall manifest.packageId version (List.mem_append_left _ hold)
        refine ⟨heq ▸ hsegments, ?_⟩
        rw [heq]
        split
        · exact Option.some_ne_none artifact
        · exact hthere
    · rename_i hne
      have hused : version ∈ (l.current packageId).referenced := by
        unfold Lifecycle.current at hcurrent ⊢
        rw [hwrote.recorded packageId] at hcurrent
        rw [← hcurrent]
        exact hversion
      rw [if_neg fun heq => hne (Prod.mk.inj heq).1]
      exact hall packageId version hused

theorem rollback_atomic (hsynced : l.Synced) (hcomplete : l.Complete) (h : l.rollback answers packageId = (answer, l')) :
    Atomic l answer l' := by
  obtain ⟨-, hsame⟩ | ⟨previous, active, hchecked, ⟨result, rfl⟩, hrecords⟩ := rollback_cases hsynced h
  · exact hsame.unchanged.atomic hcomplete
  · obtain ⟨hactive, hprevious, -⟩ := checkRollback_ok hchecked
    refine ⟨fun e herror => (by cases herror), complete_iff.mpr fun other version hversion => ?_⟩
    have hall := complete_iff.mp hcomplete other version
    have hcurrent := hrecords.current other
    rw [hrecords.artifacts]
    refine hall ?_
    split at hcurrent
    · rename_i heq
      rw [hcurrent] at hversion
      rw [heq]
      unfold PackageState.referenced at hversion ⊢
      rw [hactive, hprevious]
      exact List.mem_append.mpr (List.mem_append.mp hversion).symm
    · rw [← hcurrent]
      exact hversion

theorem referenced_revokedState {state : PackageState} {v : String}
    (h : v ∈ (revokedState state version).referenced) : state.activeVersion ≠ some version ∧ v ∈ state.referenced := by
  unfold PackageState.referenced revokedState at h
  dsimp only at h
  split at h
  · cases h
  · rename_i hother
    exact ⟨hother, h⟩

theorem revoke_atomic (hsynced : l.Synced) (hcomplete : l.Complete)
    (h : l.revoke answers packageId version = (answer, l')) :
    Atomic l answer l' ↔ l.SparesArtifacts host policy (.revoke packageId version, answers) := by
  unfold SparesArtifacts
  dsimp only
  have hall := complete_iff.mp hcomplete
  obtain ⟨-, hsame, hrefused⟩ | ⟨hloads, ⟨⟨e, rfl⟩, hunsaved, hremoved⟩ | ⟨⟨result, rfl⟩, hsaved, l₁, hremoved, hrecords⟩⟩ :=
    revoke_cases hsynced h
  · refine ⟨fun _ hloads hactive => ?_, fun _ => hsame.unchanged.atomic hcomplete⟩
    have hused : version ∈ (l.current packageId).referenced :=
      List.mem_append_left _ (Option.mem_toList.mpr hactive)
    exact absurd (hall packageId version hused).1 (hrefused hloads).2
  · constructor
    · intro hatomic _ hactive
      have hused : version ∈ (l.current packageId).referenced :=
        List.mem_append_left _ (Option.mem_toList.mpr hactive)
      refine absurd hatomic (not_atomic hcomplete hused ?_)
      rw [hremoved.artifacts, if_pos hactive, Dict.get_erase, if_pos rfl]
    · intro hspares
      refine Unchanged.atomic ⟨hremoved.recorded, fun _ _ _ => ?_⟩ hcomplete
      rw [hremoved.artifacts, if_neg fun hactive => hunsaved (hspares hloads hactive)]
  · refine ⟨fun _ _ _ => hsaved, fun _ => ⟨fun e herror => (by cases herror), ?_⟩⟩
    refine complete_iff.mpr fun other v hversion => ?_
    have hcurrent := hrecords.current other
    rw [hrecords.artifacts, hremoved.artifacts]
    split at hcurrent
    · rename_i heq
      rw [hcurrent] at hversion
      obtain ⟨hother, hused⟩ := referenced_revokedState hversion
      rw [heq, if_neg hother]
      exact hall packageId v hused
    · rename_i hne
      have hused : v ∈ (l.current other).referenced := by
        unfold Lifecycle.current at hcurrent ⊢
        rw [hremoved.recorded other] at hcurrent
        rw [← hcurrent]
        exact hversion
      obtain ⟨hsegments, hthere⟩ := hall other v hused
      refine ⟨hsegments, ?_⟩
      split
      · rw [Dict.get_erase, if_neg fun heq => hne (Prod.mk.inj heq).1]
        exact hthere
      · exact hthere

theorem mem_removedVersions (h : version ∈ l.removedVersions packageId) : version ∈ (l.current packageId).referenced :=
  List.mem_dedup.mp (List.mem_filter.mp h).1

theorem uninstall_atomic {preserveUserData : Bool} (hsynced : l.Synced) (hcomplete : l.Complete)
    (h : l.uninstall answers packageId preserveUserData = (answer, l')) :
    Atomic l answer l' ↔ l.SparesArtifacts host policy (.uninstall packageId preserveUserData, answers) := by
  unfold SparesArtifacts
  dsimp only
  have hall := complete_iff.mp hcomplete
  obtain ⟨-, ⟨-, hsame, hrefused⟩ | ⟨-, -, version, hversion, hunsafe⟩ |
    ⟨hloads, hcleared, ⟨⟨e, rfl⟩, hkept, hrecorded⟩ | ⟨⟨result, rfl⟩, herased, hrecorded⟩⟩⟩ := uninstall_cases hsynced h
  · exact ⟨fun _ hloads => absurd hloads hrefused, fun _ => hsame.unchanged.atomic hcomplete⟩
  · exact absurd (hall packageId version (mem_removedVersions hversion)).1 hunsafe
  · constructor
    · intro hatomic _ hused
      obtain ⟨version, hversion⟩ := List.exists_mem_of_ne_nil _ hused
      refine absurd hatomic (not_atomic hcomplete (mem_removedVersions hversion) ?_)
      rw [hcleared, if_pos ⟨rfl, hversion⟩]
    · intro hspares
      refine Unchanged.atomic ⟨hrecorded, fun other version _ => ?_⟩ hcomplete
      have hnone : l.removedVersions packageId = [] := by
        by_contra hused
        exact hkept (hspares hloads hused)
      rw [hcleared, hnone, if_neg fun hremoved => List.not_mem_nil hremoved.2]
  · refine ⟨fun _ _ _ => herased, fun _ => ⟨fun e herror => (by cases herror), ?_⟩⟩
    refine complete_iff.mpr fun other version hversion => ?_
    unfold Lifecycle.current at hversion
    rw [hrecorded other] at hversion
    split at hversion
    · cases hversion
    · rename_i hne
      rw [hcleared, if_neg fun hremoved => hne hremoved.1]
      exact hall other version hversion

theorem look_atomic (hcomplete : l.Complete) (h : l.look answers packageId = (answer, l')) : Atomic l answer l' := by
  have hsame : Same l (l.look answers packageId).2 := look_same
  rw [h] at hsame
  exact hsame.unchanged.atomic hcomplete

theorem restart_complete (hsynced : l.Synced) (hcomplete : l.Complete) : l.restart.Complete := by
  cases hstore : l.stored with
  | none =>
    refine complete_iff.mpr fun packageId version hversion => ?_
    have hnone : l.restart.recorded packageId = none := by
      show none.or (l.stored.bind _) = none
      rw [hstore]
      rfl
    unfold Lifecycle.current at hversion
    rw [hnone] at hversion
    cases hversion
  | some file =>
    have hsome : l.stored.isSome = true := by rw [hstore]; rfl
    exact Unchanged.complete ⟨restart_recorded hsynced hsome, fun _ _ _ => rfl⟩ hcomplete

theorem step_atomic {e : Operation × Answers} (hsynced : l.Synced) (hcomplete : l.Complete) :
    Atomic l (l.run host policy e.2 e.1).1 (l.run host policy e.2 e.1).2 ↔ l.SparesArtifacts host policy e := by
  obtain ⟨operation, answers⟩ := e
  cases operation with
  | install manifest artifact =>
    show Atomic l (l.install host policy answers manifest artifact).1 (l.install host policy answers manifest artifact).2 ↔ _
    cases hcall : l.install host policy answers manifest artifact with
    | mk answer l' => exact install_atomic hsynced hcomplete hcall
  | rollback packageId => exact ⟨fun _ => trivial, fun _ => rollback_atomic hsynced hcomplete rfl⟩
  | revoke packageId version => exact revoke_atomic hsynced hcomplete rfl
  | uninstall packageId preserveUserData => exact uninstall_atomic hsynced hcomplete rfl
  | look packageId => exact ⟨fun _ => trivial, fun _ => look_atomic hcomplete rfl⟩
  | restart =>
    exact ⟨fun _ => trivial, fun _ => ⟨fun e herror => (by cases herror), restart_complete hsynced hcomplete⟩⟩

theorem start_complete (hasStore : Bool) : (start hasStore).Complete := by
  refine complete_iff.mpr fun packageId version hversion => ?_
  have hfresh : (start hasStore).current packageId = .fresh := by
    cases hasStore with
    | false => rfl
    | true => rfl
  rw [hfresh] at hversion
  cases hversion

end Rules

end Lifecycle

/-! ## Runs -/

/-- A lifecycle, with the operation before: where it began and what it answered. -/
structure Observed where
  now : Lifecycle
  last : Option (Lifecycle × Except String PackageOperationResult)

namespace Observed

def start (hasStore : Bool) : Observed := ⟨Lifecycle.start hasStore, none⟩

def next (host : Host) (policy : Policy) (s : Observed) (e : Operation × Answers) : Observed where
  now := (s.now.run host policy e.2 e.1).2
  last := some (s.now, (s.now.run host policy e.2 e.1).1)

def Step (host : Host) (policy : Policy) (s : Observed) (e : Operation × Answers) (s' : Observed) : Prop :=
  s.next host policy e = s'

/-- The operation before changed nothing where it threw, and every version in use has its
artifact. -/
structure Sound (s : Observed) : Prop where
  unchanged : ∀ before e, s.last = some (before, .error e) → before.Unchanged s.now
  complete : s.now.Complete

variable {host : Host} {policy : Policy} {s s' : Observed} {e : Operation × Answers}

theorem next_sound : (s.next host policy e).Sound ↔
    s.now.Atomic (s.now.run host policy e.2 e.1).1 (s.now.run host policy e.2 e.1).2 := by
  constructor
  · intro h
    exact ⟨fun error herror => h.unchanged s.now error (congrArg (fun answer => some (s.now, answer)) herror), h.complete⟩
  · intro h
    refine ⟨fun before error hlast => ?_, h.complete⟩
    obtain ⟨rfl, herror⟩ := Prod.mk.inj (Option.some.inj hlast)
    exact h.unchanged error herror

end Observed

/-- Operations that throw change nothing, and every version in use has its artifact, exactly along
the runs in which no clean-up meets a version in use. -/
theorem operations_atomic (host : Host) (policy : Policy) (hasStore : Bool) (hist : List (Operation × Answers)) :
    Run.Always (Observed.Step host policy) (Observed.start hasStore) Observed.Sound hist ↔
      Run.Meets (Observed.Step host policy) (Observed.start hasStore) (fun s e => s.now.SparesArtifacts host policy e) hist := by
  have hstart : (Observed.start hasStore).Sound :=
    ⟨fun before e hlast => (by cases hlast), Lifecycle.start_complete hasStore⟩
  refine Run.always_iff_meets (I := fun s => s.now.Synced) (Q := Observed.Sound) (Lifecycle.start_synced hasStore) ?_ hstart
    ?_ (fun _ _ h => h) ?_
  · intro s e s' hsynced hstep
    obtain rfl := hstep
    exact Lifecycle.step_synced (e := e) hsynced rfl
  · intro s e s' hsynced hsound hstep hspares
    obtain rfl := hstep
    exact Observed.next_sound.mpr ((Lifecycle.step_atomic hsynced hsound.complete).mpr hspares)
  · intro s e s' hsynced hsound hstep hsound'
    obtain rfl := hstep
    exact (Lifecycle.step_atomic hsynced hsound.complete).mp (Observed.next_sound.mp hsound')

/-! ## A version in use whose artifact is gone -/

namespace Sample

def sick : Answers := { answers with healthCheck := fun _ _ _ => false }

/-- Version 2 is rolled back to version 1, and installed again in vain. -/
def retried : List (Operation × Answers) :=
  [(.install (manifest "1") artifact, answers), (.install (manifest "2") artifact, answers), (.rollback "cat", answers),
    (.install (manifest "2") artifact, sick)]

def left : Observed := retried.foldl (Observed.next host policy) (Observed.start true)

end Sample

/-- The install that fails takes version 2 away, to which a rollback would lead, and after it no
other version is installed. -/
theorem failed_install_removes_artifact :
    ∃ hist s, Run (Observed.Step Sample.host Sample.policy) (Observed.start true) hist s ∧ ¬ s.Sound ∧
      ((s.now.install Sample.host Sample.policy Sample.answers (Sample.manifest "3") Sample.artifact).1 =
        .error "package artifact is unavailable: 2") := by
  have hmissing : Sample.left.now.assertReferencedArtifactsAvailable "cat" (Sample.left.now.current "cat") =
      .error "package artifact is unavailable: 2" := by
    decide +kernel
  refine ⟨Sample.retried.reverse, Sample.left, Run.of_foldl _ _ Sample.retried, fun hsound => ?_, by decide +kernel⟩
  cases hmissing.symm.trans (hsound.complete.available "cat")

end Package
