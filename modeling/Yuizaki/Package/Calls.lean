import Yuizaki.Package.Lifecycle

/- What each call of a package lifecycle leaves, in terms of what is recorded of the packages and
   of the artifacts that are there.

   The memory only holds what the state store holds, where there is one (`Synced`), so what is
   recorded is what the next call goes by, and a restart with a state store changes nothing. -/
namespace Package

open Fallible

namespace Lifecycle

/-- What is in memory is in the state store, where there is one. -/
def Synced (l : Lifecycle) : Prop := ∀ file, l.stored = some file → Dict.Within l.states file

/-- The same states are recorded, and the same artifacts are there. -/
structure Same (l l' : Lifecycle) : Prop where
  recorded : ∀ packageId, l'.recorded packageId = l.recorded packageId
  artifacts : l'.artifacts = l.artifacts
  stored : l'.stored = l.stored
  synced : l.Synced → l'.Synced

/-- A state is recorded for a package; the others, and the artifacts, stay. -/
structure Records (l : Lifecycle) (packageId : String) (state : PackageState) (l' : Lifecycle) : Prop where
  recorded : ∀ other, l'.recorded other = if other = packageId then some state else l.recorded other
  artifacts : l'.artifacts = l.artifacts
  stored : l'.stored.isSome = l.stored.isSome
  synced : l.Synced → l'.Synced

def current (l : Lifecycle) (packageId : String) : PackageState := (l.recorded packageId).getD .fresh

section Rules

variable {answers : Answers} {l l' l'' : Lifecycle} {packageId version : String} {state : PackageState}

theorem Same.refl (l : Lifecycle) : Same l l := ⟨fun _ => rfl, rfl, rfl, fun h => h⟩

theorem Same.records (h : Same l l') (h' : Records l' packageId state l'') : Records l packageId state l'' where
  recorded other := by rw [h'.recorded other, h.recorded other]
  artifacts := h'.artifacts.trans h.artifacts
  stored := h'.stored.trans (congrArg Option.isSome h.stored)
  synced hsynced := h'.synced (h.synced hsynced)

theorem Records.current (h : Records l packageId state l') (other : String) :
    l'.current other = if other = packageId then state else l.current other := by
  unfold Lifecycle.current
  rw [h.recorded other]
  split
  · rfl
  · rfl

theorem state_same : Same l (l.state answers packageId).2 := by
  unfold Lifecycle.state
  cases hmemory : l.states.get packageId with
  | some state => exact Same.refl l
  | none =>
    cases hstored : l.stored with
    | none => exact Same.refl l
    | some file =>
      dsimp only
      split
      · exact Same.refl l
      · cases hget : file.get packageId with
        | none => exact Same.refl l
        | some state =>
          dsimp only
          refine ⟨fun other => ?_, rfl, hstored.symm, fun hsynced => ?_⟩
          · show ((l.states.set packageId state).get other).or _ = (l.states.get other).or _
            rw [Dict.get_set]
            by_cases heq : other = packageId
            · rw [if_pos heq, heq, hmemory, hstored]
              exact hget.symm
            · rw [if_neg heq, hstored]
          · intro other hother k v hk
            have hfile : file = other := Option.some.inj hother
            have hother : l.stored = some other := hstored.trans hother
            rw [Dict.get_set] at hk
            by_cases heq : k = packageId
            · rw [if_pos heq] at hk
              rw [heq, ← hfile, hget, hk]
            · rw [if_neg heq] at hk
              exact hsynced other hother k v hk

theorem state_ok {current : PackageState} (h : (l.state answers packageId).1 = .ok current) :
    current = l.current packageId := by
  unfold Lifecycle.state at h
  unfold Lifecycle.current Lifecycle.recorded
  cases hmemory : l.states.get packageId with
  | some state =>
    rw [hmemory] at h
    exact (Except.ok.inj h).symm
  | none =>
    rw [hmemory] at h
    cases hstored : l.stored with
    | none =>
      rw [hstored] at h
      exact (Except.ok.inj h).symm
    | some file =>
      rw [hstored] at h
      dsimp only at h
      split at h
      · cases h
      · cases hget : file.get packageId with
        | none =>
          rw [hget] at h
          rw [Option.bind_some, hget]
          exact (Except.ok.inj h).symm
        | some state =>
          rw [hget] at h
          rw [Option.bind_some, hget]
          exact (Except.ok.inj h).symm

theorem setState_records {u : Unit} (hsynced : l.Synced) (h : l.setState answers packageId state = (.ok u, l')) :
    Records l packageId state l' := by
  unfold setState at h
  cases hstored : l.stored with
  | none =>
    rw [hstored] at h
    obtain ⟨-, rfl⟩ := Prod.mk.inj h
    refine ⟨fun other => ?_, rfl, congrArg Option.isSome hstored.symm, fun _ file hfile => by cases hfile⟩
    show ((l.states.set packageId state).get other).or _ = if _ then _ else (l.states.get other).or _
    rw [Dict.get_set, hstored]
    split
    · rfl
    · rfl
  | some file =>
    rw [hstored] at h
    dsimp only at h
    cases hsaved : savable answers packageId with
    | error e =>
      rw [hsaved] at h
      cases h
    | ok _ =>
      rw [hsaved] at h
      obtain ⟨-, rfl⟩ := Prod.mk.inj h
      refine ⟨fun other => ?_, rfl, by rw [hstored]; rfl, fun _ other hother k v hk => ?_⟩
      · show ((l.states.set packageId state).get other).or ((file.set packageId state).get other) =
          if other = packageId then some state else (l.states.get other).or (l.stored.bind (·.get other))
        rw [Dict.get_set, Dict.get_set, hstored]
        split
        · rfl
        · rfl
      · obtain rfl := Option.some.inj hother
        rw [Dict.get_set] at hk ⊢
        split
        · rename_i heq
          rwa [if_pos heq] at hk
        · rename_i heq
          rw [if_neg heq] at hk
          exact hsynced file hstored k v hk

theorem setState_error {e : String} (h : l.setState answers packageId state = (.error e, l')) : l' = l := by
  unfold setState at h
  cases hstored : l.stored with
  | none =>
    rw [hstored] at h
    cases h
  | some file =>
    rw [hstored] at h
    dsimp only at h
    cases hsaved : savable answers packageId with
    | error e =>
      rw [hsaved] at h
      exact (Prod.mk.inj h).2.symm
    | ok _ =>
      rw [hsaved] at h
      cases h

/-- A state can be saved where there is no state store, or its file is written. -/
def Saves (l : Lifecycle) (answers : Answers) (packageId : String) : Prop :=
  l.stored = none ∨ savable answers packageId = .ok ()

theorem setState_saves : (l.setState answers packageId state).1 = .ok () ↔ l.Saves answers packageId := by
  unfold setState Saves
  cases hstored : l.stored with
  | none => exact ⟨fun _ => Or.inl rfl, fun _ => rfl⟩
  | some file =>
    cases hsaved : savable answers packageId with
    | error e =>
      refine ⟨fun h => (by cases h), fun h => ?_⟩
      obtain hnone | hok := h
      · cases hnone
      · cases hok
    | ok _ => exact ⟨fun _ => Or.inr rfl, fun _ => rfl⟩

theorem saves_of_ok {u : Unit} (h : l.setState answers packageId state = (.ok u, l')) : l.Saves answers packageId :=
  setState_saves.mp (congrArg Prod.fst h)

theorem not_saves {e : String} (h : l.setState answers packageId state = (.error e, l')) : ¬ l.Saves answers packageId := by
  intro hsaves
  have hok : (l.setState answers packageId state).1 = .ok () := setState_saves.mpr hsaves
  rw [h] at hok
  cases hok

/-! ## Checks -/

theorem missing_congr (h : l'.artifacts = l.artifacts) (versions : List String) :
    l'.missing packageId versions = l.missing packageId versions := by
  induction versions with
  | nil => rfl
  | cons version rest ih => simp only [missing, has, h, ih]

theorem available_congr (h : l'.artifacts = l.artifacts) :
    l'.assertReferencedArtifactsAvailable packageId state = l.assertReferencedArtifactsAvailable packageId state := by
  unfold assertReferencedArtifactsAvailable
  rw [missing_congr h]

theorem checkInstall_congr (h : l'.artifacts = l.artifacts) (manifest : PackageManifest) :
    l'.checkInstall manifest state = l.checkInstall manifest state := by
  unfold checkInstall
  rw [available_congr h]

theorem checkRollback_congr (h : l'.artifacts = l.artifacts) :
    l'.checkRollback packageId state = l.checkRollback packageId state := by
  unfold checkRollback has
  rw [available_congr h, h]

/-- What an install goes through before it writes the artifact, which is written then. -/
structure Admitted (host : Host) (policy : Policy) (l : Lifecycle) (answers : Answers) (manifest : PackageManifest)
    (artifact : Buffer) : Prop where
  valid : validate host policy answers manifest artifact = .ok ()
  loads : Gives (l.state answers manifest.packageId).1
  checked : l.checkInstall manifest (l.current manifest.packageId) = .ok ()
  segments : checkSegments manifest.packageId manifest.version = .ok ()
  written : answers.artifactWritten = true

/-- The artifact of a version is there, and nothing else is different. -/
structure Wrote (l : Lifecycle) (packageId version : String) (artifact : Buffer) (l' : Lifecycle) : Prop where
  recorded : ∀ other, l'.recorded other = l.recorded other
  artifacts : l'.artifacts = l.artifacts.set (packageId, version) artifact
  stored : l'.stored = l.stored
  synced : l.Synced → l'.Synced

theorem removeArtifact_ok (h : checkSegments packageId version = .ok ()) :
    l.removeArtifact packageId version = (.ok (), { l with artifacts := l.artifacts.erase (packageId, version) }) := by
  unfold removeArtifact
  rw [h]

theorem takeBack_ok {error : String} (h : checkSegments packageId version = .ok ()) :
    l.takeBack packageId version error =
      (.error error, { l with artifacts := l.artifacts.erase (packageId, version) }) := by
  unfold takeBack
  rw [removeArtifact_ok h]

theorem admit_cases (host : Host) (policy : Policy) (l : Lifecycle) (answers : Answers) (manifest : PackageManifest) (artifact : Buffer) :
    (∃ e, (l.admitArtifact host policy answers manifest artifact).1 = .error e ∧
      ¬ Admitted host policy l answers manifest artifact ∧ Same l (l.admitArtifact host policy answers manifest artifact).2) ∨
    Admitted host policy l answers manifest artifact ∧
      (l.admitArtifact host policy answers manifest artifact).1 = .ok (l.current manifest.packageId) ∧
      Wrote l manifest.packageId manifest.version artifact (l.admitArtifact host policy answers manifest artifact).2 := by
  have hsame : Same l (l.state answers manifest.packageId).2 := state_same
  unfold admitArtifact
  cases hvalid : validate host policy answers manifest artifact with
  | error e =>
    refine Or.inl ⟨e, rfl, fun hadmitted => ?_, Same.refl l⟩
    cases hvalid.symm.trans hadmitted.valid
  | ok _ =>
    dsimp only
    cases hstate : l.state answers manifest.packageId with
    | mk answer l₁ =>
      rw [hstate] at hsame
      cases answer with
      | error e =>
        refine Or.inl ⟨e, rfl, fun hadmitted => ?_, hsame⟩
        have hloads := hadmitted.loads
        rw [hstate] at hloads
        exact not_gives_error e hloads
      | ok current =>
        have hcurrent : current = l.current manifest.packageId := state_ok (congrArg Prod.fst hstate)
        dsimp only
        cases hchecked : l₁.checkInstall manifest current with
        | error e =>
          refine Or.inl ⟨e, rfl, fun hadmitted => ?_, hsame⟩
          rw [hcurrent, checkInstall_congr hsame.artifacts] at hchecked
          cases hchecked.symm.trans hadmitted.checked
        | ok _ =>
          dsimp only
          unfold installArtifact
          cases hsegments : checkSegments manifest.packageId manifest.version with
          | error e => exact Or.inl ⟨e, rfl, fun hadmitted => (by cases hsegments.symm.trans hadmitted.segments), hsame⟩
          | ok _ =>
            dsimp only
            cases hwritten : answers.artifactWritten with
            | false => exact Or.inl ⟨_, rfl, fun hadmitted => (by cases hwritten.symm.trans hadmitted.written), hsame⟩
            | true =>
              refine Or.inr ⟨⟨hvalid, ⟨current, congrArg Prod.fst hstate⟩, ?_, hsegments, hwritten⟩, ?_, ?_⟩
              · rw [← hcurrent, ← checkInstall_congr hsame.artifacts]
                exact hchecked
              · exact congrArg Except.ok hcurrent
              · refine ⟨hsame.recorded, ?_, hsame.stored, hsame.synced⟩
                show l₁.artifacts.set _ artifact = _
                rw [show l₁.artifacts = l.artifacts from hsame.artifacts]

/-- The artifact of an install is found healthy, and its state is saved. -/
def Holds (l : Lifecycle) (answers : Answers) (manifest : PackageManifest) (artifact : Buffer) : Prop :=
  answers.healthCheck manifest.packageId manifest.version artifact = true ∧ l.Saves answers manifest.packageId

theorem install_cases {host : Host} {policy : Policy} {manifest : PackageManifest} {artifact : Buffer}
    {answer : Except String PackageOperationResult} (hsynced : l.Synced)
    (h : l.install host policy answers manifest artifact = (answer, l')) :
    (∃ e, answer = .error e) ∧ ¬ Admitted host policy l answers manifest artifact ∧ Same l l' ∨
    Admitted host policy l answers manifest artifact ∧
      ((∃ e, answer = .error e) ∧ ¬ l.Holds answers manifest artifact ∧
          (∃ l₁, Wrote l manifest.packageId manifest.version artifact l₁ ∧
            l' = { l₁ with artifacts := l₁.artifacts.erase (manifest.packageId, manifest.version) }) ∨
        (∃ result, answer = .ok result) ∧ l.Holds answers manifest artifact ∧
          ∃ l₁, Wrote l manifest.packageId manifest.version artifact l₁ ∧ Records l₁ manifest.packageId
            ⟨some manifest.version, (l.current manifest.packageId).activeVersion,
              (l.current manifest.packageId).revokedVersions⟩ l') := by
  unfold install at h
  obtain ⟨e, herror, hrefused, hsame⟩ | ⟨hadmitted, hok, hwrote⟩ := admit_cases host policy l answers manifest artifact
  · cases hcall : l.admitArtifact host policy answers manifest artifact with
    | mk admitted l₁ =>
      rw [hcall] at herror hsame h
      obtain rfl : admitted = .error e := herror
      obtain ⟨rfl, rfl⟩ := Prod.mk.inj h
      exact Or.inl ⟨⟨e, rfl⟩, hrefused, hsame⟩
  · refine Or.inr ⟨hadmitted, ?_⟩
    cases hcall : l.admitArtifact host policy answers manifest artifact with
    | mk admitted l₁ =>
      rw [hcall] at hok hwrote h
      obtain rfl : admitted = .ok (l.current manifest.packageId) := hok
      dsimp only at h hwrote
      have hsaves : l₁.Saves answers manifest.packageId ↔ l.Saves answers manifest.packageId := by
        unfold Saves
        rw [hwrote.stored]
      split at h
      · rename_i hsick
        rw [takeBack_ok hadmitted.segments] at h
        obtain ⟨rfl, rfl⟩ := Prod.mk.inj h
        exact Or.inl ⟨⟨_, rfl⟩, fun hholds => Bool.false_ne_true (hsick.symm.trans hholds.1), l₁, hwrote, rfl⟩
      · rename_i hhealthy
        have hhealthy : answers.healthCheck manifest.packageId manifest.version artifact = true :=
          Bool.not_eq_false _ ▸ hhealthy
        cases hset : l₁.setState answers manifest.packageId ⟨some manifest.version,
            (l.current manifest.packageId).activeVersion, (l.current manifest.packageId).revokedVersions⟩ with
        | mk saved l₂ =>
          rw [hset] at h
          cases saved with
          | error e =>
            dsimp only at h
            rw [setState_error hset, removeArtifact_ok hadmitted.segments] at h
            obtain ⟨rfl, rfl⟩ := Prod.mk.inj h
            have hunsaved : ¬ l₁.Saves answers manifest.packageId := not_saves hset
            exact Or.inl ⟨⟨e, rfl⟩, fun hholds => hunsaved (hsaves.mpr hholds.2), l₁, hwrote, rfl⟩
          | ok _ =>
            obtain ⟨rfl, rfl⟩ := Prod.mk.inj h
            have hrecords := setState_records (hwrote.synced hsynced) hset
            exact Or.inr ⟨⟨_, rfl⟩, ⟨hhealthy, hsaves.mp (saves_of_ok hset)⟩, l₁, hwrote, hrecords⟩

theorem checkRollback_ok {current : PackageState} {previous active : String}
    (h : l.checkRollback packageId current = .ok (previous, active)) :
    current.activeVersion = some active ∧ current.previousVersion = some previous ∧ previous ∉ current.revokedVersions := by
  unfold checkRollback at h
  obtain ⟨_, -, h⟩ := bind_ok.mp h
  cases hactive : current.activeVersion.filter (· ≠ "") with
  | none =>
    rw [hactive] at h
    cases h
  | some a =>
    rw [hactive] at h
    cases hprevious : current.previousVersion.filter (· ≠ "") with
    | none =>
      rw [hprevious] at h
      cases h
    | some p =>
      rw [hprevious] at h
      obtain ⟨_, hrevoked, h⟩ := bind_ok.mp h
      obtain ⟨_, -, h⟩ := bind_ok.mp h
      obtain ⟨_, -, h⟩ := bind_ok.mp h
      obtain ⟨rfl, rfl⟩ := Prod.mk.inj (pure_ok.mp h)
      exact ⟨(Option.filter_eq_some_iff.mp hactive).1, (Option.filter_eq_some_iff.mp hprevious).1, require_ok.mp hrevoked⟩

theorem rollback_cases {answer : Except String PackageOperationResult} (hsynced : l.Synced)
    (h : l.rollback answers packageId = (answer, l')) :
    (∃ e, answer = .error e) ∧ Same l l' ∨
      ∃ previous active, l.checkRollback packageId (l.current packageId) = .ok (previous, active) ∧
        (∃ result, answer = .ok result) ∧
          Records l packageId ⟨some previous, some active, (l.current packageId).revokedVersions⟩ l' := by
  have hsame : Same l (l.state answers packageId).2 := state_same
  unfold rollback at h
  cases hstate : l.state answers packageId with
  | mk loaded l₁ =>
    rw [hstate] at hsame h
    cases loaded with
    | error e =>
      obtain ⟨rfl, rfl⟩ := Prod.mk.inj h
      exact Or.inl ⟨⟨e, rfl⟩, hsame⟩
    | ok current =>
      obtain rfl : current = l.current packageId := state_ok (congrArg Prod.fst hstate)
      dsimp only at h hsame
      cases hchecked : l₁.checkRollback packageId (l.current packageId) with
      | error e =>
        rw [hchecked] at h
        obtain ⟨rfl, rfl⟩ := Prod.mk.inj h
        exact Or.inl ⟨⟨e, rfl⟩, hsame⟩
      | ok versions =>
        obtain ⟨previous, active⟩ := versions
        rw [hchecked] at h
        dsimp only at h
        cases hset : l₁.setState answers packageId ⟨some previous, some active,
            (l.current packageId).revokedVersions⟩ with
        | mk saved l₂ =>
          rw [hset] at h
          cases saved with
          | error e =>
            have hback : l₂ = l₁ := setState_error hset
            obtain ⟨rfl, rfl⟩ := Prod.mk.inj h
            exact Or.inl ⟨⟨e, rfl⟩, hback ▸ hsame⟩
          | ok _ =>
            have hrecords := setState_records (hsame.synced hsynced) hset
            obtain ⟨rfl, rfl⟩ := Prod.mk.inj h
            refine Or.inr ⟨previous, active, ?_, ⟨_, rfl⟩, hsame.records hrecords⟩
            rw [← checkRollback_congr hsame.artifacts]
            exact hchecked

/-- The artifact of the active version is removed before its revocation is saved. -/
structure Removed (l : Lifecycle) (packageId version : String) (l' : Lifecycle) : Prop where
  recorded : ∀ other, l'.recorded other = l.recorded other
  artifacts : l'.artifacts = if (l.current packageId).activeVersion = some version
    then l.artifacts.erase (packageId, version) else l.artifacts
  stored : l'.stored = l.stored
  synced : l.Synced → l'.Synced

/-- A revocation is refused and nothing is different; or it is recorded, or the artifact of the
active version is gone and it is not. -/
theorem revoke_cases {answer : Except String PackageOperationResult} (hsynced : l.Synced)
    (h : l.revoke answers packageId version = (answer, l')) :
    (∃ e, answer = .error e) ∧ Same l l' ∧ (Gives (l.state answers packageId).1 →
        (l.current packageId).activeVersion = some version ∧ checkSegments packageId version ≠ .ok ()) ∨
      Gives (l.state answers packageId).1 ∧ ((∃ e, answer = .error e) ∧ ¬ l.Saves answers packageId ∧
          Removed l packageId version l' ∨
        (∃ result, answer = .ok result) ∧ l.Saves answers packageId ∧
          ∃ l₁, Removed l packageId version l₁ ∧
            Records l₁ packageId (revokedState (l.current packageId) version) l') := by
  have hsame : Same l (l.state answers packageId).2 := state_same
  unfold revoke at h
  cases hstate : l.state answers packageId with
  | mk loaded l₁ =>
    rw [hstate] at hsame h
    cases loaded with
    | error e =>
      obtain ⟨rfl, rfl⟩ := Prod.mk.inj h
      exact Or.inl ⟨⟨e, rfl⟩, hsame, fun hloads => absurd hloads (not_gives_error e)⟩
    | ok current =>
      obtain rfl : current = l.current packageId := state_ok (congrArg Prod.fst hstate)
      dsimp only at h hsame
      cases hremove : (if (l.current packageId).activeVersion = some version then l₁.removeArtifact packageId version
          else (.ok (), l₁)) with
      | mk removed l₂ =>
        rw [hremove] at h
        have hremoved : (∃ e, removed = .error e) ∧ l₂ = l₁ ∧ ((l.current packageId).activeVersion = some version ∧
            checkSegments packageId version ≠ .ok ()) ∨ removed = .ok () ∧ Removed l packageId version l₂ := by
          by_cases hactive : (l.current packageId).activeVersion = some version
          · rw [if_pos hactive, removeArtifact] at hremove
            cases hsegments : checkSegments packageId version with
            | error e =>
              rw [hsegments] at hremove
              obtain ⟨rfl, rfl⟩ := Prod.mk.inj hremove
              exact Or.inl ⟨⟨e, rfl⟩, rfl, hactive, fun hok => by cases hok⟩
            | ok _ =>
              rw [hsegments] at hremove
              obtain ⟨rfl, rfl⟩ := Prod.mk.inj hremove
              refine Or.inr ⟨rfl, hsame.recorded, ?_, hsame.stored, hsame.synced⟩
              rw [if_pos hactive, ← hsame.artifacts]
          · rw [if_neg hactive] at hremove
            obtain ⟨rfl, rfl⟩ := Prod.mk.inj hremove
            refine Or.inr ⟨rfl, hsame.recorded, ?_, hsame.stored, hsame.synced⟩
            rw [if_neg hactive, ← hsame.artifacts]
        have hsaves : l₂.stored = l.stored → (l₂.Saves answers packageId ↔ l.Saves answers packageId) := by
          intro hstored
          unfold Saves
          rw [hstored]
        obtain ⟨⟨e, rfl⟩, rfl, hunsafe⟩ | ⟨rfl, hremoved⟩ := hremoved
        · obtain ⟨rfl, rfl⟩ := Prod.mk.inj h
          exact Or.inl ⟨⟨e, rfl⟩, hsame, fun _ => hunsafe⟩
        · refine Or.inr ⟨⟨_, rfl⟩, ?_⟩
          dsimp only at h
          cases hset : l₂.setState answers packageId (revokedState (l.current packageId) version) with
          | mk saved l₃ =>
            rw [hset] at h
            cases saved with
            | error e =>
              have hback : l₃ = l₂ := setState_error hset
              have hunsaved : ¬ l₂.Saves answers packageId := not_saves hset
              obtain ⟨rfl, rfl⟩ := Prod.mk.inj h
              exact Or.inl ⟨⟨e, rfl⟩, fun hsaved => hunsaved ((hsaves hremoved.stored).mpr hsaved), hback ▸ hremoved⟩
            | ok _ =>
              have hrecords := setState_records (hremoved.synced hsynced) hset
              obtain ⟨rfl, rfl⟩ := Prod.mk.inj h
              exact Or.inr ⟨⟨_, rfl⟩, (hsaves hremoved.stored).mp (saves_of_ok hset), l₂, hremoved, hrecords⟩

theorem recorded_congr (hstates : l'.states = l.states) (hstored : l'.stored = l.stored) (other : String) :
    l'.recorded other = l.recorded other := by
  unfold recorded
  rw [hstates, hstored]

theorem synced_congr (hstates : l'.states = l.states) (hstored : l'.stored = l.stored) (h : l.Synced) : l'.Synced := by
  unfold Synced
  rwa [hstates, hstored]

/-- The versions whose artifacts an uninstall removes. -/
def removedVersions (l : Lifecycle) (packageId : String) : List String :=
  (l.current packageId).referenced.dedup.filter (· ≠ "")

/-- The state store forgets a package, where there is one. -/
def Erases (l : Lifecycle) (answers : Answers) (packageId : String) : Prop :=
  ∀ file, l.stored = some file → answers.stateLoaded = true ∧ (file.get packageId = none ∨ answers.stateSaved = true)

theorem removeArtifacts_cases {versions : List String} {answer : Except String Unit}
    (h : removeArtifacts packageId versions l = (answer, l')) :
    l'.states = l.states ∧ l'.stored = l.stored ∧
      ((∃ e, answer = .error e) ∧ (∃ version ∈ versions, checkSegments packageId version ≠ .ok ()) ∨
        answer = .ok () ∧ ∀ k, l'.artifacts.get k =
          if k.1 = packageId ∧ k.2 ∈ versions then none else l.artifacts.get k) := by
  induction versions generalizing l with
  | nil =>
    obtain ⟨rfl, rfl⟩ := Prod.mk.inj h
    refine ⟨rfl, rfl, Or.inr ⟨rfl, fun k => ?_⟩⟩
    rw [if_neg fun hk => List.not_mem_nil hk.2]
  | cons version rest ih =>
    unfold removeArtifacts removeArtifact at h
    cases hsegments : checkSegments packageId version with
    | error e =>
      rw [hsegments] at h
      obtain ⟨rfl, rfl⟩ := Prod.mk.inj h
      refine ⟨rfl, rfl, Or.inl ⟨⟨e, rfl⟩, version, List.mem_cons_self, ?_⟩⟩
      rw [hsegments]
      exact fun hok => by cases hok
    | ok _ =>
      rw [hsegments] at h
      obtain ⟨hstates, hstored, ⟨herror, other, hother, hunsafe⟩ | ⟨hok, hartifacts⟩⟩ := ih h
      · exact ⟨hstates, hstored, Or.inl ⟨herror, other, List.mem_cons_of_mem _ hother, hunsafe⟩⟩
      · refine ⟨hstates, hstored, Or.inr ⟨hok, fun k => ?_⟩⟩
        rw [hartifacts k, Dict.get_erase]
        obtain ⟨id, v⟩ := k
        simp only [List.mem_cons, Prod.mk.injEq]
        split_ifs <;> simp_all

theorem removeState_cases {answer : Except String Unit} (h : l.removeState answers packageId = (answer, l')) :
    l'.states = l.states ∧ l'.artifacts = l.artifacts ∧ l'.stored.isSome = l.stored.isSome ∧
      ((∃ e, answer = .error e) ∧ ¬ l.Erases answers packageId ∧ l'.stored = l.stored ∨
        answer = .ok () ∧ l.Erases answers packageId ∧
          ∀ other, l'.stored.bind (·.get other) = if other = packageId then none else l.stored.bind (·.get other)) := by
  unfold removeState at h
  cases hstored : l.stored with
  | none =>
    rw [hstored] at h
    obtain ⟨rfl, rfl⟩ := Prod.mk.inj h
    refine ⟨rfl, rfl, congrArg Option.isSome hstored, Or.inr ⟨rfl, fun file hfile => ?_, fun other => ?_⟩⟩
    · rw [hstored] at hfile
      cases hfile
    · rw [hstored]
      split
      · rfl
      · rfl
  | some file =>
    rw [hstored] at h
    dsimp only at h
    split at h
    · rename_i hloaded
      obtain ⟨rfl, rfl⟩ := Prod.mk.inj h
      refine ⟨rfl, rfl, congrArg Option.isSome hstored, Or.inl ⟨⟨_, rfl⟩, fun herases => ?_, hstored⟩⟩
      rw [(herases file hstored).1] at hloaded
      cases hloaded
    · rename_i hloaded
      have hloaded : answers.stateLoaded = true := Bool.not_eq_false _ ▸ hloaded
      split at h
      · rename_i hget
        obtain ⟨rfl, rfl⟩ := Prod.mk.inj h
        refine ⟨rfl, rfl, congrArg Option.isSome hstored, Or.inr ⟨rfl, fun other hother => ?_, fun other => ?_⟩⟩
        · obtain rfl := Option.some.inj (hstored.symm.trans hother)
          exact ⟨hloaded, Or.inl hget⟩
        · rw [hstored, Option.bind_some]
          split
          · rename_i heq
            rw [heq, hget]
          · rfl
      · rename_i hget
        split at h
        · rename_i hsaved
          obtain ⟨rfl, rfl⟩ := Prod.mk.inj h
          refine ⟨rfl, rfl, congrArg Option.isSome hstored, Or.inl ⟨⟨_, rfl⟩, fun herases => ?_, hstored⟩⟩
          rw [(herases file hstored).2.resolve_left hget] at hsaved
          cases hsaved
        · rename_i hsaved
          obtain ⟨rfl, rfl⟩ := Prod.mk.inj h
          refine ⟨rfl, rfl, rfl, Or.inr ⟨rfl, fun other hother => ?_, fun other => Dict.get_erase⟩⟩
          obtain rfl := Option.some.inj (hstored.symm.trans hother)
          exact ⟨hloaded, Or.inr (Bool.not_eq_false _ ▸ hsaved)⟩

/-- The artifacts of a package are gone. -/
def Cleared (l : Lifecycle) (packageId : String) (l' : Lifecycle) : Prop :=
  ∀ k, l'.artifacts.get k = if k.1 = packageId ∧ k.2 ∈ l.removedVersions packageId then none else l.artifacts.get k

/-- An uninstall is refused before anything is different; or it throws where a name is no path,
or where the state is not erased; or the package is gone. -/
theorem uninstall_cases {preserveUserData : Bool} {answer : Except String PackageOperationResult} (hsynced : l.Synced)
    (h : l.uninstall answers packageId preserveUserData = (answer, l')) :
    l'.Synced ∧ ((∃ e, answer = .error e) ∧ Same l l' ∧ ¬ Gives (l.state answers packageId).1 ∨
      (∃ e, answer = .error e) ∧ (∀ other, l'.recorded other = l.recorded other) ∧
        (∃ version ∈ l.removedVersions packageId, checkSegments packageId version ≠ .ok ()) ∨
      Gives (l.state answers packageId).1 ∧ Cleared l packageId l' ∧
        ((∃ e, answer = .error e) ∧ ¬ l.Erases answers packageId ∧ (∀ other, l'.recorded other = l.recorded other) ∨
          (∃ result, answer = .ok result) ∧ l.Erases answers packageId ∧
            ∀ other, l'.recorded other = if other = packageId then none else l.recorded other)) := by
  have hsame : Same l (l.state answers packageId).2 := state_same
  unfold uninstall at h
  cases hstate : l.state answers packageId with
  | mk loaded l₁ =>
    rw [hstate] at hsame h
    cases loaded with
    | error e =>
      obtain ⟨rfl, rfl⟩ := Prod.mk.inj h
      exact ⟨hsame.synced hsynced, Or.inl ⟨⟨e, rfl⟩, hsame, not_gives_error e⟩⟩
    | ok current =>
      obtain rfl : current = l.current packageId := state_ok (congrArg Prod.fst hstate)
      dsimp only at h hsame
      cases hremoved : removeArtifacts packageId ((l.current packageId).referenced.dedup.filter (· ≠ "")) l₁ with
      | mk removed l₂ =>
        rw [hremoved] at h
        obtain ⟨hstates, hstored, ⟨⟨e, rfl⟩, hunsafe⟩ | ⟨rfl, hartifacts⟩⟩ := removeArtifacts_cases hremoved
        · obtain ⟨rfl, rfl⟩ := Prod.mk.inj h
          have hrecorded (other : String) : l₂.recorded other = l.recorded other :=
            (recorded_congr hstates hstored other).trans (hsame.recorded other)
          exact ⟨synced_congr hstates hstored (hsame.synced hsynced), Or.inr (Or.inl ⟨⟨e, rfl⟩, hrecorded, hunsafe⟩)⟩
        · dsimp only at h
          have hsynced₁ : l₁.Synced := hsame.synced hsynced
          cases herased : removeState { l₂ with states := l₂.states.erase packageId } answers packageId with
          | mk erased l₄ =>
            rw [herased] at h
            obtain ⟨hstates₄, hartifacts₄, hsome₄, hstored₄⟩ := removeState_cases herased
            have hget (other : String) : l₄.states.get other =
                if other = packageId then none else l₁.states.get other := by
              rw [hstates₄, ← hstates]
              exact Dict.get_erase
            have hcleared : Cleared l packageId l₄ := by
              intro k
              rw [hartifacts₄, ← hsame.artifacts]
              exact hartifacts k
            have hsome : l₄.stored.isSome = l₁.stored.isSome := hsome₄.trans (congrArg Option.isSome hstored)
            have hback : l₂.stored = l.stored := hstored.trans hsame.stored
            have herases : ({ l₂ with states := l₂.states.erase packageId } : Lifecycle).Erases answers packageId ↔
                l.Erases answers packageId := by
              unfold Erases
              rw [← hback]
            obtain ⟨⟨e, rfl⟩, hkept, hstored₄⟩ | ⟨rfl, hdone, hstored₄⟩ := hstored₄
            · obtain ⟨rfl, rfl⟩ := Prod.mk.inj h
              have hfile : l₄.stored = l₁.stored := hstored₄.trans hstored
              refine ⟨fun file hfile₄ k v hk => ?_, Or.inr (Or.inr ⟨⟨_, rfl⟩, hcleared, Or.inl ⟨⟨e, rfl⟩,
                fun hdone => hkept (herases.mpr hdone), fun other => ?_⟩⟩)⟩
              · rw [hget] at hk
                split at hk
                · cases hk
                · exact hsynced₁ file (hfile ▸ hfile₄) k v hk
              · -- the state store still has what the memory forgot
                rw [← hsame.recorded other]
                unfold recorded
                rw [hget, hfile]
                split
                · rename_i heq
                  cases hmemory : l₁.states.get other with
                  | none => rfl
                  | some state =>
                    cases hnone : l₁.stored with
                    | none =>
                      refine absurd (fun file hfile => ?_) hkept
                      rw [show l₂.stored = none from hstored.trans hnone] at hfile
                      cases hfile
                    | some file => exact hsynced₁ file hnone other state hmemory
                · rfl
            · obtain ⟨rfl, rfl⟩ := Prod.mk.inj h
              have hfile (other : String) : l₄.stored.bind (·.get other) =
                  if other = packageId then none else l₁.stored.bind (·.get other) := by
                rw [hstored₄ other, ← hstored]
              refine ⟨fun file hfile₄ k v hk => ?_, Or.inr (Or.inr ⟨⟨_, rfl⟩, hcleared, Or.inr ⟨⟨_, rfl⟩,
                herases.mp hdone, fun other => ?_⟩⟩)⟩
              · rw [hget] at hk
                split at hk
                · cases hk
                · rename_i hne
                  have hthere := hfile k
                  rw [if_neg hne, hfile₄] at hthere
                  cases hnone : l₁.stored with
                  | none =>
                    rw [hfile₄, hnone] at hsome
                    cases hsome
                  | some file₁ =>
                    rw [hnone] at hthere
                    exact hthere.trans (hsynced₁ file₁ hnone k v hk)
              · rw [← hsame.recorded other]
                unfold recorded
                rw [hget, hfile other]
                split
                · rfl
                · rfl

end Rules

end Lifecycle

end Package
