import Yuizaki.Credential.Moves
import Yuizaki.Lib.Run

/- Secrets that migrations move into the vault.

   Values are changed in memory before the vault file is written, and whether it is written is
   decided by what changed in memory. A write that fails leaves the memory ahead of the file, and
   the next migration finds nothing to save and blanks the document all the same. -/
namespace Credential

open Transition

/-! ## Statements -/

def Answers.Saves (answers : Answers) : Prop := answers.isAvailable = true ∧ answers.vaultWritten = true

/-- The secrets of a document that an operation may not lose. -/
def Operation.Hold : Operation → Json → String → String → Prop
  | .migratePlaintextSettings _ => SettingsHold
  | .migratePlaintextConnectorState _ => ConnectorsHold
  | _ => fun payload path secret => SettingsHold payload path secret ∨ ConnectorsHold payload path secret

namespace ProviderCredentialStore

def held (encryption : CredentialEncryptionAdapter) (s : ProviderCredentialStore) : Dict String String :=
  load encryption s.stored

/-- The values in memory are those of the vault file. -/
def Clean (encryption : CredentialEncryptionAdapter) (s : ProviderCredentialStore) : Prop :=
  SameValues s.values (s.held encryption)

/-- A secret that a document held is still there, or it is in the vault file; and where the call
threw, the memory is what the vault file is. -/
structure Settled (encryption : CredentialEncryptionAdapter) (Hold : Json → String → String → Prop)
    (before : ProviderCredentialStore) (answer : Except String Answer) (after : ProviderCredentialStore) : Prop where
  kept : ∀ file payload path secret, before.documents.get file = some payload → Hold payload path secret →
    (∃ payload', after.documents.get file = some payload' ∧ Hold payload' path secret) ∨
      (after.held encryption).get path = some secret
  clean : ∀ e, answer = .error e → after.Clean encryption

/-- The values that an operation leaves in memory. -/
def changes (s : ProviderCredentialStore) (answers : Answers) : Operation → Dict String String
  | .captureTwitchCredentials payload => (applyMoves s.values (twitchMoves payload)).1
  | .captureConnectorCredentials connectorId payload => (applyMoves s.values (connectorMoves connectorId payload)).1
  | .captureSettingsPayload payload => (applyMoves s.values ((secretFields "" payload).filterMap captureMove)).1
  | .captureSettingValue fieldPath value => (applyMoves s.values (settingMove fieldPath value).toList).1
  | .delete fieldPath => (deleted s.values fieldPath).1
  | .migratePlaintextSettings file => migrated settingsPlan file
  | .migratePlaintextConnectorState file => migrated connectorPlan file
  | .edit _ _ => s.values
where
  /-- The values that a migration leaves in memory. -/
  migrated (plan : Json → Plan) (file : String) : Dict String String :=
    match s.documents.get file with
    | none => s.values
    | some payload => if answers.documentRead = true then (applyMoves s.values (plan payload).moves).1 else s.values

/-- A document that a migration blanks has no two secrets under one path. -/
def Distinct (Hold : Json → String → String → Prop) (s : ProviderCredentialStore) (answers : Answers) (file : String) : Prop :=
  ∀ payload, s.documents.get file = some payload → answers.documentRead = true → answers.Saves →
    answers.documentWritten = true → Agree Hold payload

/-- The vault file can be written, or the values stay what they were; and no secret of a document
takes the place of another. -/
def SafeFor (s : ProviderCredentialStore) (e : Operation × Answers) : Prop :=
  (e.2.Saves ∨ SameValues (s.changes e.2 e.1) s.values) ∧
    match e.1 with
    | .migratePlaintextSettings file => s.Distinct SettingsHold e.2 file
    | .migratePlaintextConnectorState file => s.Distinct ConnectorsHold e.2 file
    | _ => True

/-! ## Calls -/

section Calls

variable {encryption : CredentialEncryptionAdapter} {answers : Answers} {s s' : ProviderCredentialStore}
  {counted : Counted} {values : Dict String String} {answer answer' : Except String Answer}

theorem save_ok (h : answers.Saves) : s.save encryption answers =
    .ok { s with stored := some (s.values.mapValues fun _ value => encryption.encrypt value) } := by
  unfold save
  rw [h.1, h.2]
  rfl

theorem save_error (encryption : CredentialEncryptionAdapter) (s : ProviderCredentialStore) (h : ¬ answers.Saves) : ∃ e, s.save encryption answers = .error e := by
  unfold save
  split
  · exact ⟨_, rfl⟩
  · rename_i havailable
    split
    · exact ⟨_, rfl⟩
    · rename_i hwritten
      exact absurd ⟨Bool.not_eq_false _ ▸ havailable, Bool.not_eq_false _ ▸ hwritten⟩ h

theorem load_saved (values : Dict String String) :
    SameValues values (load encryption (some (values.mapValues fun _ value => encryption.encrypt value))) := by
  intro path
  show _ = ((values.mapValues fun _ value => encryption.encrypt value).filterMap _).get path
  rw [Dict.get_filterMap, Dict.get_mapValues]
  cases values.get path with
  | none => rfl
  | some value => exact (encryption.decrypt_encrypt value).symm

theorem sameValues_refl (values : Dict String String) : SameValues values values := fun _ => rfl

theorem clean_values (hclean : s.Clean encryption) :
    ({ s with values := values } : ProviderCredentialStore).Clean encryption ↔ SameValues values s.values :=
  ⟨fun h path => (h path).trans (hclean path).symm, fun h path => (h path).trans (hclean path)⟩

theorem settled_error {Hold : Json → String → String → Prop} {e : String} (hdocuments : s'.documents = s.documents) :
    Settled encryption Hold s (.error e) s' ↔ s'.Clean encryption := by
  refine ⟨fun h => h.clean e rfl, fun h => ⟨fun file payload path secret hget hsecret => Or.inl ?_, fun _ _ => h⟩⟩
  exact ⟨payload, hdocuments ▸ hget, hsecret⟩

theorem settled_ok {Hold : Json → String → String → Prop} {a : Answer} (hdocuments : s'.documents = s.documents) :
    Settled encryption Hold s (.ok a) s' := by
  refine ⟨fun file payload path secret hget hsecret => Or.inl ?_, fun e herror => by cases herror⟩
  exact ⟨payload, hdocuments ▸ hget, hsecret⟩

theorem commit_settled (Hold : Json → String → String → Prop) {a : Answer} (hclean : s.Clean encryption)
    (hidle : counted.2 = 0 → SameValues counted.1 s.values) (h : s.commit encryption answers counted a = (answer, s')) :
    (Settled encryption Hold s answer s' ↔ answers.Saves ∨ SameValues counted.1 s.values) ∧
      (answers.Saves ∨ SameValues counted.1 s.values → s'.Clean encryption) := by
  unfold commit at h
  split at h
  · rename_i hcount
    obtain ⟨rfl, rfl⟩ := Prod.mk.inj h
    exact ⟨⟨fun _ => Or.inr (hidle hcount), fun _ => settled_ok rfl⟩, fun _ => hclean⟩
  · by_cases hsaves : answers.Saves
    · rw [save_ok hsaves] at h
      obtain ⟨rfl, rfl⟩ := Prod.mk.inj h
      exact ⟨⟨fun _ => Or.inl hsaves, fun _ => settled_ok rfl⟩, fun _ => load_saved counted.1⟩
    · obtain ⟨e, herror⟩ := save_error encryption { s with values := counted.1 } hsaves
      rw [herror] at h
      obtain ⟨rfl, rfl⟩ := Prod.mk.inj h
      have hsame : ({ s with values := counted.1 } : ProviderCredentialStore).Clean encryption ↔
          answers.Saves ∨ SameValues counted.1 s.values :=
        (clean_values hclean).trans (or_iff_right hsaves).symm
      have hthrown : Settled encryption Hold s (.error e) { s with values := counted.1 } ↔ _ := settled_error rfl
      exact ⟨hthrown.trans hsame, hsame.mpr⟩

/-! ## Migrations -/

section Migrations

variable {plan : Json → Plan} {Hold : Json → String → String → Prop} {file : String} {payload : Json}

theorem moves_hold (hmigration : Migration plan Hold) :
    (∀ path secret, Hold payload path secret → (applyMoves values (plan payload).moves).1.get path = some secret) ↔
      Agree Hold payload := by
  constructor
  · intro h path secret secret' hsecret hsecret'
    exact Option.some.inj ((h path secret hsecret).symm.trans (h path secret' hsecret'))
  · intro h path secret hsecret
    refine foldl_keep (fun other hother => ?_) (hmigration.apart hsecret) (hmigration.keeps.mpr hsecret)
    exact h path other secret (hmigration.keeps.mp hother) hsecret

theorem writeDocument_settled {s₁ : ProviderCredentialStore} {n : ℕ} (hmigration : Migration plan Hold)
    (hget : s.documents.get file = some payload) (hdocuments : s₁.documents = s.documents) (hclean : s₁.Clean encryption)
    (h : s₁.writeDocument answers file (plan payload) n = (answer, s')) :
    (Settled encryption Hold s answer s' ↔ (answers.documentWritten = true →
      ∀ path secret, Hold payload path secret → s₁.values.get path = some secret)) ∧ s'.Clean encryption := by
  unfold writeDocument at h
  split at h
  · rename_i hunscrubbed
    obtain ⟨rfl, rfl⟩ := Prod.mk.inj h
    refine ⟨⟨fun _ _ path secret hsecret => ?_, fun _ => settled_ok hdocuments⟩, hclean⟩
    rw [hmigration.scrubbed hsecret] at hunscrubbed
    cases hunscrubbed
  · split at h
    · rename_i hunwritten
      obtain ⟨rfl, rfl⟩ := Prod.mk.inj h
      refine ⟨⟨fun _ hwritten => ?_, fun _ => (settled_error hdocuments).mpr hclean⟩, hclean⟩
      rw [hunwritten] at hwritten
      cases hwritten
    · rename_i hwritten
      obtain ⟨rfl, rfl⟩ := Prod.mk.inj h
      refine ⟨⟨fun hsettled _ path secret hsecret => ?_, fun hkept => ⟨fun other payload' path secret hother hsecret => ?_,
        fun e herror => by cases herror⟩⟩, hclean⟩
      · obtain ⟨left, hleft, hstill⟩ | hheld := hsettled.kept file payload path secret hget hsecret
        · rw [Dict.get_set_self] at hleft
          obtain rfl := Option.some.inj hleft
          exact absurd hstill hmigration.blank
        · exact (hclean path).trans hheld
      · by_cases hfile : other = file
        · obtain rfl : payload = payload' := Option.some.inj (hget.symm.trans (hfile ▸ hother))
          refine Or.inr ((hclean path).symm.trans ?_)
          exact hkept (Bool.not_eq_false _ ▸ hwritten) path secret hsecret
        · refine Or.inl ⟨payload', ?_, hsecret⟩
          rw [Dict.get_set_of_ne hfile, hdocuments]
          exact hother

theorem migrate_settled (hmigration : Migration plan Hold) (hclean : s.Clean encryption)
    (h : s.migrate encryption answers plan file = (answer, s')) :
    (Settled encryption Hold s answer s' ↔
        (answers.Saves ∨ SameValues (changes.migrated s answers plan file) s.values) ∧ s.Distinct Hold answers file) ∧
      (answers.Saves ∨ SameValues (changes.migrated s answers plan file) s.values → s'.Clean encryption) := by
  unfold migrate at h
  unfold changes.migrated Distinct
  cases hget : s.documents.get file with
  | none =>
    rw [hget] at h
    obtain ⟨rfl, rfl⟩ := Prod.mk.inj h
    refine ⟨⟨fun _ => ⟨Or.inr (sameValues_refl s.values), fun payload hnone => ?_⟩, fun _ => settled_ok rfl⟩, fun _ => hclean⟩
    cases hnone
  | some payload =>
    rw [hget] at h
    dsimp only at h ⊢
    split at h
    · rename_i hunread
      obtain ⟨rfl, rfl⟩ := Prod.mk.inj h
      rw [hunread, if_neg Bool.false_ne_true]
      refine ⟨⟨fun _ => ⟨Or.inr (sameValues_refl s.values), fun _ _ hread => ?_⟩,
        fun _ => (settled_error rfl).mpr hclean⟩, fun _ => hclean⟩
      cases hread
    · rename_i hread
      have hread : answers.documentRead = true := Bool.not_eq_false _ ▸ hread
      rw [if_pos hread]
      have hdistinct : (∀ payload', some payload = some payload' → answers.documentRead = true → answers.Saves →
          answers.documentWritten = true → Agree Hold payload') ↔
            (answers.Saves → answers.documentWritten = true → Agree Hold payload) :=
        ⟨fun h => h payload rfl hread, fun h payload' heq _ => Option.some.inj heq ▸ h⟩
      rw [hdistinct]
      split at h
      · -- nothing to save: the vault file holds the secrets already
        rename_i hcount
        obtain ⟨hsame, hheld⟩ := applyMoves_idle hcount
        have hvalues (path secret : String) (hsecret : Hold payload path secret) : s.values.get path = some secret :=
          hheld path secret (hmigration.keeps.mpr hsecret)
        obtain ⟨hsettled, hclean'⟩ := writeDocument_settled hmigration hget rfl hclean h
        refine ⟨⟨fun _ => ⟨Or.inr hsame, fun _ _ path secret secret' hsecret hsecret' => ?_⟩,
          fun _ => hsettled.mpr fun _ => hvalues⟩, fun _ => hclean'⟩
        exact Option.some.inj ((hvalues path secret hsecret).symm.trans (hvalues path secret' hsecret'))
      · by_cases hsaves : answers.Saves
        · rw [save_ok hsaves] at h
          dsimp only at h
          have hsaved : ({ s with
              values := (applyMoves s.values (plan payload).moves).1
              stored := some ((applyMoves s.values (plan payload).moves).1.mapValues fun _ value =>
                encryption.encrypt value) } : ProviderCredentialStore).Clean encryption := load_saved _
          obtain ⟨hsettled, hclean'⟩ := writeDocument_settled hmigration hget (by rfl) hsaved h
          rw [hsettled]
          dsimp only
          rw [moves_hold hmigration]
          exact ⟨⟨fun hagree => ⟨Or.inl hsaves, fun _ => hagree⟩, fun hsafe => hsafe.2 hsaves⟩, fun _ => hclean'⟩
        · obtain ⟨e, herror⟩ :=
            save_error encryption { s with values := (applyMoves s.values (plan payload).moves).1 } hsaves
          rw [herror] at h
          obtain ⟨rfl, rfl⟩ := Prod.mk.inj h
          have hthrown : Settled encryption Hold s (.error e)
              { s with values := (applyMoves s.values (plan payload).moves).1 } ↔ _ := settled_error rfl
          rw [hthrown, clean_values hclean]
          refine ⟨⟨fun hsame => ⟨Or.inr hsame, fun hsaved => absurd hsaved hsaves⟩, fun hsafe => ?_⟩, fun hsafe => ?_⟩
          · exact hsafe.1.resolve_left hsaves
          · exact hsafe.resolve_left hsaves

end Migrations

/-! ## Steps -/

theorem commit_safe {counted : Counted} {a : Answer} {P : Prop} (Hold : Json → String → String → Prop)
    (hclean : s.Clean encryption) (hidle : counted.2 = 0 → SameValues counted.1 s.values) (hP : P) :
    (Settled encryption Hold s (s.commit encryption answers counted a).1 (s.commit encryption answers counted a).2 ↔
        (answers.Saves ∨ SameValues counted.1 s.values) ∧ P) ∧
      ((answers.Saves ∨ SameValues counted.1 s.values) ∧ P → (s.commit encryption answers counted a).2.Clean encryption) := by
  obtain ⟨hsettled, hkept⟩ := commit_settled Hold hclean hidle (Prod.eta (s.commit encryption answers counted a)).symm
  exact ⟨⟨fun h => ⟨hsettled.mp h, hP⟩, fun h => hsettled.mpr h.1⟩, fun h => hkept h.1⟩

/-- An operation loses no secret, and leaves the memory clean where it throws, exactly where it is
safe; the memory is clean after it then. -/
theorem run_settled (answers : Answers) (hclean : s.Clean encryption) (operation : Operation)
    (hedit : ∀ file document, operation ≠ .edit file document) :
    (Settled encryption operation.Hold s (s.run encryption answers operation).1 (s.run encryption answers operation).2 ↔
        s.SafeFor (operation, answers)) ∧
      (s.SafeFor (operation, answers) → (s.run encryption answers operation).2.Clean encryption) := by
  cases operation with
  | captureTwitchCredentials payload => exact commit_safe _ hclean (fun hcount => (applyMoves_idle hcount).1) trivial
  | captureConnectorCredentials connectorId payload =>
    exact commit_safe _ hclean (fun hcount => (applyMoves_idle hcount).1) trivial
  | captureSettingsPayload payload => exact commit_safe _ hclean (fun hcount => (applyMoves_idle hcount).1) trivial
  | captureSettingValue fieldPath value => exact commit_safe _ hclean (fun hcount => (applyMoves_idle hcount).1) trivial
  | delete fieldPath => exact commit_safe _ hclean deleted_idle trivial
  | migratePlaintextSettings file =>
    obtain ⟨hsettled, hkept⟩ := migrate_settled settings_migration hclean
      (Prod.eta (s.migrate encryption answers settingsPlan file)).symm
    exact ⟨hsettled, fun hsafe => hkept hsafe.1⟩
  | migratePlaintextConnectorState file =>
    obtain ⟨hsettled, hkept⟩ := migrate_settled connector_migration hclean
      (Prod.eta (s.migrate encryption answers connectorPlan file)).symm
    exact ⟨hsettled, fun hsafe => hkept hsafe.1⟩
  | edit file document => exact absurd rfl (hedit file document)

theorem edit_clean (hclean : s.Clean encryption) (file : String) (document : Option Json) :
    (s.edit file document).Clean encryption := by
  cases document with
  | none => exact hclean
  | some document => exact hclean

end Calls

end ProviderCredentialStore

/-! ## Runs -/

/-- A vault, with the operation before: where it began and what it answered. -/
structure Observed where
  now : ProviderCredentialStore
  last : Option (ProviderCredentialStore × Operation × Except String Answer)

namespace Observed

def start (encryption : CredentialEncryptionAdapter) (stored : Option (Dict String String)) (documents : Dict String Json) :
    Observed :=
  ⟨.new encryption stored documents, none⟩

def next (encryption : CredentialEncryptionAdapter) (s : Observed) (e : Operation × Answers) : Observed where
  now := (s.now.run encryption e.2 e.1).2
  last := some (s.now, e.1, (s.now.run encryption e.2 e.1).1)

def Step (encryption : CredentialEncryptionAdapter) (s : Observed) (e : Operation × Answers) (s' : Observed) : Prop :=
  s.next encryption e = s'

/-- The operation before, where it was one of the vault, lost no secret of a document, and left
the memory as the vault file is where it threw. -/
def Sound (encryption : CredentialEncryptionAdapter) (s : Observed) : Prop :=
  ∀ before operation answer, s.last = some (before, operation, answer) →
    (∀ file document, operation ≠ .edit file document) → before.Settled encryption operation.Hold answer s.now

variable {encryption : CredentialEncryptionAdapter} {s : Observed} {e : Operation × Answers}

theorem next_sound : (s.next encryption e).Sound encryption ↔ ((∀ file document, e.1 ≠ .edit file document) →
    s.now.Settled encryption e.1.Hold (s.now.run encryption e.2 e.1).1 (s.now.run encryption e.2 e.1).2) := by
  constructor
  · intro h hedit
    exact h s.now e.1 _ rfl hedit
  · intro h before operation answer hlast hedit
    obtain ⟨rfl, hrest⟩ := Prod.mk.inj (Option.some.inj hlast)
    obtain ⟨rfl, rfl⟩ := Prod.mk.inj hrest
    exact h hedit

end Observed

/-- No migration loses a secret, and the memory is what the vault file is after a call that throws,
exactly along the runs in which every operation that changes values is saved and no document
that is migrated has two secrets under one path. -/
theorem migrations_lose_nothing (encryption : CredentialEncryptionAdapter) (stored : Option (Dict String String))
    (documents : Dict String Json) (hist : List (Operation × Answers)) :
    Run.Always (Observed.Step encryption) (Observed.start encryption stored documents) (Observed.Sound encryption) hist ↔
      Run.Meets (Observed.Step encryption) (Observed.start encryption stored documents) (fun s e => s.now.SafeFor e) hist := by
  refine Run.always_iff_meets_kept (I := fun _ => True) (Q := fun s => s.Sound encryption ∧ s.now.Clean encryption) trivial
    (fun _ _ _ _ _ => trivial) ⟨fun _ _ _ hlast => (by cases hlast), fun _ => rfl⟩ ?_ (fun _ _ h => h.1) ?_
  · intro s e s' _ hkept hstep hsafe
    obtain rfl := hstep
    obtain ⟨operation, answers⟩ := e
    by_cases hedit : ∀ file document, operation ≠ .edit file document
    · obtain ⟨hsettled, hclean⟩ :=
        ProviderCredentialStore.run_settled answers hkept.2 operation hedit
      exact ⟨Observed.next_sound.mpr fun _ => hsettled.mpr hsafe, hclean hsafe⟩
    · refine ⟨Observed.next_sound.mpr fun h => absurd h hedit, ?_⟩
      simp only [ne_eq, not_forall, not_not] at hedit
      obtain ⟨file, document, rfl⟩ := hedit
      exact ProviderCredentialStore.edit_clean hkept.2 file document
  · intro s e s' _ hkept hstep hsound
    obtain rfl := hstep
    obtain ⟨operation, answers⟩ := e
    by_cases hedit : ∀ file document, operation ≠ .edit file document
    · obtain ⟨hsettled, -⟩ := ProviderCredentialStore.run_settled answers hkept.2 operation hedit
      exact hsettled.mp (Observed.next_sound.mp hsound hedit)
    · simp only [ne_eq, not_forall, not_not] at hedit
      obtain ⟨file, document, rfl⟩ := hedit
      exact ⟨Or.inr (ProviderCredentialStore.sameValues_refl _), trivial⟩

/-! ## A secret that is lost -/

namespace Sample

/-- Encryption that writes a text backwards. -/
def encryption : CredentialEncryptionAdapter where
  encrypt value := String.ofList value.toList.reverse
  decrypt text := some (String.ofList text.toList.reverse)
  decrypt_encrypt value := by
    rw [String.toList_ofList, List.reverse_reverse, String.ofList_toList]

def unwritten : Answers := ⟨true, false, true, true⟩

def written : Answers := ⟨true, true, true, true⟩

/-- A settings document with a key in plain text. -/
def payload : Json := .obj [("llm", .obj [("api_key", .str "sk-1")])]

def documents : Dict String Json := Dict.empty.set "settings.json" payload

/-- A migration whose vault file is not written. -/
def failed : Observed :=
  (Observed.start encryption none documents).next encryption (.migratePlaintextSettings "settings.json", unwritten)

def retried : Observed := failed.next encryption (.migratePlaintextSettings "settings.json", written)

end Sample

/-- A migration that is tried again blanks the document, and the vault file holds nothing. -/
theorem retried_migration_loses_secret :
    ∃ hist s, Run (Observed.Step Sample.encryption) (Observed.start Sample.encryption none Sample.documents) hist s ∧
      ¬ s.Sound Sample.encryption ∧ s.now.stored = none ∧
        s.now.documents.get "settings.json" = some (.obj [("llm", .obj [("api_key", .str "")])]) := by
  refine ⟨[_, _], Sample.retried, Run.next (Run.next Run.start (show _ = Sample.failed from rfl)) rfl, fun hsound => ?_,
    by decide +kernel, by decide +kernel⟩
  have hsettled := hsound Sample.failed.now (.migratePlaintextSettings "settings.json") _ rfl fun _ _ h => by cases h
  have hget : Sample.failed.now.documents.get "settings.json" = some Sample.payload := by decide +kernel
  have hsecret : SettingsHold Sample.payload "llm.api_key" "sk-1" :=
    ⟨"sk-1", by decide +kernel, by decide +kernel, by decide +kernel, by decide +kernel⟩
  obtain ⟨left, hleft, hstill⟩ | hheld := hsettled.kept "settings.json" Sample.payload "llm.api_key" "sk-1" hget hsecret
  · have hblank : Sample.retried.now.documents.get "settings.json" = some (settingsPlan Sample.payload).document := by
      decide +kernel
    obtain rfl := Option.some.inj (hblank.symm.trans hleft)
    exact settings_migration.blank hstill
  · have hnone : (Sample.retried.now.held Sample.encryption).get "llm.api_key" = none := by decide +kernel
    cases hnone.symm.trans hheld

end Credential
