import Yuizaki.Settings.Failure

/- Rollbacks of settings (`SettingsAPI.rollback_changes`).

   A rollback takes the settings of a snapshot, with the credentials of now. Where there are not as
   many snapshots as steps, it goes by the record of dynamic changes instead, which has an event for
   each section of a commit and only the fields that were patched. So a rollback is exact in every
   run where it finds its snapshot, or neither has that many steps. -/
namespace Settings

open Transition

/-! ## Rollbacks -/

namespace Backend

variable (world : World) (b : Backend)

/-- The document that a rollback restores: a snapshot, with the credentials of now. -/
def rollbackTarget (snapshot : Json) : Json :=
  clearChangedConnectionSecrets world b.settings (preserveCurrentSecrets snapshot b.settings) (.obj [])

def rollbackToSnapshot (steps : ℕ) (snapshot : Json) : Bool × Backend :=
  let target := b.rollbackTarget world snapshot
  match validatedRuntimeUpdates world target with
  | none => (false, b.replaceAndSaveSettings b.settings)
  | some updates =>
    let written : Backend :=
      { b.replaceAndSaveSettings target with dynamic := { b.dynamic with config := entriesOf updates } }
    let applied := written.applyRuntime world none updates
    if applied.2.2 = true then
      (true, { written with
        config := applied.1
        snapshots := (popSnapshots world false steps b.snapshots).1 })
    else (false, { b.replaceAndSaveSettings b.settings with config := applied.1 })

/-- The rollback by the record of dynamic changes, once they are undone. -/
def rollbackDynamic (dynamic : DynamicConfig) : Bool × Backend :=
  let b' := { b with dynamic }
  match validatePersistedSettings world (preserveCurrentSecrets (.obj dynamic.config) b.settings) with
  | none => (false, b')
  | some rolledBack =>
    let next := clearChangedConnectionSecrets world b.settings rolledBack (.obj [])
    match validatedRuntimeUpdates world next with
    | none => (false, b'.replaceAndSaveSettings b.settings)
    | some updates =>
      let applied := (b'.replaceAndSaveSettings next).applyRuntime world none updates
      if applied.2.2 = true then (true, { b'.replaceAndSaveSettings next with config := applied.1 })
      else (false, { b'.replaceAndSaveSettings b.settings with config := applied.1 })

/-- `rollback_changes`: whether the settings were rolled back. -/
def rollback (steps : ℕ) : Bool × Backend :=
  if steps = 0 then (false, b)
  else match readSnapshots world b.snapshots with
    | none => (false, { b with snapshots := [] })
    | some current =>
      match if steps ≤ current.length then current.reverse[steps - 1]? else none with
      | some snapshot => b.rollbackToSnapshot world steps snapshot
      | none =>
        match b.dynamic.rollback steps with
        | some dynamic => b.rollbackDynamic world dynamic
        | none => (false, b)

end Backend

/-! ## Restarts -/

/-- A provider credential of the environment: its section, its field, and its value. -/
structure ProviderCredential where
  part : String
  field : String
  secret : String

/-- `_is_provider_credential_path`, and a value that is not empty. -/
def ProviderCredential.allowed (c : ProviderCredential) : Bool :=
  decide (c.part ∈ ["llm", "tts", "asr", "svc", "memory"]) && decide (c.field ∈ secretFieldNames) && decide (c.secret ≠ "")

/-- `_set_path` on a document. -/
def setCredential (document : List (String × Json)) (c : ProviderCredential) : List (String × Json) :=
  Json.setEntry document c.part (.obj (Json.setEntry (entriesOf ((Json.obj document).get c.part)) c.field (.str c.secret)))

def loadSettings (file : Option Json) (environment : List ProviderCredential) : Json :=
  .obj ((environment.filter (·.allowed)).foldl setCredential (entriesOf (file.getD .null)))

/-- A backend that starts with its files: the live configuration takes the settings. -/
def boot (world : World) (file : Option Json) (snapshots : List Json) (environment : List ProviderCredential)
    (config : Option RuntimeConfig) : Backend where
  settings := loadSettings file environment
  file
  snapshots
  dynamic := ⟨[], []⟩
  config := config.map fun config =>
    match (validatePersistedSettings world (loadSettings file environment)).bind (validatedRuntimeUpdates world) with
    | some updates => (applyRuntimeConfig world config updates false).1
    | none => config

def Backend.shown (world : World) (b : Backend) : Json := (validatePersistedSettings world b.settings).getD b.settings

/-! ## Statements -/

/-- Two documents have the same settings, credentials apart. -/
def Agree (d d' : Json) : Prop :=
  ∀ path, PlainPath path → (leafAt path d).map scrubSensitiveSettings = (leafAt path d').map scrubSensitiveSettings

/-- Every credential is as it was, or cleared. -/
def CredentialsKept (before after : Json) : Prop :=
  ∀ path, ¬ PlainPath path → leafAt path after = leafAt path before ∨ leafAt path after = none ∨ leafAt path after = some (.str "")

/-- A rollback that was asked for: how many steps, the settings that were committed, newest first, the
backend before and after it, and whether it was done. -/
structure Rolled where
  steps : ℕ
  trail : List Json
  before : Backend
  after : Backend
  rolledBack : Bool

/-- A rollback is exact: it leaves everything as it was, or restores the settings of so many commits ago. -/
def Rolled.Exact (world : World) (r : Rolled) : Prop :=
  if r.rolledBack = true then
    (∃ s, r.trail[r.steps]? = some s ∧ Agree (r.after.shown world) s) ∧ CredentialsKept r.before.settings r.after.settings
  else r.after = r.before

/-- The backend, the settings that were committed, newest first, and the rollbacks. -/
structure Timeline where
  backend : Backend
  trail : List Json
  log : List Rolled

/-- A commit that succeeds, a restart, or a rollback. -/
inductive Move where
  | commit (next updates : Json)
  | restart (environment : List ProviderCredential) (config : Option RuntimeConfig)
  | rollback (steps : ℕ)

namespace Timeline

variable (world : World) (s : Timeline)

/-- What a move does; a second rollback counts back from where the first one came to. -/
def act : Move → Option Timeline
  | .commit next updates =>
    match s.backend.commit world {} next updates with
    | (some _, backend) => some { s with
        backend
        trail := backend.shown world :: s.trail }
    | (none, _) => none
  | .restart environment config =>
    some { s with backend := boot world s.backend.file s.backend.snapshots environment config }
  | .rollback steps =>
    let r := s.backend.rollback world steps
    some {
      backend := r.2
      trail := if r.1 = true then s.trail.drop steps else s.trail
      log := ⟨steps, s.trail, s.backend, r.2, r.1⟩ :: s.log }

def Step (s : Timeline) (l : Move) (s' : Timeline) : Prop := s.act world l = some s'

/-- A backend that starts without snapshots. -/
def start (file : Option Json) (environment : List ProviderCredential) (config : Option RuntimeConfig) : Timeline :=
  let backend := boot world file [] environment config
  ⟨backend, [backend.shown world], []⟩

end Timeline

def RollbacksExact (world : World) (s : Timeline) : Prop := ∀ r ∈ s.log, r.Exact world

/-! ## The condition -/

mutual

/-- No key is there twice, as in every dictionary. -/
def distinctKeys : Json → Bool
  | .obj entries => decide (entries.map Prod.fst).Nodup && distinctEntries entries
  | _ => true

/-- No key is there twice in the values of the entries. -/
def distinctEntries : List (String × Json) → Bool
  | [] => true
  | (_, child) :: rest => distinctKeys child && distinctEntries rest

end

/-- Validation leaves a document as it is. -/
def stable (world : World) (document : Json) : Bool := decide (validatePersistedSettings world document = some document)

/-- The live configuration takes a document. -/
def Backend.takes (world : World) (b : Backend) (document : Json) : Bool :=
  match validatedRuntimeUpdates world document with
  | some updates => (b.applyRuntime world none updates).2.2
  | none => false

namespace Timeline

variable (world : World) (s : Timeline)

/-- A commit whose snapshot reads back as it is written; a restart where validation leaves the settings
as they are; and a rollback that finds its snapshot, or that neither record has the steps for. -/
def regular : Move → Bool
  | .commit _ _ => stable world (scrubSensitiveSettings (s.backend.shown world))
  | .restart environment _ =>
    stable world s.backend.settings && stable world (s.backend.file.getD .null) &&
      stable world (loadSettings s.backend.file environment)
  | .rollback steps =>
    match s.backend.snapshots.reverse[steps - 1]? with
    | some snapshot =>
      distinctKeys s.backend.settings && stable world (s.backend.rollbackTarget world snapshot) &&
        s.backend.takes world (s.backend.rollbackTarget world snapshot)
    | none => decide (s.backend.dynamic.changeHistory.length < steps)

def RegularStep (s : Timeline) (l : Move) (s' : Timeline) : Prop := s.Step world l s' ∧ s.regular world l = true

end Timeline

/-! ## Documents without credentials -/

mutual

theorem scrub_scrub (document : Json) :
    scrubSensitiveSettings (scrubSensitiveSettings document) = scrubSensitiveSettings document := by
  cases document with
  | obj entries =>
    simp only [scrubSensitiveSettings]
    rw [scrubEntries_scrub entries]
  | arr items =>
    simp only [scrubSensitiveSettings]
    rw [scrubItems_scrub items]
  | null | bool | int | num | str => rfl

theorem scrubEntries_scrub (entries : List (String × Json)) : scrubEntries (scrubEntries entries) = scrubEntries entries := by
  cases entries with
  | nil => rfl
  | cons entry rest =>
    obtain ⟨key, child⟩ := entry
    simp only [scrubEntries]
    rw [scrubEntries_scrub rest]
    split
    · rfl
    · rw [scrub_scrub child]

theorem scrubItems_scrub (items : List Json) : scrubItems (scrubItems items) = scrubItems items := by
  cases items with
  | nil => rfl
  | cons item rest =>
    simp only [scrubItems]
    rw [scrub_scrub item, scrubItems_scrub rest]

end

theorem Agree.refl (d : Json) : Agree d d := fun _ _ => rfl

theorem Agree.symm {d d' : Json} (h : Agree d d') : Agree d' d := fun path hpath => (h path hpath).symm

theorem Agree.trans {a b c : Json} (h : Agree a b) (h' : Agree b c) : Agree a c :=
  fun path hpath => (h path hpath).trans (h' path hpath)

theorem agree_scrub (d : Json) : Agree (scrubSensitiveSettings d) d := by
  intro path hpath
  rw [leafAt_scrub hpath, Option.map_map]
  congr 1
  funext value
  exact scrub_scrub value

theorem leafAt_scrub_credential {path : List String} (h : ¬ PlainPath path) (d : Json) :
    leafAt path (scrubSensitiveSettings d) = none ∨ leafAt path (scrubSensitiveSettings d) = some (.str "") := by
  induction path generalizing d with
  | nil => exact absurd (fun part hpart => absurd hpart List.not_mem_nil) h
  | cons part rest ih =>
    cases d with
    | obj entries =>
      simp only [scrubSensitiveSettings, leafAt, lookup_scrubEntries]
      cases entries.lookup part with
      | none => exact Or.inl rfl
      | some child =>
        rw [Option.map_some, Option.bind_some]
        by_cases hpart : part ∈ secretFieldNames
        · rw [if_pos hpart]
          cases rest with
          | nil => exact Or.inr rfl
          | cons next others => exact Or.inl rfl
        · rw [if_neg hpart]
          exact ih (fun hrest => h (List.forall_mem_cons.mpr ⟨hpart, hrest⟩)) child
    | arr | null | bool | int | num | str => exact Or.inl rfl

/-! ## Credentials that are kept -/

section Preserve

variable {current result : List (String × Json)}

theorem preservedValue_secret {key : String} (h : key ∈ secretFieldNames) (child : Json) (old : Option Json) :
    preservedValue child key old = some child := by
  cases child with
  | obj | arr | null | bool | int | num | str =>
    simp only [preservedValue]
    exact if_pos h

theorem lookup_preserveEntries (hnodup : (current.map Prod.fst).Nodup) (key : String) :
    (preserveEntries current result).lookup key =
      match current.lookup key with
      | none => result.lookup key
      | some child => (preservedValue child key (result.lookup key)).or (result.lookup key) := by
  induction current generalizing result with
  | nil => simp only [preserveEntries, List.lookup_nil]
  | cons entry rest ih =>
    obtain ⟨other, child⟩ := entry
    obtain ⟨hnew, hrest⟩ := List.nodup_cons.mp hnodup
    rw [preserveEntries, ih hrest, Json.lookup_cons_if]
    by_cases heq : key = other
    · subst heq
      have hgone : rest.lookup key = none := by
        rw [List.lookup_eq_none_iff]
        intro p hp
        simp only [bne_iff_ne, ne_eq]
        exact fun h => hnew (List.mem_map.mpr ⟨p, hp, h.symm⟩)
      rw [hgone, if_pos rfl]
      dsimp only
      cases preservedValue child key (result.lookup key) with
      | none => rfl
      | some value => rw [Option.elim_some, Json.lookup_setEntry, if_pos rfl, Option.some_or]
    · -- the entry leaves the other keys alone
      have hstep : ((preservedValue child other (result.lookup other)).elim result (Json.setEntry result other)).lookup key =
          result.lookup key := by
        cases preservedValue child other (result.lookup other) with
        | none => rfl
        | some value => rw [Option.elim_some, Json.lookup_setEntry, if_neg heq]
      rw [hstep, if_neg heq]

theorem leafAt_obj (part : String) (rest : List String) (entries : List (String × Json)) :
    leafAt (part :: rest) (.obj entries) = (entries.lookup part).bind (leafAt rest) := by
  simp only [leafAt]

theorem distinct_obj {entries : List (String × Json)} (h : distinctKeys (.obj entries) = true) :
    (entries.map Prod.fst).Nodup ∧ ∀ key child, entries.lookup key = some child → distinctKeys child = true := by
  rw [distinctKeys, Bool.and_eq_true_iff] at h
  refine ⟨of_decide_eq_true h.1, fun key child hchild => ?_⟩
  have hall := h.2
  clear h
  induction entries with
  | nil => cases hchild
  | cons entry rest ih =>
    obtain ⟨other, value⟩ := entry
    obtain ⟨hvalue, hrest⟩ := Bool.and_eq_true_iff.mp hall
    rw [Json.lookup_cons_if] at hchild
    split at hchild
    · obtain rfl := Option.some.inj hchild
      exact hvalue
    · exact ih hchild hrest

theorem leafAt_preserve_plain {path : List String} (hpath : PlainPath path)
    (hdistinct : distinctKeys (.obj current) = true) :
    leafAt path (.obj (preserveEntries current result)) = leafAt path (.obj result) := by
  induction path generalizing current result with
  | nil => rfl
  | cons part rest ih =>
    obtain ⟨hpart, hrest⟩ := List.forall_mem_cons.mp hpath
    obtain ⟨hnodup, hchildren⟩ := distinct_obj hdistinct
    rw [leafAt_obj, leafAt_obj, lookup_preserveEntries hnodup]
    cases hchild : current.lookup part with
    | none => rfl
    | some child =>
      dsimp only
      cases child with
      | obj inner =>
        simp only [preservedValue, if_neg hpart]
        cases hold : result.lookup part with
        | none => rfl
        | some old =>
          cases old with
          | obj target => exact ih hrest (hchildren part _ hchild)
          | arr | null | bool | int | num | str => rfl
      | arr | null | bool | int | num | str =>
        simp only [preservedValue, if_neg hpart]
        rfl

theorem leafAt_preserve_credential {path : List String} (hpath : ¬ PlainPath path)
    (hdistinct : distinctKeys (.obj current) = true) :
    leafAt path (.obj (preserveEntries current result)) = leafAt path (.obj current) ∨
      leafAt path (.obj (preserveEntries current result)) = leafAt path (.obj result) := by
  induction path generalizing current result with
  | nil => exact Or.inr rfl
  | cons part rest ih =>
    obtain ⟨hnodup, hchildren⟩ := distinct_obj hdistinct
    rw [leafAt_obj, leafAt_obj, leafAt_obj, lookup_preserveEntries hnodup]
    cases hchild : current.lookup part with
    | none => exact Or.inr rfl
    | some child =>
      dsimp only
      by_cases hpart : part ∈ secretFieldNames
      · rw [preservedValue_secret hpart]
        exact Or.inl rfl
      · have hrest : ¬ PlainPath rest := fun hrest => hpath (List.forall_mem_cons.mpr ⟨hpart, hrest⟩)
        cases child with
        | obj inner =>
          simp only [preservedValue, if_neg hpart]
          cases hold : result.lookup part with
          | none => exact Or.inr rfl
          | some old =>
            cases old with
            | obj target => exact ih hrest (hchildren part _ hchild)
            | arr | null | bool | int | num | str => exact Or.inr rfl
        | arr | null | bool | int | num | str =>
          simp only [preservedValue, if_neg hpart]
          exact Or.inr rfl

end Preserve

/-! ## Credentials that are cleared -/

/-- One document comes from another by clearing credentials. -/
def OnlyCleared (d d' : Json) : Prop :=
  ∀ path, (PlainPath path → leafAt path d' = leafAt path d) ∧
    (leafAt path d' = leafAt path d ∨ leafAt path d' = none ∨ leafAt path d' = some (.str ""))

theorem OnlyCleared.refl (d : Json) : OnlyCleared d d := fun _ => ⟨fun _ => rfl, Or.inl rfl⟩

theorem OnlyCleared.trans {a b c : Json} (h : OnlyCleared a b) (h' : OnlyCleared b c) : OnlyCleared a c := by
  intro path
  obtain ⟨hplain, hany⟩ := h path
  obtain ⟨hplain', hany'⟩ := h' path
  refine ⟨fun hpath => (hplain' hpath).trans (hplain hpath), ?_⟩
  obtain heq | hcleared := hany'
  · rw [heq]
    exact hany
  · exact Or.inr hcleared

section Clear

variable {world : World} {entries : List (String × Json)} {key : String}

theorem leafAt_setEntry (entries : List (String × Json)) (key : String) (value : Json) (part : String) (rest : List String) :
    leafAt (part :: rest) (.obj (Json.setEntry entries key value)) =
      if part = key then leafAt rest value else leafAt (part :: rest) (.obj entries) := by
  rw [leafAt_obj, leafAt_obj, Json.lookup_setEntry]
  split
  · rfl
  · rfl

theorem onlyCleared_credential (entries : List (String × Json)) (hkey : key ∈ secretFieldNames) :
    OnlyCleared (.obj entries) (.obj (Json.setEntry entries key (.str ""))) := by
  intro path
  cases path with
  | nil => exact ⟨fun _ => rfl, Or.inl rfl⟩
  | cons part rest =>
    rw [leafAt_setEntry]
    by_cases hpart : part = key
    · rw [if_pos hpart]
      refine ⟨fun hplain => absurd hkey (hpart ▸ hplain part List.mem_cons_self), Or.inr ?_⟩
      cases rest with
      | nil => exact Or.inr rfl
      | cons next others => exact Or.inl rfl
    · rw [if_neg hpart]
      exact ⟨fun _ => rfl, Or.inl rfl⟩

theorem onlyCleared_below {value value' : Json} (hvalue : entries.lookup key = some value) (h : OnlyCleared value value') :
    OnlyCleared (.obj entries) (.obj (Json.setEntry entries key value')) := by
  intro path
  cases path with
  | nil => exact ⟨fun _ => rfl, Or.inl rfl⟩
  | cons part rest =>
    rw [leafAt_setEntry]
    by_cases hpart : part = key
    · rw [if_pos hpart, leafAt_obj, hpart, hvalue, Option.bind_some]
      obtain ⟨hsame, hany⟩ := h rest
      exact ⟨fun hpath => hsame (List.forall_mem_cons.mp hpath).2, hany⟩
    · rw [if_neg hpart]
      exact ⟨fun _ => rfl, Or.inl rfl⟩

theorem clearChangedSecret_onlyCleared {current patch candidate : List (String × Json)} {provider baseUrl credential : String}
    (hcredential : credential ∈ secretFieldNames) :
    OnlyCleared (.obj candidate) (.obj (clearChangedSecret world current patch candidate provider baseUrl credential)) := by
  unfold clearChangedSecret
  dsimp only
  split
  · exact onlyCleared_credential candidate hcredential
  · exact OnlyCleared.refl _

theorem clear_onlyCleared (world : World) (current candidate patch : Json) :
    OnlyCleared candidate (clearChangedConnectionSecrets world current candidate patch) := by
  unfold clearChangedConnectionSecrets
  cases current.get "llm" with
  | obj old =>
    cases candidate with
    | obj entries =>
      dsimp only
      cases hllm : (Json.obj entries).get "llm" with
      | obj new =>
        cases (if patch.hasKey "llm" = true then patch.get "llm" else .obj []) with
        | obj given =>
          have hvalue : entries.lookup "llm" = some (.obj new) := by
            have hget : (entries.lookup "llm").getD .null = .obj new := hllm
            cases hlookup : entries.lookup "llm" with
            | none =>
              rw [hlookup] at hget
              cases hget
            | some value =>
              rw [hlookup] at hget
              exact congrArg some hget
          refine onlyCleared_below hvalue ?_
          exact (clearChangedSecret_onlyCleared (by decide)).trans (clearChangedSecret_onlyCleared (by decide))
        | arr | null | bool | int | num | str => exact OnlyCleared.refl _
      | arr | null | bool | int | num | str => exact OnlyCleared.refl _
    | arr | null | bool | int | num | str => exact OnlyCleared.refl _
  | arr | null | bool | int | num | str => exact OnlyCleared.refl _

end Clear

/-! ## The target of a rollback -/

section Target

variable {world : World} {b : Backend} {snapshot : Json}

theorem rollbackTarget_spec (hdistinct : distinctKeys b.settings = true)
    (hclean : ∀ path, ¬ PlainPath path → leafAt path snapshot = none ∨ leafAt path snapshot = some (.str "")) :
    Agree (b.rollbackTarget world snapshot) snapshot ∧ CredentialsKept b.settings (b.rollbackTarget world snapshot) := by
  have hcleared := clear_onlyCleared world b.settings (preserveCurrentSecrets snapshot b.settings) (.obj [])
  have hpreserved : (∀ path, PlainPath path → leafAt path (preserveCurrentSecrets snapshot b.settings) = leafAt path snapshot) ∧
      CredentialsKept b.settings (preserveCurrentSecrets snapshot b.settings) := by
    unfold preserveCurrentSecrets
    split
    · rename_i target current hsettings
      rw [hsettings] at hdistinct ⊢
      refine ⟨fun path hpath => leafAt_preserve_plain hpath hdistinct, fun path hpath => ?_⟩
      have heither : _ ∨ leafAt path (.obj (preserveEntries current target)) = leafAt path (.obj target) :=
        leafAt_preserve_credential hpath hdistinct
      obtain hcurrent | htarget := heither
      · exact Or.inl hcurrent
      · rw [htarget]
        exact Or.inr (hclean path hpath)
    · exact ⟨fun _ _ => rfl, fun path hpath => Or.inr (hclean path hpath)⟩
  refine ⟨fun path hpath => ?_, fun path hpath => ?_⟩
  · have hsame : leafAt path (b.rollbackTarget world snapshot) = leafAt path snapshot :=
      ((hcleared path).1 hpath).trans (hpreserved.1 path hpath)
    rw [hsame]
  · obtain hsame | hgone := (hcleared path).2
    · have hsame : leafAt path (b.rollbackTarget world snapshot) =
          leafAt path (preserveCurrentSecrets snapshot b.settings) := hsame
      rw [hsame]
      exact hpreserved.2 path hpath
    · exact Or.inr hgone

end Target

/-! ## Settings that are loaded -/

section Load

variable {world : World} {document : List (String × Json)} {environment : List ProviderCredential}

def HasSections (document : List (String × Json)) : Prop :=
  ∀ part ∈ ["llm", "tts", "asr", "svc", "memory"], ∃ fields, document.lookup part = some (.obj fields)

theorem validateSections_lookup {entries out : List (String × Json)} {parts : List SettingsSection}
    (h : validateSections world entries parts = some out) {name : String} (hname : name ∈ parts.map (·.name)) :
    ∃ fields, out.lookup name = some (.obj fields) := by
  induction parts generalizing out with
  | nil => exact absurd hname List.not_mem_nil
  | cons part rest ih =>
    obtain ⟨value, hvalue, h⟩ := Option.bind_eq_some_iff.mp h
    obtain ⟨others, hothers, rfl⟩ := Option.map_eq_some_iff.mp h
    rw [Json.lookup_cons_if]
    by_cases heq : name = part.name
    · rw [if_pos heq]
      unfold validateModel at hvalue
      split at hvalue
      · split at hvalue
        · obtain ⟨values, -, rfl⟩ := Option.map_eq_some_iff.mp hvalue
          exact ⟨_, rfl⟩
        · cases hvalue
      · cases hvalue
    · rw [if_neg heq]
      exact ih hothers ((List.mem_cons.mp hname).resolve_left heq)

theorem hasSections_of_stable {d : Json} (h : stable world d = true) : d = .obj (entriesOf d) ∧ HasSections (entriesOf d) := by
  have h := of_decide_eq_true h
  unfold validatePersistedSettings at h
  split at h
  · split at h
    · obtain ⟨out, hout, hd⟩ := Option.map_eq_some_iff.mp h
      obtain rfl := Json.obj.inj hd
      refine ⟨rfl, fun part hpart => validateSections_lookup hout ?_⟩
      have hnames : ∀ name ∈ ["llm", "tts", "asr", "svc", "memory"], name ∈ settingsSections.map (·.name) := by decide
      exact hnames part hpart
    · cases h
  · cases h

theorem setCredential_agree {c : ProviderCredential} (hallowed : c.allowed = true) (h : HasSections document) :
    HasSections (setCredential document c) ∧ Agree (.obj (setCredential document c)) (.obj document) := by
  unfold ProviderCredential.allowed at hallowed
  rw [Bool.and_eq_true_iff, Bool.and_eq_true_iff] at hallowed
  obtain ⟨⟨hpart, hfield⟩, -⟩ := hallowed
  obtain ⟨fields, hfields⟩ := h c.part (of_decide_eq_true hpart)
  have hentries : entriesOf ((Json.obj document).get c.part) = fields := by
    show entriesOf ((document.lookup c.part).getD .null) = fields
    rw [hfields]
    rfl
  unfold setCredential
  rw [hentries]
  refine ⟨fun part hmem => ?_, fun path hpath => ?_⟩
  · rw [Json.lookup_setEntry]
    split
    · exact ⟨_, rfl⟩
    · exact h part hmem
  · congr 1
    cases path with
    | nil => rfl
    | cons part rest =>
      rw [leafAt_setEntry]
      by_cases heq : part = c.part
      · rw [if_pos heq, leafAt_obj, heq, hfields, Option.bind_some]
        cases rest with
        | nil => rfl
        | cons next others =>
          have hne : next ≠ c.field := fun hnext =>
            hpath next (List.mem_cons_of_mem _ List.mem_cons_self) (hnext ▸ of_decide_eq_true hfield)
          rw [leafAt_setEntry, if_neg hne]
      · rw [if_neg heq]

theorem loadSettings_agree {file : Option Json} (h : stable world (file.getD .null) = true) :
    Agree (loadSettings file environment) (file.getD .null) := by
  obtain ⟨hobj, hsections⟩ := hasSections_of_stable h
  rw [hobj]
  unfold loadSettings
  have hall : ∀ c ∈ environment.filter (·.allowed), c.allowed = true := fun c hc => (List.mem_filter.mp hc).2
  generalize entriesOf (file.getD .null) = document at hsections
  clear h hobj
  generalize environment.filter (·.allowed) = allowed at hall ⊢
  induction allowed generalizing document with
  | nil => exact Agree.refl _
  | cons c rest ih =>
    obtain ⟨hc, hrest⟩ := List.forall_mem_cons.mp hall
    obtain ⟨hkept, hagree⟩ := setCredential_agree hc hsections
    exact (ih _ hkept hrest).trans hagree

end Load

/-! ## Runs -/

section Runs

variable {world : World} {s s' : Timeline} {l : Move}

/-- No credential is in a snapshot, and validation leaves it as it is. -/
def Clean (world : World) (snapshot : Json) : Prop :=
  validatePersistedSettings world snapshot = some snapshot ∧
    ∀ path, ¬ PlainPath path → leafAt path snapshot = none ∨ leafAt path snapshot = some (.str "")

/-- The settings and the snapshots, newest first, are those of the last commits; and the file has the
settings, where validation leaves both as they are. -/
structure Kept (world : World) (s : Timeline) : Prop where
  inStep : List.Forall₂ Agree (s.backend.shown world :: s.backend.snapshots.reverse)
    (s.trail.take (s.backend.snapshots.length + 1))
  clean : ∀ snapshot ∈ s.backend.snapshots, Clean world snapshot
  room : s.backend.snapshots.length ≤ maxSettingsSnapshots
  file : stable world (s.backend.file.getD .null) = true → Agree s.backend.settings (s.backend.file.getD .null)

theorem Kept.read (h : Kept world s) : readSnapshots world s.backend.snapshots = some s.backend.snapshots :=
  readSnapshots_of_stable (fun d hd => (h.clean d hd).1) h.room

theorem shown_of_stable {b : Backend} (h : stable world b.settings = true) : b.shown world = b.settings := by
  unfold Backend.shown
  rw [of_decide_eq_true h]
  rfl

theorem shown_of_valid {b : Backend} {previous : Json} (h : validatePersistedSettings world b.settings = some previous) :
    b.shown world = previous := by
  unfold Backend.shown
  rw [h]
  rfl

theorem commit_snapshots {b b' : Backend} {next updates : Json} {changed : List String}
    (hread : readSnapshots world b.snapshots = some b.snapshots) (h : b.commit world {} next updates = (some changed, b')) :
    b'.snapshots = newest maxSettingsSnapshots (b.snapshots ++ [scrubSensitiveSettings (b.shown world)]) := by
  unfold Backend.commit at h
  cases hprevious : validatePersistedSettings world b.settings with
  | none =>
    rw [hprevious] at h
    cases h
  | some previous =>
    rw [hprevious] at h
    dsimp only at h
    rw [appendSnapshot_of_read hread, if_neg Bool.noConfusion, if_neg Bool.noConfusion] at h
    obtain ⟨-, -, hsnapshots⟩ := applyUpdates_settings h
    rw [hsnapshots, shown_of_valid hprevious]
    rfl

theorem reverse_newest {α : Type} (n : ℕ) (items : List α) :
    (newest n items).reverse = items.reverse.take (newest n items).length := by
  rw [length_newest]
  unfold newest
  rw [List.reverse_drop]
  congr 1
  omega

theorem Kept.commit (h : Kept world s) {b' : Backend} {next updates : Json} {changed : List String}
    (hcommit : s.backend.commit world {} next updates = (some changed, b'))
    (hregular : stable world (scrubSensitiveSettings (s.backend.shown world)) = true) :
    Kept world { s with
      backend := b'
      trail := b'.shown world :: s.trail } := by
  obtain ⟨hsettings, hfile⟩ := commit_settings hcommit
  have hsnapshots := commit_snapshots h.read hcommit
  have hlength := length_newest maxSettingsSnapshots
    (s.backend.snapshots ++ [scrubSensitiveSettings (s.backend.shown world)])
  rw [List.length_append, List.length_singleton] at hlength
  refine ⟨?_, ?_, ?_, fun _ => ?_⟩
  · -- the snapshot of what was shown agrees with it, and those that there is no room for go at both ends
    show List.Forall₂ Agree (b'.shown world :: b'.snapshots.reverse) (b'.shown world :: s.trail.take b'.snapshots.length)
    refine List.Forall₂.cons (Agree.refl _) ?_
    have hold := h.inStep
    generalize hlast : s.trail.take (s.backend.snapshots.length + 1) = last at hold
    cases hold with
    | cons hshown hrest =>
      have hnew := List.Forall₂.cons ((agree_scrub _).trans hshown) hrest
      have hcut := List.forall₂_take b'.snapshots.length hnew
      rw [← hlast, List.take_take, Nat.min_eq_left (by rw [hsnapshots]; omega)] at hcut
      rw [hsnapshots, reverse_newest, List.reverse_append, List.reverse_singleton, ← hsnapshots]
      exact hcut
  · intro snapshot hsnapshot
    rw [hsnapshots] at hsnapshot
    obtain hold | hnew := List.mem_append.mp (List.mem_of_mem_drop hsnapshot)
    · exact h.clean snapshot hold
    · obtain rfl := List.mem_singleton.mp hnew
      exact ⟨of_decide_eq_true hregular, fun path hpath => leafAt_scrub_credential hpath _⟩
  · show b'.snapshots.length ≤ _
    rw [hsnapshots]
    omega
  · show Agree b'.settings (b'.file.getD .null)
    rw [hsettings, hfile]
    exact (agree_scrub next).symm

theorem Kept.restart (h : Kept world s) {environment : List ProviderCredential} {config : Option RuntimeConfig}
    (hregular : s.regular world (.restart environment config) = true) :
    Kept world { s with backend := boot world s.backend.file s.backend.snapshots environment config } := by
  obtain ⟨hboth, hloaded⟩ := Bool.and_eq_true_iff.mp hregular
  obtain ⟨hsettings, hfile⟩ := Bool.and_eq_true_iff.mp hboth
  have hload : Agree (loadSettings s.backend.file environment) (s.backend.file.getD .null) := loadSettings_agree hfile
  refine ⟨?_, h.clean, h.room, fun _ => hload⟩
  have hold := h.inStep
  show List.Forall₂ Agree (Backend.shown world (boot world s.backend.file s.backend.snapshots environment config) ::
    s.backend.snapshots.reverse) (s.trail.take (s.backend.snapshots.length + 1))
  generalize s.trail.take (s.backend.snapshots.length + 1) = last at hold
  cases hold with
  | cons hshown hrest =>
    rw [shown_of_stable hsettings] at hshown
    refine List.Forall₂.cons ?_ hrest
    rw [shown_of_stable (b := boot world s.backend.file s.backend.snapshots environment config) hloaded]
    exact (hload.trans (h.file hfile).symm).trans hshown

theorem rollbackToSnapshot_takes {b : Backend} {steps : ℕ} {snapshot : Json}
    (h : b.takes world (b.rollbackTarget world snapshot) = true) :
    ∃ b', b.rollbackToSnapshot world steps snapshot = (true, b') ∧ b'.settings = b.rollbackTarget world snapshot ∧
      b'.file = some (scrubSensitiveSettings (b.rollbackTarget world snapshot)) ∧
      b'.snapshots = (popSnapshots world false steps b.snapshots).1 := by
  unfold Backend.takes at h
  unfold Backend.rollbackToSnapshot
  dsimp only
  cases hupdates : validatedRuntimeUpdates world (b.rollbackTarget world snapshot) with
  | none =>
    rw [hupdates] at h
    cases h
  | some updates =>
    rw [hupdates] at h
    dsimp only at h ⊢
    have happly : ((({ b.replaceAndSaveSettings (b.rollbackTarget world snapshot) with
        dynamic := { b.dynamic with config := entriesOf updates } } : Backend).applyRuntime world none updates)) =
        b.applyRuntime world none updates := rfl
    rw [happly, if_pos h]
    exact ⟨_, rfl, rfl, rfl, rfl⟩

theorem popSnapshots_of_read {stored : List Json} {steps : ℕ} (h : readSnapshots world stored = some stored)
    (hsteps : steps ≤ stored.length) : (popSnapshots world false steps stored).1 = stored.take (stored.length - steps) := by
  unfold popSnapshots
  rw [h]
  dsimp only
  rw [if_neg (by omega), if_neg (by decide)]

theorem Kept.rollback (h : Kept world s) {n : ℕ} {snapshot : Json} (hfound : s.backend.snapshots.reverse[n]? = some snapshot)
    (hregular : (distinctKeys s.backend.settings && stable world (s.backend.rollbackTarget world snapshot) &&
      s.backend.takes world (s.backend.rollbackTarget world snapshot)) = true) :
    ∃ b', s.backend.rollback world (n + 1) = (true, b') ∧
      (∀ log, Kept world ⟨b', s.trail.drop (n + 1), log⟩) ∧
      Rolled.Exact world ⟨n + 1, s.trail, s.backend, b', true⟩ := by
  obtain ⟨hboth, htakes⟩ := Bool.and_eq_true_iff.mp hregular
  obtain ⟨hdistinct, hstable⟩ := Bool.and_eq_true_iff.mp hboth
  have hsteps : n + 1 ≤ s.backend.snapshots.length := by
    have hin := (List.getElem?_eq_some_iff.mp hfound).1
    rw [List.length_reverse] at hin
    exact hin
  have hmem : snapshot ∈ s.backend.snapshots := List.mem_reverse.mp (List.mem_of_getElem? hfound)
  obtain ⟨hagree, hcredentials⟩ : Agree (s.backend.rollbackTarget world snapshot) snapshot ∧
      CredentialsKept s.backend.settings (s.backend.rollbackTarget world snapshot) :=
    rollbackTarget_spec hdistinct (h.clean snapshot hmem).2
  obtain ⟨b', hdone, hsettings, hfile, hsnapshots⟩ :
      ∃ b', s.backend.rollbackToSnapshot world (n + 1) snapshot = (true, b') ∧ _ := rollbackToSnapshot_takes htakes
  rw [popSnapshots_of_read h.read hsteps] at hsnapshots
  have hrollback : s.backend.rollback world (n + 1) = (true, b') := by
    unfold Backend.rollback
    rw [if_neg (Nat.succ_ne_zero n), h.read]
    dsimp only
    rw [if_pos hsteps, Nat.add_sub_cancel, hfound]
    exact hdone
  have hshown : Agree (b'.shown world) snapshot := by
    rw [shown_of_stable (by rw [hsettings]; exact hstable), hsettings]
    exact hagree
  -- the snapshots from this one on are the settings from so many commits ago on
  have hcut := List.forall₂_drop (n + 1) h.inStep
  have hlength : s.backend.snapshots.length + 1 - (n + 1) = b'.snapshots.length + 1 := by
    rw [hsnapshots, List.length_take]
    omega
  rw [List.drop_succ_cons, List.drop_eq_getElem?_toList_append, hfound, List.drop_take, hlength] at hcut
  generalize hlast : (s.trail.drop (n + 1)).take (b'.snapshots.length + 1) = last at hcut
  cases hcut with
  | @cons _ restored _ older hrestored holder =>
    have htrail : s.trail[n + 1]? = some restored := by
      have hhead := congrArg (·[0]?) hlast
      rw [List.getElem?_take_of_lt (Nat.succ_pos _), List.getElem?_drop] at hhead
      exact hhead
    refine ⟨b', hrollback, fun log => ⟨?_, ?_, ?_, fun _ => ?_⟩, ?_⟩
    · show List.Forall₂ Agree (b'.shown world :: b'.snapshots.reverse) ((s.trail.drop (n + 1)).take (b'.snapshots.length + 1))
      rw [hlast]
      refine List.Forall₂.cons (hshown.trans hrestored) ?_
      rw [hsnapshots, List.reverse_take]
      have hback : s.backend.snapshots.length - (s.backend.snapshots.length - (n + 1)) = n + 1 := by omega
      rw [hback]
      exact holder
    · intro d hd
      rw [hsnapshots] at hd
      exact h.clean d (List.mem_of_mem_take hd)
    · show b'.snapshots.length ≤ _
      rw [hsnapshots, List.length_take]
      have hroom := h.room
      omega
    · show Agree b'.settings (b'.file.getD .null)
      rw [hsettings, hfile]
      exact (agree_scrub _).symm
    · unfold Rolled.Exact
      rw [if_pos rfl]
      refine ⟨⟨restored, htrail, hshown.trans hrestored⟩, ?_⟩
      rw [hsettings]
      exact hcredentials

theorem rollback_refused (h : Kept world s) {steps : ℕ} (hfound : s.backend.snapshots.reverse[steps - 1]? = none)
    (hhistory : s.backend.dynamic.changeHistory.length < steps) : s.backend.rollback world steps = (false, s.backend) := by
  have hshort := List.getElem?_eq_none_iff.mp hfound
  rw [List.length_reverse] at hshort
  unfold Backend.rollback
  rw [if_neg (by omega), h.read]
  dsimp only
  rw [if_neg (by omega)]
  dsimp only
  unfold DynamicConfig.rollback
  rw [if_pos hhistory]

theorem Kept.rolledBack (h : Kept world s) {steps : ℕ} (hregular : s.regular world (.rollback steps) = true) :
    ∃ done b', s.backend.rollback world steps = (done, b') ∧
      (∀ log, Kept world ⟨b', if done = true then s.trail.drop steps else s.trail, log⟩) ∧
      Rolled.Exact world ⟨steps, s.trail, s.backend, b', done⟩ := by
  have hrefused (hr : s.backend.rollback world steps = (false, s.backend)) :
      ∃ done b', s.backend.rollback world steps = (done, b') ∧
        (∀ log, Kept world ⟨b', if done = true then s.trail.drop steps else s.trail, log⟩) ∧
        Rolled.Exact world ⟨steps, s.trail, s.backend, b', done⟩ :=
    ⟨false, s.backend, hr, fun _ => ⟨h.inStep, h.clean, h.room, h.file⟩, rfl⟩
  cases steps with
  | zero => exact hrefused rfl
  | succ n =>
    unfold Timeline.regular at hregular
    dsimp only at hregular
    split at hregular
    · rename_i hfound
      obtain ⟨b', hr, hkept, hexact⟩ := h.rollback hfound hregular
      exact ⟨true, b', hr, hkept, hexact⟩
    · rename_i hfound
      exact hrefused (rollback_refused h hfound (of_decide_eq_true hregular))

theorem Kept.step (h : Kept world s ∧ RollbacksExact world s) (hstep : s.RegularStep world l s') :
    Kept world s' ∧ RollbacksExact world s' := by
  obtain ⟨hkept, hexact⟩ := h
  obtain ⟨hact, hregular⟩ := hstep
  unfold Timeline.Step Timeline.act at hact
  cases l with
  | commit next updates =>
    dsimp only at hact
    split at hact
    · rename_i hcommit
      obtain rfl := Option.some.inj hact
      exact ⟨hkept.commit hcommit hregular, hexact⟩
    · cases hact
  | restart environment config =>
    obtain rfl := Option.some.inj hact
    exact ⟨hkept.restart hregular, hexact⟩
  | rollback steps =>
    obtain ⟨done, b', hr, hnow, hone⟩ := hkept.rolledBack hregular
    dsimp only at hact
    rw [hr] at hact
    obtain rfl := Option.some.inj hact
    exact ⟨hnow _, List.forall_mem_cons.mpr ⟨hone, hexact⟩⟩

theorem Kept.start (world : World) (file : Option Json) (environment : List ProviderCredential)
    (config : Option RuntimeConfig) : Kept world (Timeline.start world file environment config) := by
  refine ⟨List.Forall₂.cons (Agree.refl _) List.Forall₂.nil, ?_, Nat.zero_le _, loadSettings_agree⟩
  exact fun _ h => absurd h List.not_mem_nil

end Runs

/-- In every run of commits, restarts and rollbacks that are regular, every rollback is exact. -/
theorem rollbacks_exact (world : World) (file : Option Json) (environment : List ProviderCredential)
    (config : Option RuntimeConfig) (hist : List Move) (s : Timeline)
    (hrun : Run (Timeline.RegularStep world) (Timeline.start world file environment config) hist s) :
    RollbacksExact world s := by
  have hstart : Kept world (Timeline.start world file environment config) ∧
      RollbacksExact world (Timeline.start world file environment config) :=
    ⟨Kept.start world file environment config, fun _ h => absurd h List.not_mem_nil⟩
  exact (hrun.invariant hstart fun _ _ _ h hstep => Kept.step h hstep).2

/-! ## More steps than snapshots -/

namespace Sample

/-- The commit of a patch of the settings. -/
def patched (patch : Json) : Move :=
  match Call.prepare plainWorld (.updateSettings patch) settings settings patch with
  | some (next, updates) => .commit next updates
  | none => .rollback 0

/-- A theme is set, and the settings are rolled back. -/
def oneBack : List Move := [patched (.obj [("system", .obj [("theme", .str "dark")])]), .rollback 1]

/-- A commit sets a model and a language, and is rolled back by two steps. -/
def twoBack : List Move :=
  [patched (.obj [("llm", .obj [("model", .str "m")]), ("asr", .obj [("language", .str "en")])]), .rollback 2]

def timeline : Timeline := Timeline.start plainWorld (some settings) [] none

def regularNext (s : Timeline) (l : Move) : Option Timeline :=
  if s.regular plainWorld l = true then s.act plainWorld l else none

theorem regularNext_step {s s' : Timeline} {l : Move} (h : regularNext s l = some s') : s.RegularStep plainWorld l s' := by
  unfold regularNext at h
  split at h
  · rename_i hregular
    exact ⟨h, hregular⟩
  · cases h

/-- Whether a rollback was done, by so many steps, that there are so many commits for. -/
def Rolled.done (r : Rolled) : Bool := r.rolledBack && decide (r.steps < r.trail.length)

theorem rollback_facts :
    (Run.exec regularNext timeline oneBack).any (fun s => s.log.any Rolled.done) = true ∧
    (Run.exec (fun s l => s.act plainWorld l) timeline twoBack).any
      (fun s => s.log.any fun r => r.rolledBack && !Rolled.done r) = true := by
  decide +kernel

end Sample

/-- A rollback by one step restores the theme. -/
theorem rollbacks_exact_once : ∃ hist s, Run (Timeline.RegularStep plainWorld) Sample.timeline hist s ∧
    (∃ r ∈ s.log, r.rolledBack = true) ∧ RollbacksExact plainWorld s := by
  obtain ⟨s, hs, hlog⟩ := Option.any_eq_true _ _ |>.mp Sample.rollback_facts.1
  obtain ⟨r, hr, hdone⟩ := List.any_eq_true.mp hlog
  have hregular := (Run.of_exec hs).mono fun _ _ _ => Sample.regularNext_step
  exact ⟨_, s, hregular, ⟨r, hr, (Bool.and_eq_true_iff.mp hdone).1⟩, rollbacks_exact plainWorld _ _ _ _ s hregular⟩

/-- A rollback by more steps than there are commits is done, by the record of dynamic changes. -/
theorem rollback_beyond_commits :
    ∃ hist s, Run (Timeline.Step plainWorld) Sample.timeline hist s ∧ ¬ RollbacksExact plainWorld s := by
  obtain ⟨s, hs, hlog⟩ := Option.any_eq_true _ _ |>.mp Sample.rollback_facts.2
  obtain ⟨r, hr, hdone⟩ := List.any_eq_true.mp hlog
  obtain ⟨hrolled, hshort⟩ := Bool.and_eq_true_iff.mp hdone
  refine ⟨_, s, Run.of_exec hs, fun h => ?_⟩
  have hexact := h r hr
  unfold Rolled.Exact at hexact
  rw [if_pos hrolled] at hexact
  obtain ⟨⟨settings, hsettings, -⟩, -⟩ := hexact
  have hlength := (List.getElem?_eq_some_iff.mp hsettings).1
  unfold Sample.Rolled.done at hshort
  rw [hrolled, Bool.true_and, decide_eq_true hlength] at hshort
  cases hshort

end Settings
