import Yuizaki.Lib.Run
import Yuizaki.Settings.Commit

/- Calls that change settings (`SettingsAPI.set_setting`, `update_settings`, `delete_setting` and
   `import_settings_payload`), one section at a time.

   A call reads the settings, works its changes into them, and queues for the commit. Other calls
   can commit in between, and the commit replaces the whole document by what was worked out before.
   So a change is kept in every run in which no call commits over settings that it has not read. -/
namespace Settings

open Transition

/-! ## Imports -/

def firstString (source : Json) (keys : List String) : Option Json :=
  keys.findSome? fun key => match source.get key with
    | .str text => some (.str text)
    | _ => none

def firstNumber (world : World) (source : Json) (keys : List String) : Option Json :=
  keys.findSome? fun key => match source.get key with
    | .bool b => some (.bool b)
    | .int n => some (.int n)
    | .num q => some (.num q)
    | .str text => if PyStr.strip text = "" then none else (world.float (.str (PyStr.strip text))).map .num
    | _ => none

def importedStrings : List (String × List String) :=
  [("provider", ["provider", "llmProvider", "providerPreset"]),
    ("base_url", ["base_url", "baseUrl", "api_url", "apiUrl", "server_url", "serverUrl", "endpoint"]),
    ("api_key", ["api_key", "apiKey", "key", "token", "secret"]),
    ("model", ["model", "model_name", "modelName", "chat_model", "chatModel"])]

def importedNumbers : List (String × List String) :=
  [("timeout", ["timeout", "request_timeout", "requestTimeout"]),
    ("context_max_tokens", ["context_max_tokens", "contextMaxTokens", "context_size", "contextSize", "max_context",
      "maxContext", "openai_max_context", "openaiMaxContext"]),
    ("default_max_output_tokens", ["default_max_output_tokens", "max_output_tokens", "maxOutputTokens", "max_tokens",
      "maxTokens", "openai_max_tokens", "openaiMaxTokens"]),
    ("temperature", ["temperature", "temp"]), ("top_p", ["top_p", "topP"]), ("top_k", ["top_k", "topK"]),
    ("min_p", ["min_p", "minP"]), ("frequency_penalty", ["frequency_penalty", "frequencyPenalty"]),
    ("presence_penalty", ["presence_penalty", "presencePenalty"]),
    ("repetition_penalty", ["repetition_penalty", "repetitionPenalty", "repeat_penalty", "repeatPenalty", "rep_penalty",
      "repPenalty"])]

def isObject : Json → Bool
  | .obj _ => true
  | _ => false

def normalizeInlineLlmImportPayload (world : World) (payload : Json) : Json :=
  if settingsSections.any (fun part => isObject (payload.get part.name)) = true then payload
  else
    let nested := ["connectionProfile", "profile", "preset", "api", "connection"].find? fun key => isObject (payload.get key)
    let source := match nested with
      | some key => (payload.get key).or payload
      | none => payload
    let texts := importedStrings.filterMap fun entry => (firstString source entry.2).map (entry.1, ·)
    let numbers := importedNumbers.filterMap fun entry => (firstNumber world source entry.2).map (entry.1, ·)
    if texts ++ numbers = [] then payload else .obj [("llm", .obj (texts ++ numbers))]

/-! ## Calls -/

inductive Call where
  | setSetting (key : String) (value : Json)
  | updateSettings (updates : Json)
  | deleteSetting (key : String)
  | importPayload (loaded : Json)
deriving DecidableEq

/-- What a call asks for: nothing, what is not there, or a patch. -/
inductive Asked where
  | unchanged
  | refused (status : ℕ) (detail : String)
  | patch (payload : Json)

def Call.asked (world : World) : Call → Asked
  | .setSetting key value =>
    if lastPart key ∈ secretFieldNames ∧ (value = .str settingsSecretMask ∨ value = .str "") then .unchanged
    else .patch (dropSecretPlaceholders (normalizeSetPayload key value))
  | .updateSettings updates => .patch (dropSecretPlaceholders updates)
  | .deleteSetting key =>
    match (validatePersistedSettings world (.obj [])).bind (valueFor (keyParts key)) with
    | some value => .patch (normalizeSetPayload key (if lastPart key ∈ secretFieldNames then .str "" else value))
    | none => .refused 404 s!"Setting {key} not found or cannot be reset"
  | .importPayload loaded =>
    match loaded with
    | .obj entries => .patch (dropSecretPlaceholders (normalizeInlineLlmImportPayload world (.obj entries)))
    | _ => .refused 422 "Settings import payload must be a JSON object"

/-- The settings and the updates that a call commits: its patch is merged into the settings as it
read them, and credentials are cleared by the settings as it read them last. -/
def Call.prepare (world : World) (call : Call) (base last patch : Json) : Option (Json × Json) :=
  let merged := clearChangedConnectionSecrets world last (mergeSettings base patch) patch
  (validatePersistedSettings world merged).bind fun next =>
    let updates := match call with
      | .importPayload _ => next
      | _ => patch
    (validatedRuntimeUpdates world updates).map fun updates => (next, updates)

/-! ## Sections -/

/-- A call that is not over: what it asks for, the settings when it read them first, and where it is. -/
inductive Pending where
  | merging (call : Call) (patch seen base : Json)
  | ready (patch seen next updates : Json)
deriving DecidableEq

structure Done where
  patch : Json
  seen : Json
  next : Json
deriving DecidableEq

/-- The backend, the calls that are not over, and those that have committed, newest first. -/
structure System where
  backend : Backend
  pending : List Pending
  log : List Done
deriving DecidableEq

inductive Event where
  | call (c : Call)
  | reread (n : ℕ)
  | commit (n : ℕ)
deriving DecidableEq

namespace System

variable (world : World) (s : System)

def goOn (part : Option Pending) : System := { s with pending := s.pending ++ part.toList }

/-- A call comes in; an import reads the settings once more before it commits. -/
def receive (c : Call) : System :=
  match c.asked world, validatePersistedSettings world s.backend.settings with
  | .patch patch, some base =>
    match c with
    | .importPayload _ => s.goOn (some (.merging c patch s.backend.settings base))
    | _ => s.goOn ((c.prepare world base base patch).map fun prepared => .ready patch s.backend.settings prepared.1 prepared.2)
  | _, _ => s

/-- A section of a call; a commit is one that reports success. -/
def act : Event → Option System
  | .call c => some (s.receive world c)
  | .reread n =>
    match s.pending[n]? with
    | some (.merging c patch seen base) =>
      let s' := { s with pending := s.pending.eraseIdx n }
      some (s'.goOn ((validatePersistedSettings world s.backend.settings).bind fun last =>
        (c.prepare world base last patch).map fun prepared => .ready patch seen prepared.1 prepared.2))
    | _ => none
  | .commit n =>
    match s.pending[n]? with
    | some (.ready patch seen next updates) =>
      match s.backend.commit world {} next updates with
      | (some _, backend) => some {
          backend
          pending := s.pending.eraseIdx n
          log := ⟨patch, seen, next⟩ :: s.log }
      | (none, _) => none
    | _ => none

def Step (s : System) (l : Event) (s' : System) : Prop := s.act world l = some s'

/-- A call commits over the settings that it has read. -/
def fresh : Event → Bool
  | .commit n =>
    match s.pending[n]? with
    | some (.ready _ seen _ _) => decide (s.backend.settings = seen)
    | _ => true
  | _ => true

/-- A step in which a call commits over the settings that it has read, if it commits. -/
def FreshStep (s : System) (l : Event) (s' : System) : Prop := s.Step world l s' ∧ s.fresh l = true

def start (backend : Backend) : System := ⟨backend, [], []⟩

end System

/-! ## Statements -/

/-- A call touches the settings that it names, and those that its commit changes. -/
def Done.touches (d : Done) (path : List String) : Prop := leafAt path d.patch ≠ none ∨ leafAt path d.next ≠ leafAt path d.seen

instance (d : Done) (path : List String) : Decidable (d.touches path) := inferInstanceAs (Decidable (_ ∨ _))

def Done.Apart (d d' : Done) : Prop := ∀ path, d.touches path → ¬ d'.touches path

/-- Every change of a call that has committed is there, in memory and, without credentials, in the file. -/
def ChangesKept (s : System) : Prop :=
  ∀ d ∈ s.log, ∀ path, d.touches path → leafAt path s.backend.settings = leafAt path d.next ∧
    (PlainPath path → s.backend.file.bind (leafAt path) = (leafAt path d.next).map scrubSensitiveSettings)

/-! ## Commits that succeed -/

section Commits

variable {world : World} {b b' : Backend} {faults : Faults} {next updates : Json} {changed : List String}

theorem applyUpdates_settings {previous : Json} (h : b.applyUpdates world faults previous updates = (some changed, b')) :
    b'.settings = b.settings ∧ b'.file = b.file ∧ b'.snapshots = b.snapshots := by
  unfold Backend.applyUpdates at h
  dsimp only at h
  split at h
  · cases h
  · split at h
    · obtain ⟨-, rfl⟩ := Prod.mk.inj h
      exact ⟨rfl, rfl, rfl⟩
    · cases h

theorem commit_settings (h : b.commit world faults next updates = (some changed, b')) :
    b'.settings = next ∧ b'.file = some (scrubSensitiveSettings next) := by
  unfold Backend.commit at h
  cases hprevious : validatePersistedSettings world b.settings with
  | none =>
    rw [hprevious] at h
    cases h
  | some previous =>
    rw [hprevious] at h
    dsimp only at h
    split at h
    · cases h
    · split at h
      · cases h
      · obtain ⟨hsettings, hfile, -⟩ := applyUpdates_settings h
        exact ⟨hsettings, hfile⟩

end Commits

/-! ## Runs -/

section Runs

variable {world : World} {s s' : System} {l : Event}

theorem step_cases (h : s.Step world l s') :
    (s'.backend = s.backend ∧ s'.log = s.log) ∨
      ∃ n patch seen next updates, l = .commit n ∧ s.pending[n]? = some (.ready patch seen next updates) ∧
        s'.backend.settings = next ∧ s'.backend.file = some (scrubSensitiveSettings next) ∧
          s'.log = ⟨patch, seen, next⟩ :: s.log := by
  unfold System.Step at h
  cases l with
  | call c =>
    obtain rfl := Option.some.inj h
    left
    unfold System.receive
    split
    · split
      · exact ⟨rfl, rfl⟩
      · exact ⟨rfl, rfl⟩
    · exact ⟨rfl, rfl⟩
  | reread n =>
    unfold System.act at h
    dsimp only at h
    split at h
    · obtain rfl := Option.some.inj h
      exact Or.inl ⟨rfl, rfl⟩
    · cases h
  | commit n =>
    unfold System.act at h
    dsimp only at h
    split at h
    · rename_i patch seen next updates hn
      split at h
      · rename_i changed backend hcommit
        obtain rfl := Option.some.inj h
        obtain ⟨hsettings, hfile⟩ := commit_settings hcommit
        exact Or.inr ⟨n, patch, seen, next, updates, rfl, hn, hsettings, hfile, rfl⟩
      · cases h
    · cases h

/-- The settings are as the last call that touched them left them. -/
def LastTouch (s : System) : Prop :=
  ∀ newer d older, s.log = newer ++ d :: older → ∀ path, d.touches path → (∀ d' ∈ newer, ¬ d'.touches path) →
    leafAt path s.backend.settings = leafAt path d.next

/-- The file is that of the settings, once a call has committed. -/
def Written (s : System) : Prop := s.log ≠ [] → s.backend.file = some (scrubSensitiveSettings s.backend.settings)

theorem LastTouch.step (h : LastTouch s) (hstep : s.FreshStep world l s') : LastTouch s' := by
  obtain ⟨hstep, hfresh⟩ := hstep
  obtain ⟨hbackend, hlog⟩ | ⟨n, patch, seen, next, updates, rfl, hn, hsettings, -, hlog⟩ := step_cases hstep
  · unfold LastTouch
    rw [hbackend, hlog]
    exact h
  · have hseen : s.backend.settings = seen := by
      unfold System.fresh at hfresh
      dsimp only at hfresh
      rw [hn] at hfresh
      exact of_decide_eq_true hfresh
    intro newer d older hsplit path htouch hnewer
    rw [hlog] at hsplit
    rw [hsettings]
    cases newer with
    | nil =>
      obtain ⟨rfl, -⟩ := List.cons.inj hsplit
      rfl
    | cons first rest =>
      obtain ⟨rfl, hrest⟩ := List.cons.inj hsplit
      -- what the new call does not touch is as it read it
      have hkept : leafAt path next = leafAt path seen := by
        by_contra hne
        exact hnewer _ List.mem_cons_self (Or.inr hne)
      rw [hkept, ← hseen]
      exact h rest d older hrest path htouch fun d' hd' => hnewer d' (List.mem_cons_of_mem _ hd')

theorem Written.step (h : Written s) (hstep : s.Step world l s') : Written s' := by
  obtain ⟨hbackend, hlog⟩ | ⟨n, patch, seen, next, updates, rfl, hn, hsettings, hfile, hlog⟩ := step_cases hstep
  · unfold Written
    rw [hbackend, hlog]
    exact h
  · intro _
    rw [hfile, hsettings]

end Runs

/-- In every run in which no call commits over settings that it has not read, the changes of calls that
touch different settings are all kept. -/
theorem no_lost_update (world : World) (backend : Backend) (hist : List Event) (s : System)
    (hrun : Run (System.FreshStep world) (System.start backend) hist s) (hapart : s.log.Pairwise Done.Apart) :
    ChangesKept s := by
  have htouch : LastTouch s := hrun.invariant
    (fun newer d older hlog => by cases newer with | nil => cases hlog | cons => cases hlog)
    fun _ _ _ h hstep => h.step hstep
  have hwritten : Written s := hrun.invariant (fun hlog => absurd rfl hlog) fun _ _ _ h hstep => h.step hstep.1
  intro d hd path hpath
  obtain ⟨newer, older, hlog⟩ := List.append_of_mem hd
  rw [hlog] at hapart
  have hnewer : ∀ d' ∈ newer, ¬ d'.touches path := fun d' hd' htouches =>
    (List.pairwise_append.mp hapart).2.2 d' hd' d List.mem_cons_self path htouches hpath
  have hsettings := htouch newer d older hlog path hpath hnewer
  refine ⟨hsettings, fun hplain => ?_⟩
  rw [hwritten (List.ne_nil_of_mem hd), Option.bind_some, leafAt_scrub hplain, hsettings]

/-! ## Two calls that read the same settings -/

mutual

def leafPaths : Json → List (List String)
  | .obj entries => leafPathsOf entries
  | _ => [[]]

/-- The paths of all settings below the entries. -/
def leafPathsOf : List (String × Json) → List (List String)
  | [] => []
  | (key, child) :: rest => (leafPaths child).map (key :: ·) ++ leafPathsOf rest

end

theorem leafPathsOf_mem {entries : List (String × Json)} {key : String} {child : Json} {path : List String}
    (hchild : entries.lookup key = some child) (hpath : path ∈ leafPaths child) : key :: path ∈ leafPathsOf entries := by
  induction entries with
  | nil => cases hchild
  | cons entry rest ih =>
    obtain ⟨other, value⟩ := entry
    rw [Json.lookup_cons_if] at hchild
    rw [leafPathsOf, List.mem_append]
    split at hchild
    · rename_i heq
      obtain rfl := Option.some.inj hchild
      exact Or.inl (heq ▸ List.mem_map_of_mem hpath)
    · exact Or.inr (ih hchild)

theorem mem_leafPaths {path : List String} {document : Json} (h : leafAt path document ≠ none) :
    path ∈ leafPaths document := by
  induction path generalizing document with
  | nil =>
    cases document with
    | obj entries => exact absurd rfl h
    | arr | null | bool | int | num | str => exact List.mem_cons_self
  | cons part rest ih =>
    cases document with
    | obj entries =>
      unfold leafAt at h
      cases hchild : entries.lookup part with
      | none =>
        rw [hchild] at h
        exact absurd rfl h
      | some child =>
        rw [hchild] at h
        exact leafPathsOf_mem hchild (ih h)
    | arr | null | bool | int | num | str => exact absurd rfl h

def Done.paths (d : Done) : List (List String) := leafPaths d.patch ++ leafPaths d.next ++ leafPaths d.seen

theorem Done.mem_paths {d : Done} {path : List String} (h : d.touches path) : path ∈ d.paths := by
  unfold Done.paths
  rw [List.mem_append, List.mem_append]
  obtain hpatch | hchange := h
  · exact Or.inl (Or.inl (mem_leafPaths hpatch))
  · by_cases hnext : leafAt path d.next = none
    · refine Or.inr (mem_leafPaths fun hseen => hchange ?_)
      rw [hnext, hseen]
    · exact Or.inl (Or.inr (mem_leafPaths hnext))

theorem Done.apart_of_paths {d d' : Done} (h : ∀ path ∈ d.paths, d.touches path → ¬ d'.touches path) : d.Apart d' :=
  fun path hpath => h path (Done.mem_paths hpath) hpath

namespace Sample

/-- The settings of a plain environment. -/
def settings : Json := (validatePersistedSettings plainWorld (.obj [])).getD .null

def backend : Backend := ⟨settings, some (scrubSensitiveSettings settings), [], ⟨[], []⟩, none⟩

/-- A theme and a language are set, by calls that come in before either commits. -/
def crossed : List Event :=
  [.call (.setSetting "system.theme" (.str "dark")), .call (.setSetting "system.language" (.str "en")), .commit 0, .commit 0]

def turns : List Event :=
  [.call (.setSetting "system.theme" (.str "dark")), .commit 0, .call (.setSetting "system.language" (.str "en")), .commit 0]

def freshNext (s : System) (l : Event) : Option System := if s.fresh l = true then s.act plainWorld l else none

theorem freshNext_step {s s' : System} {l : Event} (h : freshNext s l = some s') : s.FreshStep plainWorld l s' := by
  unfold freshNext at h
  split at h
  · rename_i hfresh
    exact ⟨h, hfresh⟩
  · cases h

/-- Whether the calls that have committed touch different settings. -/
def apart (s : System) : Bool := decide (s.log.Pairwise fun d d' => ∀ path ∈ d.paths, d.touches path → ¬ d'.touches path)

theorem pairwise_of_apart {s : System} (h : apart s = true) : s.log.Pairwise Done.Apart :=
  (of_decide_eq_true h).imp Done.apart_of_paths

/-- Whether a setting that a call touches is not as the call left it. -/
def gone (path : List String) (s : System) : Bool :=
  decide (∃ d ∈ s.log, d.touches path ∧ leafAt path s.backend.settings ≠ leafAt path d.next)

theorem facts : (validatePersistedSettings plainWorld settings = some settings ∧
    scrubSensitiveSettings settings = settings) ∧
    (Run.exec freshNext (System.start backend) turns).any (fun s => decide (s.log.length = 2) && apart s) = true ∧
    (Run.exec (fun s l => s.act plainWorld l) (System.start backend) crossed).any
      (fun s => decide (s.pending = []) && (apart s && gone ["system", "theme"] s)) = true := by
  decide +kernel

theorem settings_stable : validatePersistedSettings plainWorld settings = some settings ∧
    scrubSensitiveSettings settings = settings := facts.1

end Sample

/-- Both changes are kept where the calls take turns. -/
theorem no_lost_update_in_turn : ∃ hist s, Run (System.FreshStep plainWorld) (System.start Sample.backend) hist s ∧
    s.log.length = 2 ∧ ChangesKept s := by
  obtain ⟨s, hs, hfacts⟩ := Option.any_eq_true _ _ |>.mp Sample.facts.2.1
  obtain ⟨hlength, hapart⟩ := Bool.and_eq_true_iff.mp hfacts
  have hfresh := (Run.of_exec hs).mono fun _ _ _ => Sample.freshNext_step
  exact ⟨_, s, hfresh, of_decide_eq_true hlength,
    no_lost_update plainWorld Sample.backend _ s hfresh (Sample.pairwise_of_apart hapart)⟩

/-- Both calls report success, and the theme is lost. -/
theorem theme_lost :
    ∃ hist s, Run (System.Step plainWorld) (System.start Sample.backend) hist s ∧ s.pending = [] ∧
      s.log.Pairwise Done.Apart ∧ ¬ ChangesKept s := by
  obtain ⟨s, hs, hfacts⟩ := Option.any_eq_true _ _ |>.mp Sample.facts.2.2
  obtain ⟨hpending, hfacts⟩ := Bool.and_eq_true_iff.mp hfacts
  obtain ⟨hapart, hgone⟩ := Bool.and_eq_true_iff.mp hfacts
  obtain ⟨d, hd, htouch, hne⟩ := of_decide_eq_true hgone
  exact ⟨_, s, Run.of_exec hs, of_decide_eq_true hpending, Sample.pairwise_of_apart hapart,
    fun h => hne (h d hd ["system", "theme"] htouch).1⟩

end Settings
