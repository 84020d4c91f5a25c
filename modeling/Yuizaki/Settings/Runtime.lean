import Yuizaki.Lib.Dict
import Yuizaki.Settings.Schema

/- The live configuration (`modules/system/runtime_config.py`), and what settings change of it
   (`modules/system/settings_api.py`).

   An application of updates is a list of assignments to fields, made one after another. Where a
   conversion raises, the fields before it are assigned already. -/
namespace Settings

/-- `RuntimeConfig`: the fields of its sections. -/
abbrev RuntimeConfig := Dict (String × String) Json

/-- `config.part.field`. -/
def RuntimeConfig.value (config : RuntimeConfig) (part field : String) : Json := (config.get (part, field)).getD .null

def RuntimeConfig.text (config : RuntimeConfig) (part field : String) : String := textOf (config.value part field)

/-- An assignment to a field of a section, or a conversion that raises. -/
abbrev Assignment := (String × String) × Option Json

/-! ## Conversions -/

def toInt (world : World) : Json → Option Json
  | .int n => some (.int n)
  | .str text => (world.int (.str text)).map .int
  | _ => none

def toFloat (world : World) : Json → Option Json
  | .int n => some (.num n)
  | .num q => some (.num q)
  | .str text => (world.float (.str text)).map .num
  | _ => none

/-- What an update assigns: nothing, a value, or it raises. -/
abbrev Conversion := World → Json → Option (Option Json)

def asText (f : World → String → String) : Conversion := fun world value => some (some (.str (f world (world.toStr value))))

def asStr : Conversion := asText fun _ text => text

/-- `str(value).strip()`. -/
def asStripped : Conversion := asText fun _ text => PyStr.strip text

/-- `str(value).strip() or fallback`. -/
def asStrippedOr (fallback : String) : Conversion := asText fun _ text => textOr (PyStr.strip text) fallback

/-- `str(value).strip().lower() or fallback`. -/
def asLowerOr (fallback : String) : Conversion := asText fun world text => textOr (stripLower world text) fallback

def asNumber (f : ℚ → ℚ) : Conversion := fun world value =>
  (toFloat world value).map fun value => match value with
    | .num q => some (.num (f q))
    | other => some other

def asInteger (f : ℤ → ℤ) : Conversion := fun world value =>
  (toInt world value).map fun value => match value with
    | .int n => some (.int (f n))
    | other => some other

/-- `bool(value)`. -/
def asFlag : Conversion := fun _ value => some (some (.bool value.truthy))

def asOption (options : List String) (fallback : String) : Conversion :=
  asText fun world text => optionOr options fallback (stripLower world text)

/-- The assignment of a field that the updates give. -/
def assignment (world : World) (part : String) (updates : Json) (entry : String × Conversion) : List Assignment :=
  if updates.get entry.1 = .null then []
  else match entry.2 world (updates.get entry.1) with
    | none => [((part, entry.1), none)]
    | some none => []
    | some (some value) => [((part, entry.1), some value)]

/-! ## Credentials -/

def secretMask : String := "********"

def credentialUpdate (world : World) (current : String) (updates : Json) (field : String) (connectionChanged : Bool)
    (clearEmptyCredentials : Bool) : Option String :=
  if updates.get field = .null then if connectionChanged = true then some "" else none
  else
    let value := world.toStr (updates.get field)
    if value = "" ∧ clearEmptyCredentials = true then some ""
    else if value ∈ ["", secretMask] then some (if connectionChanged = true then "" else current)
    else some value

/-- A connection to a language model: its provider, and its base URL. -/
abbrev Connection := String × String

/-- The connection that the configuration has. -/
def liveConnection (world : World) (config : RuntimeConfig) (provider baseUrl : String) : Connection :=
  let url := normalizeLlmBaseUrl world.lower (config.text "llm" baseUrl) (config.text "llm" provider)
  (normalizeLlmProvider world.lower (config.text "llm" provider) url, url)

def nextConnection (world : World) (config : RuntimeConfig) (updates : Json) (provider baseUrl : String) : Connection :=
  let given := if (updates.get provider).truthy = true then world.toStr (updates.get provider) else config.text "llm" provider
  let base := if updates.get baseUrl = .null then config.text "llm" baseUrl else world.toStr (updates.get baseUrl)
  let next := normalizeLlmProvider world.lower given base
  (next, normalizeLlmBaseUrl world.lower base next)

/-- A connection's credential after updates, if they change it. -/
def nextCredential (world : World) (config : RuntimeConfig) (updates : Json) (provider baseUrl credential : String)
    (clearEmptyCredentials : Bool) : Option String :=
  credentialUpdate world (config.text "llm" credential) updates credential
    (decide (nextConnection world config updates provider baseUrl ≠ liveConnection world config provider baseUrl))
    clearEmptyCredentials

/-- A field that takes a value where the updates give one. -/
def assignWhenGiven (updates : Json) (field : String) (value : String) : List Assignment :=
  if updates.get field = .null then [] else [(("llm", field), some (.str value))]

def assignCredential (credential : String) : Option String → List Assignment
  | some key => [(("llm", credential), some (.str key))]
  | none => []

/-! ## Sections -/

/-- The fields of language models that are converted one by one. -/
def llmConversions : List (String × Conversion) :=
  [("model", asStr), ("timeout", asNumber id), ("context_max_tokens", asInteger id), ("default_max_output_tokens", asInteger id),
    ("temperature", asNumber id), ("top_p", asNumber id), ("top_k", asInteger id), ("min_p", asNumber id),
    ("frequency_penalty", asNumber id), ("presence_penalty", asNumber id), ("repetition_penalty", asNumber id)]

/-- The fields of vision models that are converted one by one. -/
def visionConversions : List (String × Conversion) :=
  [("vision_model", asStripped), ("vision_timeout", asNumber id),
    ("vision_detail", asOption ["low", "high", "auto", "original"] "low")]

/-- What updates assign to the fields of language models. -/
def llmAssignments (world : World) (config : RuntimeConfig) (updates : Json) (clearEmptyCredentials : Bool) :
    List Assignment :=
  let next := nextConnection world config updates "provider" "base_url"
  let nextVision := nextConnection world config updates "vision_provider" "vision_base_url"
  assignWhenGiven updates "provider" next.1 ++ assignWhenGiven updates "base_url" next.2 ++
    assignCredential "api_key"
      (nextCredential world config updates "provider" "base_url" "api_key" clearEmptyCredentials) ++
    llmConversions.flatMap (assignment world "llm" updates) ++
    assignment world "llm" updates ("vision_enabled", asFlag) ++
    assignWhenGiven updates "vision_provider" nextVision.1 ++ assignWhenGiven updates "vision_base_url" nextVision.2 ++
    assignCredential "vision_api_key"
      (nextCredential world config updates "vision_provider" "vision_base_url" "vision_api_key" clearEmptyCredentials) ++
    visionConversions.flatMap (assignment world "llm" updates)

def legacyBuiltinGenieModelDir : String := "CharacterModels/v2ProPlus/普拉琪娜_e15_e8_correct_sampling_v2"

def normalizeGenieModelDir (value : String) : String :=
  let normalized := PyStr.replaceChar '\\' '/' (PyStr.strip value)
  if normalized = legacyBuiltinGenieModelDir then "" else normalized

/-- A provider of speech: another one is not assigned. -/
def asTtsProvider : Conversion := fun world value =>
  let provider := stripLower world (world.toStr value)
  some (if provider ∈ ["genie-tts", "openai-compatible"] then some (.str provider) else none)

def ttsConversions : List (String × Conversion) :=
  [("genie_character", asStripped), ("genie_model_dir", asText fun _ => normalizeGenieModelDir), ("ref_audio", asStr),
    ("ref_text", asStr), ("device", asLowerOr "cpu"), ("quality", asStrippedOr "质量优先"), ("split", asStrippedOr "智能切分"),
    ("mode", asStrippedOr "串行推理"), ("save_mode", asStrippedOr "禁用自动保存"), ("lang", asStr), ("provider", asTtsProvider),
    ("base_url", asStripped), ("api_key", asStripped), ("model", asStripped), ("voice", asStripped),
    ("timeout", asNumber fun q => max 1 q)]

def asrConversions : List (String × Conversion) :=
  [("provider", asLowerOr "sherpa-onnx"), ("base_url", asText fun _ => PyStr.rstripOf "/"), ("api_key", asStr),
    ("timeout", asNumber id), ("sensevoice_model", asStrippedOr "iic/SenseVoiceSmall"), ("sensevoice_device", asLowerOr "cpu"),
    ("sherpa_model_path", asStripped), ("sherpa_tokens_path", asStripped), ("sherpa_num_threads", asInteger fun n => max 1 n),
    ("sherpa_provider", asLowerOr "cpu"), ("language", asStr),
    ("vad_threshold", asNumber fun q => max (1 / 10) (min (9 / 10) q)),
    ("vad_min_silence_ms", asInteger fun n => max 160 (min 1200 n)), ("asr_partial_every", asInteger fun n => max 1 (min 30 n))]

def svcConversions : List (String × Conversion) :=
  [("provider", asLowerOr "soulx-service"), ("base_url", asText fun _ text => PyStr.rstripOf "/" (PyStr.strip text)),
    ("speaker_id", asInteger fun n => max 0 n), ("pitch", asInteger fun n => max (-36) (min 36 n)),
    ("timeout", asNumber fun q => max 1 q)]

def summaryConversions : List (String × Conversion) :=
  [("trigger_messages", asInteger id), ("keep_recent_messages", asInteger id), ("item_max_chars", asInteger id),
    ("rewrite_interval_messages", asInteger id), ("quality_scorer_mode", asOption ["rule", "llm"] "rule"),
    ("quality_score_cooldown_seconds", asInteger id), ("quality_score_budget_per_hour", asInteger id)]

def memoryConversions : List (String × Conversion) :=
  [("backend", asText stripLower), ("sqlite_path", asStripped), ("qdrant_url", asText fun _ => PyStr.rstripOf "/"),
    ("qdrant_api_key", asStripped), ("qdrant_collection", asStrippedOr "memories"), ("qdrant_timeout", asNumber id),
    ("qdrant_auto_start", asFlag), ("qdrant_docker_image", asStrippedOr defaultQdrantDockerImage),
    ("qdrant_docker_container", asStrippedOr defaultQdrantDockerContainer),
    ("qdrant_docker_volume", asStrippedOr defaultQdrantDockerVolume),
    ("embedding_model", asStrippedOr "Qwen/Qwen3-Embedding-0.6B"), ("reranker_enabled", asFlag),
    ("reranker_model", asStrippedOr "BAAI/bge-reranker-v2-m3"),
    ("reranker_candidate_count", asInteger fun n => max 5 (min 100 n))]

/-- The assignments of a section whose fields are converted one by one. -/
def partAssignments (world : World) (updates : Json) (part : String) (conversions : List (String × Conversion)) :
    List Assignment :=
  match updates.get part with
  | .obj fields => conversions.flatMap (assignment world part (.obj fields))
  | _ => []

/-- What `apply_runtime_config` assigns, in order. -/
def runtimeAssignments (world : World) (config : RuntimeConfig) (updates : Json) (clearEmptyCredentials : Bool) :
    List Assignment :=
  (match updates.get "llm" with
    | .obj fields => llmAssignments world config (.obj fields) clearEmptyCredentials
    | _ => []) ++
    partAssignments world updates "tts" ttsConversions ++ partAssignments world updates "asr" asrConversions ++
    partAssignments world updates "svc" svcConversions ++ partAssignments world updates "summary" summaryConversions ++
    partAssignments world updates "memory" memoryConversions

/-- The assignments are made in turn, until one raises; whether none did. -/
def assign : List Assignment → RuntimeConfig → RuntimeConfig × Bool
  | [], config => (config, true)
  | (_, none) :: _, config => (config, false)
  | (field, some value) :: rest, config => assign rest (config.set field value)

/-- `apply_runtime_config`: the configuration then, and whether it did not raise. -/
def applyRuntimeConfig (world : World) (config : RuntimeConfig) (updates : Json) (clearEmptyCredentials : Bool) :
    RuntimeConfig × Bool :=
  assign (runtimeAssignments world config updates clearEmptyCredentials) config

/-! ## What changes -/

/-- The fields of a section that changed; an empty credential counts as a change. -/
def changedFields (current updates : List (String × Json)) : List (String × Json) :=
  updates.filter fun entry =>
    (match current.lookup entry.1 with
      | some value => !Json.same value entry.2
      | none => true) ||
      decide (entry.1 ∈ secretFieldNames ∧ entry.2 = .str "")

/-- A key goes along where its connection changed. -/
def keepSuppliedKey (updates changed : List (String × Json)) (provider baseUrl credential : String) : List (String × Json) :=
  match updates.lookup credential with
  | some key =>
    if (changed.lookup provider).isSome = true ∨ (changed.lookup baseUrl).isSome = true then
      Json.setEntry changed credential key
    else changed
  | none => changed

/-- `_changed_runtime_updates`, for a section. -/
def changedSection (currentSettings : Json) (part : String) (updates : Json) : Option Json :=
  match currentSettings.get part, updates with
  | .obj current, .obj updates =>
    let changed := changedFields current updates
    let changed := if part = "llm" then
      keepSuppliedKey updates (keepSuppliedKey updates changed "provider" "base_url" "api_key")
        "vision_provider" "vision_base_url" "vision_api_key"
      else changed
    if changed = [] then none else some (.obj changed)
  | current, updates => if Json.same current updates = true then none else some updates

def changedRuntimeUpdates (currentSettings runtimeUpdates : Json) : Json :=
  match runtimeUpdates with
  | .obj entries => .obj (entries.filterMap fun entry => (changedSection currentSettings entry.1 entry.2).map (entry.1, ·))
  | _ => .obj []

/-- The connection of a settings document, with the provider that stands for one that is not there. -/
def settingsConnection (world : World) (llm : Json) (fallback provider baseUrl : String) : Connection :=
  let url := world.toStr ((if llm.hasKey baseUrl = true then llm.get baseUrl else .str ""))
  let given := if llm.hasKey provider = true then llm.get provider else .str fallback
  let name := normalizeLlmProvider world.lower (if given.truthy = true then world.toStr given else "") url
  (name, normalizeLlmBaseUrl world.lower url name)

/-- A credential of a candidate is cleared where its connection changed and the patch gives no new one. -/
def clearChangedSecret (world : World) (current patch candidate : List (String × Json)) (provider baseUrl credential : String) :
    List (String × Json) :=
  let old := settingsConnection world (.obj current) "custom" provider baseUrl
  let new := settingsConnection world (.obj candidate) old.1 provider baseUrl
  if old ≠ new ∧ (patch.lookup credential).isSome = false then Json.setEntry candidate credential (.str "") else candidate

def clearChangedConnectionSecrets (world : World) (current candidate patch : Json) : Json :=
  match current.get "llm", candidate, candidate.get "llm", (if patch.hasKey "llm" = true then patch.get "llm" else .obj []) with
  | .obj old, .obj entries, .obj new, .obj given =>
    let llm := clearChangedSecret world old given new "provider" "base_url" "api_key"
    .obj (Json.setEntry entries "llm" (.obj
      (clearChangedSecret world old given llm "vision_provider" "vision_base_url" "vision_api_key")))
  | _, candidate, _, _ => candidate

end Settings
