import Yuizaki.Settings.Document
import Yuizaki.Settings.Providers
import Mathlib.Algebra.Order.Ring.Unbundled.Rat

/- The schema of settings (`modules/system/settings_schema.py`).

   A document is validated a section at a time: every field is read or takes its default, no other
   field is there, and what depends on several fields is put right at the end. A patch is
   validated by the same fields, all of which may be left out. -/
namespace Settings

/-- What the code takes from outside: the configuration of the environment, Python's and
pydantic's conversions of numbers, and tables for text and URLs. -/
structure World where
  lower : String → String
  env : Json
  str : Json → String
  float : Json → Option ℚ
  int : Json → Option ℤ
  readInt : Json → Option ℤ
  readFloat : Json → Option ℚ
  readBool : Json → Option Bool
  urlsplit : String → Option (String × String)

def textOf : Json → String
  | .str text => text
  | _ => ""

/-- `str(value)`. -/
def World.toStr (world : World) : Json → String
  | .str text => text
  | value => world.str value

/-- A value of the environment's configuration. -/
def World.envValue (world : World) (part field : String) : Json := (world.env.get part).get field

/-- A text of the environment's configuration. -/
def World.envText (world : World) (part field : String) : String := textOf (world.envValue part field)

/-! ## Fields -/

/-- A field of a model: its name, how a value is read, and its default. -/
structure Field where
  name : String
  read : World → Json → Option Json
  default : World → Json

/-- A field of a section, whose default is that of the environment. -/
def field (part : String) (read : World → Json → Option Json) (name : String) : Field where
  name
  read
  default world := world.envValue part name

def Field.withDefault (f : Field) (value : World → Json) : Field := { f with default := value }

/-- The same field of a patch, where it may be none. -/
def Field.optional (f : Field) : Field where
  name := f.name
  read world value := if value = .null then some .null else f.read world value
  default _ := .null

/-- `str`. -/
def readText (_ : World) : Json → Option Json
  | .str text => some (.str text)
  | _ => none

/-- `float`, with what must hold of it. -/
def readNumber (p : ℚ → Bool) (world : World) (value : Json) : Option Json :=
  (world.readFloat value).bind fun q => if p q = true then some (.num q) else none

/-- `int`, with what must hold of it. -/
def readInteger (p : ℤ → Bool) (world : World) (value : Json) : Option Json :=
  (world.readInt value).bind fun n => if p n = true then some (.int n) else none

/-- `bool`. -/
def readFlag (world : World) (value : Json) : Option Json := (world.readBool value).map .bool

/-- `Literal[...]`. -/
def readLiteral (options : List String) (_ : World) : Json → Option Json
  | .str text => if text ∈ options then some (.str text) else none
  | _ => none

def optionOr (options : List String) (fallback text : String) : String := if text ∈ options then text else fallback

/-- A literal whose default is that of the environment, if it is one of the options. -/
def literalField (part : String) (options : List String) (fallback : String) (clean : World → String → String)
    (name : String) : Field :=
  (field part (readLiteral options) name).withDefault fun world =>
    .str (optionOr options fallback (clean world (world.envText part name)))

/-- `value.strip().lower()`. -/
def stripLower (world : World) (text : String) : String := PyStr.lower world.lower (PyStr.strip text)

/-- `text or fallback`. -/
def textOr (text fallback : String) : String := if text = "" then fallback else text

/-! ## Models -/

/-- The fields of a model, read in turn. -/
def readFields (world : World) (entries : List (String × Json)) : List Field → Option (List (String × Json))
  | [] => some []
  | f :: rest =>
    let value := match entries.lookup f.name with
      | some raw => f.read world raw
      | none => some (f.default world)
    value.bind fun value => (readFields world entries rest).map fun others => (f.name, value) :: others

/-- `model_validate` and `model_dump` of a model that forbids other fields. -/
def validateModel (world : World) (fields : List Field)
    (finish : World → List (String × Json) → List (String × Json)) (value : Json) : Option Json :=
  match value with
  | .obj entries =>
    if entries.all (fun entry => fields.any fun f => decide (f.name = entry.1)) = true then
      (readFields world entries fields).map fun values => .obj (finish world values)
    else none
  | _ => none

mutual

/-- `exclude_none`: in a model whose defaults are none, this is `exclude_unset` as well. -/
def excludeNone : Json → Json
  | .obj entries => .obj (excludeNoneEntries entries)
  | value => value

def excludeNoneEntries : List (String × Json) → List (String × Json)
  | [] => []
  | (key, child) :: rest =>
    if child = .null then excludeNoneEntries rest else (key, excludeNone child) :: excludeNoneEntries rest

end

/-! ## Language models -/

/-- `normalize_llm_provider` of a value that is given. -/
def readProvider (world : World) (value : Json) : Option Json :=
  some (.str (normalizeLlmProvider world.lower (if value.truthy = true then world.toStr value else "") ""))

def llmNumbers (part : String) : List Field :=
  [field part (readNumber fun _ => true) "timeout",
    field part (readInteger fun _ => true) "context_max_tokens",
    field part (readInteger fun _ => true) "default_max_output_tokens",
    field part (readNumber fun _ => true) "temperature",
    field part (readNumber fun _ => true) "top_p",
    field part (readInteger fun _ => true) "top_k",
    field part (readNumber fun _ => true) "min_p",
    field part (readNumber fun _ => true) "frequency_penalty",
    field part (readNumber fun _ => true) "presence_penalty",
    field part (readNumber fun _ => true) "repetition_penalty"]

/-- The provider and the base URL of a connection, normalized together, and the key of one that
needs none. -/
def finishConnection (provider baseUrl credential : String) (world : World) (model : List (String × Json)) :
    List (String × Json) :=
  let model := match model.lookup provider with
    | some (.str text) => Json.setEntry model provider
      (.str (normalizeLlmProvider world.lower text (textOf ((model.lookup baseUrl).getD .null))))
    | _ => model
  let model := match model.lookup baseUrl with
    | some (.str text) => Json.setEntry model baseUrl
      (.str (normalizeLlmBaseUrl world.lower text (textOr (textOf ((model.lookup provider).getD .null)) "custom")))
    | _ => model
  if textOf ((model.lookup provider).getD .null) ∈ keylessLlmProviders then Json.setEntry model credential (.str "")
  else model

/-- `LLMProviderProfileModel`. -/
def profileFields : List Field :=
  ([field "llm" readProvider "provider", field "llm" readText "base_url", field "llm" readText "api_key",
    field "llm" readText "model"] ++ llmNumbers "llm").map Field.optional

/-- The profiles, each of them validated. -/
def readProfileEntries (world : World) : List (String × Json) → Option (List (String × Json))
  | [] => some []
  | (key, value) :: rest =>
    (validateModel world profileFields (finishConnection "provider" "base_url" "api_key") value).bind fun profile =>
      (readProfileEntries world rest).map fun others => (key, profile) :: others

/-- `dict[str, LLMProviderProfileModel]`. -/
def readProfiles (world : World) : Json → Option Json
  | .obj entries => (readProfileEntries world entries).map .obj
  | _ => none

def normalizedProfile (world : World) (profileKey : String) (profile : List (String × Json)) : List (String × Json) :=
  let profile := if profile.lookup "provider" = some .null then Json.setEntry profile "provider" (.str profileKey) else profile
  let url := normalizeLlmBaseUrl world.lower "" profileKey
  let profile := if profile.lookup "base_url" = some .null then
    Json.setEntry profile "base_url" (if url = "" then .null else .str url) else profile
  if textOf ((profile.lookup "provider").getD .null) ∈ keylessLlmProviders ∨ profileKey ∈ keylessLlmProviders then
    Json.setEntry (Json.setEntry profile "provider" (.str profileKey)) "api_key" (.str "")
  else profile

def normalizedLlmProfiles (world : World) (profiles : List (String × Json)) : List (String × Json) :=
  profiles.foldl (fun normalized entry =>
    let profileKey := normalizeLlmProvider world.lower entry.1 (textOf (entry.2.get "base_url"))
    match entry.2 with
    | .obj profile => Json.setEntry normalized profileKey (.obj (normalizedProfile world profileKey profile))
    | _ => normalized) []

/-- `LLMSettingsModel`. -/
def llmFields : List Field :=
  [(field "llm" readProvider "provider").withDefault fun world =>
      .str (normalizeLlmProvider world.lower (world.envText "llm" "provider") (world.envText "llm" "base_url")),
    field "llm" readText "base_url", field "llm" readText "api_key", field "llm" readText "model"] ++
  llmNumbers "llm" ++
  [field "llm" readFlag "vision_enabled",
    (field "llm" readProvider "vision_provider").withDefault fun world =>
      .str (normalizeLlmProvider world.lower (world.envText "llm" "vision_provider") (world.envText "llm" "vision_base_url")),
    field "llm" readText "vision_base_url", field "llm" readText "vision_api_key", field "llm" readText "vision_model",
    field "llm" (readNumber fun q => decide (0 < q)) "vision_timeout",
    literalField "llm" ["low", "high", "auto", "original"] "low" stripLower "vision_detail",
    (field "llm" readProfiles "profiles").withDefault fun _ => .obj []]

/-- `LLMSettingsModel.model_post_init`. -/
def llmFinish (world : World) (model : List (String × Json)) : List (String × Json) :=
  let model := finishConnection "provider" "base_url" "api_key" world model
  let model := finishConnection "vision_provider" "vision_base_url" "vision_api_key" world model
  match model.lookup "profiles" with
  | some (.obj profiles) => Json.setEntry model "profiles" (.obj (normalizedLlmProfiles world profiles))
  | _ => model

/-! ## Speech -/

def ttsSaveMode : String := "禁用自动保存"

/-- `TTSSettingsModel`. -/
def ttsFields : List Field :=
  [field "tts" readText "genie_character", field "tts" readText "genie_model_dir",
    literalField "tts" ["zh", "ja", "en", "auto"] "ja" (fun _ text => text) "lang",
    field "tts" readText "ref_audio", field "tts" readText "ref_text",
    literalField "tts" ["cpu", "cuda"] "cpu" stripLower "device",
    field "tts" readText "quality", field "tts" readText "split", field "tts" readText "mode",
    (field "tts" readText "save_mode").withDefault fun _ => .str ttsSaveMode,
    literalField "tts" ["genie-tts", "openai-compatible"] "genie-tts" (fun _ text => text) "provider",
    field "tts" readText "base_url", field "tts" readText "api_key", field "tts" readText "model",
    field "tts" readText "voice", field "tts" (readNumber fun q => decide (0 < q)) "timeout"]

/-- `TTSSettingsModel.model_post_init`; a patch without a save mode has none afterwards. -/
def ttsFinish (_ : World) (model : List (String × Json)) : List (String × Json) :=
  if model.lookup "save_mode" = some .null then model else Json.setEntry model "save_mode" (.str ttsSaveMode)

/-- A number that is brought between two bounds before it is read. -/
def readClampedNumber (low high : ℚ) (world : World) (value : Json) : Option Json :=
  (world.float value).map fun q => .num (max low (min high q))

/-- An integer that is brought between two bounds before it is read. -/
def readClampedInteger (low high : ℤ) (world : World) (value : Json) : Option Json :=
  (world.int value).map fun n => .int (max low (min high n))

/-- `ASRSettingsModel`. -/
def asrFields : List Field :=
  [literalField "asr" ["sensevoice-service", "funasr-service", "openai-compatible", "sherpa-onnx", "sherpa-onnx-online",
      "sensevoice-local", "disabled"] "sherpa-onnx" stripLower "provider",
    field "asr" readText "base_url", field "asr" readText "api_key", field "asr" (readNumber fun _ => true) "timeout",
    field "asr" readText "sensevoice_model",
    literalField "asr" ["cuda", "cpu"] "cpu" (fun _ text => text) "sensevoice_device",
    field "asr" readText "sherpa_model_path", field "asr" readText "sherpa_tokens_path",
    field "asr" (readInteger fun _ => true) "sherpa_num_threads",
    literalField "asr" ["cpu", "cuda", "coreml"] "cpu" stripLower "sherpa_provider", field "asr" readText "language",
    field "asr" (readClampedNumber (1 / 10) (9 / 10)) "vad_threshold",
    field "asr" (readClampedInteger 160 1200) "vad_min_silence_ms",
    field "asr" (readClampedInteger 1 30) "asr_partial_every"]

/-- The base URL of a service for singing, by its text. -/
def readSvcBaseUrl (text : World → Json → String) (world : World) (value : Json) : Option Json :=
  let raw := PyStr.rstripOf "/" (PyStr.strip (text world value))
  if raw = "" then some (.str "")
  else
    let candidate := if PyStr.contains raw "://" then raw else "http://" ++ raw
    match world.urlsplit candidate with
    | some (scheme, netloc) => if scheme ∈ ["http", "https"] ∧ netloc ≠ "" then some (.str candidate) else none
    | none => none

/-- `SVCSettingsModel`; a patch takes `str(value)` of a base URL, and a document `str(value or "")`. -/
def svcFields (text : World → Json → String) : List Field :=
  [literalField "svc" ["soulx-service", "disabled"] "soulx-service" (fun _ text => text) "provider",
    field "svc" (readSvcBaseUrl text) "base_url", field "svc" (readInteger fun n => decide (0 ≤ n)) "speaker_id",
    field "svc" (readInteger fun n => decide (-36 ≤ n ∧ n ≤ 36)) "pitch",
    field "svc" (readNumber fun q => decide (0 < q)) "timeout"]

/-! ## Summaries, memory and the interface -/

/-- A limit of summaries: what is no number is the minimum. -/
def readSummaryLimit (minimum : ℤ) (world : World) (value : Json) : Option Json :=
  match world.float value with
  | some q => some (.int (max minimum (q.num.tdiv q.den)))
  | none => some (.int minimum)

/-- `SummarySettingsModel`. -/
def summaryFields : List Field :=
  [field "summary" (readSummaryLimit 1) "trigger_messages", field "summary" (readSummaryLimit 1) "keep_recent_messages",
    field "summary" (readSummaryLimit 20) "item_max_chars", field "summary" (readSummaryLimit 1) "rewrite_interval_messages",
    literalField "summary" ["rule", "llm"] "rule" (fun _ text => text) "quality_scorer_mode",
    field "summary" (readSummaryLimit 1) "quality_score_cooldown_seconds",
    field "summary" (readSummaryLimit 1) "quality_score_budget_per_hour"]

def defaultQdrantDockerImage : String := "qdrant/qdrant:v1.18.3"

def defaultQdrantDockerContainer : String := "yuizaki-qdrant"

def defaultQdrantDockerVolume : String := "yuizaki-qdrant-storage"

def normalizeQdrantDockerImage (world : World) (value : String) : String :=
  let image := PyStr.strip value
  if image = "" ∨ PyStr.lower world.lower image ∈ ["latest", "qdrant/qdrant", "qdrant/qdrant:latest"] then
    defaultQdrantDockerImage
  else image

/-- A text whose default is that of the environment, or another where that is empty. -/
def textFieldOr (part fallback name : String) : Field :=
  (field part readText name).withDefault fun world => .str (textOr (world.envText part name) fallback)

/-- `MemorySettingsModel`. -/
def memoryFields : List Field :=
  [literalField "memory" ["sqlite", "inmemory", "qdrant"] "sqlite" (fun _ text => text) "backend",
    field "memory" readText "sqlite_path", field "memory" readText "qdrant_url", field "memory" readText "qdrant_api_key",
    field "memory" readText "qdrant_collection", field "memory" (readNumber fun q => decide (0 < q)) "qdrant_timeout",
    field "memory" readFlag "qdrant_auto_start", textFieldOr "memory" defaultQdrantDockerImage "qdrant_docker_image",
    textFieldOr "memory" defaultQdrantDockerContainer "qdrant_docker_container",
    textFieldOr "memory" defaultQdrantDockerVolume "qdrant_docker_volume",
    field "memory" readText "embedding_model", field "memory" readFlag "reranker_enabled",
    field "memory" readText "reranker_model",
    field "memory" (readInteger fun n => decide (5 ≤ n ∧ n ≤ 100)) "reranker_candidate_count"]

/-- A text of a model, put right where there is one. -/
def finishText (name : String) (f : String → String) (model : List (String × Json)) : List (String × Json) :=
  match model.lookup name with
  | some (.str text) => Json.setEntry model name (.str (f text))
  | _ => model

/-- What `MemorySettingsModel` and its patch have in common. -/
def memoryFinish (image : World → String → String) (world : World) (model : List (String × Json)) : List (String × Json) :=
  let model := finishText "qdrant_url" (PyStr.rstripOf "/") model
  let model := finishText "qdrant_collection" (fun text => textOr (PyStr.strip text) "memories") model
  let model := finishText "qdrant_docker_image" (image world) model
  let model := finishText "qdrant_docker_container" (fun text => textOr (PyStr.strip text) defaultQdrantDockerContainer) model
  finishText "qdrant_docker_volume" (fun text => textOr (PyStr.strip text) defaultQdrantDockerVolume) model

/-- `UISystemSettingsModel`. -/
def systemFields : List Field :=
  [(field "system" (readLiteral ["zh-CN", "zh", "en", "en-US", "ja", "ja-JP"]) "language").withDefault fun _ => .str "zh-CN",
    (field "system" (readLiteral ["light", "dark", "system"]) "theme").withDefault fun _ => .str "light"]

/-! ## Documents -/

/-- A section: its fields and those of its patch, and what is put right at the end of each. -/
structure SettingsSection where
  name : String
  fields : List Field
  finish : World → List (String × Json) → List (String × Json)
  patchFields : List Field
  finishPatch : World → List (String × Json) → List (String × Json)

/-- A section whose patch has the same fields. -/
def sectionOf (name : String) (fields : List Field) (finish : World → List (String × Json) → List (String × Json)) :
    SettingsSection :=
  ⟨name, fields, finish, fields.map Field.optional, finish⟩

def unfinished (_ : World) (model : List (String × Json)) : List (String × Json) := model

/-- The sections of `PersistedSettingsSchema` and `RuntimeSettingsPatch`. -/
def settingsSections : List SettingsSection :=
  [sectionOf "llm" llmFields llmFinish, sectionOf "tts" ttsFields ttsFinish, sectionOf "asr" asrFields unfinished,
    { sectionOf "svc" (svcFields fun world value => if value.truthy = true then world.toStr value else "") unfinished with
      patchFields := (svcFields World.toStr).map Field.optional },
    sectionOf "summary" summaryFields unfinished,
    { sectionOf "memory" memoryFields (memoryFinish normalizeQdrantDockerImage) with
      finishPatch := memoryFinish fun _ text => textOr (PyStr.strip text) defaultQdrantDockerImage },
    sectionOf "system" systemFields unfinished]

/-- The sections of a document, validated in turn. -/
def validateSections (world : World) (entries : List (String × Json)) :
    List SettingsSection → Option (List (String × Json))
  | [] => some []
  | part :: rest =>
    (validateModel world part.fields part.finish ((entries.lookup part.name).getD (.obj []))).bind fun value =>
      (validateSections world entries rest).map fun others => (part.name, value) :: others

/-- The document has sections of settings only. -/
def knownSections (entries : List (String × Json)) : Bool :=
  entries.all fun entry => settingsSections.any fun part => decide (part.name = entry.1)

/-- `validate_persisted_settings` and its dump; none where the validation raises. -/
def validatePersistedSettings (world : World) (payload : Json) : Option Json :=
  match payload with
  | .obj entries => if knownSections entries = true then (validateSections world entries settingsSections).map .obj else none
  | _ => none

/-- The sections of a patch, validated in turn. -/
def validatePatchSections (world : World) (entries : List (String × Json)) :
    List SettingsSection → Option (List (String × Json))
  | [] => some []
  | part :: rest =>
    match entries.lookup part.name with
    | none | some .null => validatePatchSections world entries rest
    | some raw => (validateModel world part.patchFields part.finishPatch raw).bind fun value =>
      (validatePatchSections world entries rest).map fun others => (part.name, excludeNone value) :: others

/-- `validate_runtime_patch` and its dump. -/
def validateRuntimePatch (world : World) (payload : Json) : Option Json :=
  match payload with
  | .obj entries => if knownSections entries = true then (validatePatchSections world entries settingsSections).map .obj else none
  | _ => none

def runtimeSettingSections : List String := ["llm", "tts", "asr", "svc", "summary", "memory"]

def validatedRuntimeUpdates (world : World) (payload : Json) : Option Json :=
  match payload with
  | .obj entries =>
    let runtimePayload := entries.filter fun entry => decide (entry.1 ∈ runtimeSettingSections)
    if runtimePayload = [] then some (.obj []) else validateRuntimePatch world (.obj runtimePayload)
  | _ => none

/-! ## A plain environment -/

/-- The configuration of `core/config.py`, where the texts for speech are set and no other variable is. -/
def plainEnvironment : Json :=
  .obj
    [("llm", .obj [("provider", .str "custom"), ("base_url", .str ""), ("api_key", .str ""), ("model", .str ""),
      ("timeout", .num 60), ("context_max_tokens", .int 131072), ("default_max_output_tokens", .int 8192),
      ("temperature", .num (6 / 5)), ("top_p", .num (9 / 10)), ("top_k", .int 500), ("min_p", .num 0),
      ("frequency_penalty", .num (1 / 5)), ("presence_penalty", .num 0), ("repetition_penalty", .num 1),
      ("vision_enabled", .bool false), ("vision_provider", .str "custom"), ("vision_base_url", .str ""),
      ("vision_api_key", .str ""), ("vision_model", .str ""), ("vision_timeout", .num 30), ("vision_detail", .str "low")]),
    ("tts", .obj [("genie_character", .str ""), ("genie_model_dir", .str ""),
      ("ref_audio", .str ""),
      ("ref_text", .str ""), ("lang", .str "ja"), ("device", .str "cpu"), ("quality", .str "q"),
      ("split", .str "s"), ("mode", .str "m"), ("save_mode", .str ttsSaveMode), ("provider", .str "genie-tts"),
      ("base_url", .str ""), ("api_key", .str ""), ("model", .str "tts-1"), ("voice", .str "alloy"), ("timeout", .num 60)]),
    ("asr", .obj [("provider", .str "sherpa-onnx"), ("base_url", .str ""), ("api_key", .str ""), ("timeout", .num 60),
      ("sensevoice_model", .str "iic/SenseVoiceSmall"), ("sensevoice_device", .str "cpu"), ("sherpa_model_path", .str ""),
      ("sherpa_tokens_path", .str ""), ("sherpa_num_threads", .int 2), ("sherpa_provider", .str "cpu"), ("language", .str "zh"),
      ("vad_threshold", .num (1 / 2)), ("vad_min_silence_ms", .int 300), ("asr_partial_every", .int 15)]),
    ("svc", .obj [("provider", .str "soulx-service"), ("base_url", .str ""), ("speaker_id", .int 0), ("pitch", .int 0),
      ("timeout", .num 120)]),
    ("summary", .obj [("trigger_messages", .int 24), ("keep_recent_messages", .int 8), ("item_max_chars", .int 140),
      ("rewrite_interval_messages", .int 6), ("quality_scorer_mode", .str "rule"),
      ("quality_score_cooldown_seconds", .int 300), ("quality_score_budget_per_hour", .int 20)]),
    ("memory", .obj [("backend", .str "sqlite"), ("sqlite_path", .str "memory.db"), ("qdrant_url", .str ""),
      ("qdrant_api_key", .str ""), ("qdrant_collection", .str "memories"), ("qdrant_timeout", .num 10),
      ("qdrant_auto_start", .bool false), ("qdrant_docker_image", .str defaultQdrantDockerImage),
      ("qdrant_docker_container", .str defaultQdrantDockerContainer), ("qdrant_docker_volume", .str defaultQdrantDockerVolume),
      ("embedding_model", .str "Qwen/Qwen3-Embedding-0.6B"), ("reranker_enabled", .bool false),
      ("reranker_model", .str "BAAI/bge-reranker-v2-m3"), ("reranker_candidate_count", .int 32)])]

def plainNumber : Json → Option ℚ
  | .int n => some n
  | .num q => some q
  | _ => none

def plainInteger : Json → Option ℤ
  | .int n => some n
  | .num q => some (q.num.tdiv q.den)
  | _ => none

/-- Conversions of values that have the right type, in a plain environment. -/
def plainWorld : World where
  lower := id
  env := plainEnvironment
  str _ := ""
  float := plainNumber
  int := plainInteger
  readInt value := match value with
    | .int n => some n
    | _ => none
  readFloat := plainNumber
  readBool value := match value with
    | .bool b => some b
    | _ => none
  urlsplit _ := none

end Settings
