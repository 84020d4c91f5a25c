import Yuizaki.Lib.Dict
import Yuizaki.Lib.JsStr
import Yuizaki.Lib.Json

/- The vault for the credentials of providers and connectors (`ProviderCredentialStore` in
   `main/provider-credential-store.ts`).

   The values are kept in memory and, encrypted, in the vault file. Credentials come in by the
   requests that change settings, and by two migrations that move what stands in plain text in a
   settings or connector document into the vault and blank it there. What the outside answers
   during a call (whether encryption is available, whether a file is read or written) comes with
   the call. -/
namespace Credential

/-! ## Fields -/

def settingsSecretMask : String := "********"

/-- `CONNECTOR_CREDENTIALS`, without the names of the environment variables. -/
def connectorCredentials : List (String × List String) :=
  [("telegram", ["botToken", "webhookSecret"]), ("discord", ["botToken", "publicKey"]), ("qq", ["bridgeToken"]),
    ("wechat", ["bridgeToken"])]

/-- The names that every object answers to. -/
def objectPrototype : List String :=
  ["constructor", "__defineGetter__", "__defineSetter__", "hasOwnProperty", "__lookupGetter__", "__lookupSetter__",
    "isPrototypeOf", "propertyIsEnumerable", "toString", "valueOf", "__proto__", "toLocaleString"]

/-- `CONNECTOR_CREDENTIALS[connectorId]`: what an object inherits has none of the fields. -/
def connectorFields (connectorId : String) : Option (List String) :=
  (connectorCredentials.lookup connectorId).or (if connectorId ∈ objectPrototype then some [] else none)

def twitchCredentialFields : List String :=
  ["clientId", "eventsubSecret", "eventsubToken", "chatToken", "broadcasterId", "senderId", "moderatorId", "channel",
    "username", "eventsubCallbackUrl", "subscriptionProvider"]

def connectorSecretFields : List String := ["botToken", "webhookSecret", "publicKey", "bridgeToken"]

def connectorPlaintextSecretFields : List String := connectorSecretFields ++ ["appId", "appSecret", "apiKey"]

def secretFieldNames : List String := ["api_key", "vision_api_key", "qdrant_api_key"]

def isNestedLlmProfileCredentialPath (fieldPath : String) : Bool :=
  match JsStr.split '.' fieldPath with
  | ["llm", "profiles", profile, "api_key"] => decide (profile ≠ "")
  | _ => false

/-- The key that asks for a field to be cleared. -/
def clearKey (field : String) : String :=
  match field.toList with
  | [] => "clear"
  | first :: rest => "clear" ++ String.ofList (first.toUpper :: rest)

/-! ## Documents -/

def fieldPathOf (base key : String) : String := if base = "" then key else base ++ "." ++ key

mutual

/-- The fields that `visitSecretFields` visits, with their values. -/
def secretFields (base : String) : Json → List (String × String)
  | .obj fields => secretEntries base fields
  | _ => []

/-- The fields it visits in the entries of an object. -/
def secretEntries (base : String) : List (String × Json) → List (String × String)
  | [] => []
  | (key, .str value) :: rest =>
    (if key ∈ secretFieldNames then [(fieldPathOf base key, value)] else []) ++ secretEntries base rest
  | (key, child) :: rest => secretFields (fieldPathOf base key) child ++ secretEntries base rest

end

mutual

/-- A document with some of the fields that are visited made empty. -/
def blankFields (blanks : String → String → Bool) (base : String) : Json → Json
  | .obj fields => .obj (blankEntries blanks base fields)
  | json => json

/-- The entries of an object with some of the fields that are visited made empty. -/
def blankEntries (blanks : String → String → Bool) (base : String) : List (String × Json) → List (String × Json)
  | [] => []
  | (key, .str value) :: rest =>
    (key, .str (if key ∈ secretFieldNames ∧ blanks (fieldPathOf base key) value = true then "" else value)) ::
      blankEntries blanks base rest
  | (key, child) :: rest => (key, blankFields blanks (fieldPathOf base key) child) :: blankEntries blanks base rest

end

def connectorPath (connectorId field : String) : String := "connector." ++ connectorId ++ "." ++ field

/-- The fields of a connector that are visited: its path, its value, and whether the vault manages
it. -/
def connectorVisits (connectorId : String) (fields : List String) (raw : List (String × Json)) :
    List (String × String × Bool) :=
  raw.filterMap fun entry =>
    match entry.2 with
    | .str value => if entry.1 ∈ connectorPlaintextSecretFields then
        some (connectorPath connectorId entry.1, value, decide (entry.1 ∈ fields)) else none
    | _ => none

def connectorsOf (payload : Json) : List (String × Json) :=
  match payload.get "connectors" with
  | .obj connectors => connectors
  | _ => []

/-- The fields that `migratePlaintextConnectorState` visits. -/
def documentVisits (payload : Json) : List (String × String × Bool) :=
  (connectorsOf payload).flatMap fun entry =>
    match connectorFields entry.1, entry.2 with
    | some fields, .obj raw => connectorVisits entry.1 fields raw
    | _, _ => []

/-- A connector with the fields that are visited made empty. -/
def blankConnector (raw : List (String × Json)) : List (String × Json) :=
  raw.map fun entry =>
    match entry.2 with
    | .str value => (entry.1, .str (if entry.1 ∈ connectorPlaintextSecretFields then "" else value))
    | _ => entry

/-- The connectors with the fields that are visited made empty. -/
def blankConnectors (connectors : List (String × Json)) : List (String × Json) :=
  connectors.map fun entry =>
    match connectorFields entry.1, entry.2 with
    | some _, .obj raw => (entry.1, .obj (blankConnector raw))
    | _, _ => entry

/-- The connectors of a document, where it has any, with the fields that are visited made empty. -/
def blankRecord : Json → Json
  | .obj connectors => .obj (blankConnectors connectors)
  | json => json

/-- A document with the fields that are visited made empty. -/
def blankDocument : Json → Json
  | .obj entries =>
    .obj (entries.map fun entry => (entry.1, if entry.1 = "connectors" then blankRecord entry.2 else entry.2))
  | payload => payload

/-! ## Values -/

/-- What a visit does to the values: it keeps a secret under a path, or forgets the path. -/
inductive Move where
  | keep (path secret : String)
  | forget (path : String)
deriving DecidableEq

/-- The values, and how many times they were changed. -/
abbrev Counted := Dict String String × ℕ

/-- A change that makes no difference is not counted. -/
def Move.apply (counted : Counted) : Move → Counted
  | .keep path secret =>
    if counted.1.get path = some secret then counted else (counted.1.set path secret, counted.2 + 1)
  | .forget path =>
    if counted.1.get path = none then counted else (counted.1.erase path, counted.2 + 1)

def applyMoves (values : Dict String String) (moves : List Move) : Counted := moves.foldl Move.apply (values, 0)

def fieldMove (payload : Json) (pathKey field : String) : Option Move :=
  if payload.get (clearKey field) = .bool true then some (.forget pathKey)
  else match payload.get field with
    | .str value => if JsStr.trim value = "" then none else some (.keep pathKey (JsStr.trim value))
    | _ => none

/-- What `captureTwitchCredentials` does to the values. -/
def twitchMoves (payload : Json) : List Move :=
  twitchCredentialFields.filterMap fun field => fieldMove payload ("twitch." ++ field) field

/-- What `captureConnectorCredentials` does to the values. -/
def connectorMoves (connectorId : String) (payload : Json) : List Move :=
  match connectorFields connectorId with
  | none => []
  | some fields =>
    (connectorSecretFields.filter (· ∈ fields)).filterMap fun field =>
      fieldMove payload (connectorPath connectorId field) field

/-- What `captureSettingsPayload` does with one field. -/
def captureMove (visit : String × String) : Option Move :=
  if isNestedLlmProfileCredentialPath visit.1 = true then some (.forget visit.1)
  else if visit.2 = settingsSecretMask then none
  else if JsStr.trim visit.2 = "" then none
  else some (.keep visit.1 (JsStr.trim visit.2))

/-- What `captureSettingValue` does to the values. -/
def settingMove (fieldPath : String) (value : Json) : Option Move :=
  if isNestedLlmProfileCredentialPath fieldPath = true then none
  else if (JsStr.split '.' fieldPath).getLast?.getD "" ∈ secretFieldNames then
    match value with
    | .str text =>
      if text = settingsSecretMask then none
      else if JsStr.trim text = "" then none
      else some (.keep fieldPath (JsStr.trim text))
    | _ => none
  else none

/-- What `delete` does to the values; a name that every object answers to counts as present. -/
def deleted (values : Dict String String) (fieldPath : String) : Counted :=
  let rest := values.erase fieldPath
  let nested := rest.keys.filter isNestedLlmProfileCredentialPath
  let present := if values.get fieldPath = none ∧ fieldPath ∉ objectPrototype then 0 else 1
  if fieldPath = "llm.api_key" then
    (rest.filter fun path _ => !isNestedLlmProfileCredentialPath path, present + nested.length)
  else (rest, present)

/-- A text that is a secret, and not blank or the mask of one. -/
def isSecret (value : String) : Bool := decide (JsStr.trim value ≠ "") && decide (JsStr.trim value ≠ settingsSecretMask)

/-- What `migratePlaintextSettings` does with one field. -/
def settingsMove (visit : String × String) : Option Move :=
  if isNestedLlmProfileCredentialPath visit.1 = true then some (.forget visit.1)
  else if isSecret visit.2 = true then some (.keep visit.1 (JsStr.trim visit.2))
  else none

/-- The fields that `migratePlaintextSettings` makes empty. -/
def settingsBlanks (fieldPath value : String) : Bool :=
  isNestedLlmProfileCredentialPath fieldPath || isSecret value || decide (value = settingsSecretMask)

/-- What `migratePlaintextConnectorState` does with one field. -/
def connectorMove (visit : String × String × Bool) : Option Move :=
  if (visit.2.2 && isSecret visit.2.1) = true then some (.keep visit.1 (JsStr.trim visit.2.1)) else none

/-- A migration of a document: what it does to the values, the document it leaves, and whether
that is to be written. -/
structure Plan where
  moves : List Move
  document : Json
  scrubbed : Bool

/-- What `migratePlaintextSettings` makes of a document. -/
def settingsPlan (payload : Json) : Plan where
  moves := (secretFields "" payload).filterMap settingsMove
  document := blankFields settingsBlanks "" payload
  scrubbed := (secretFields "" payload).any fun visit => settingsBlanks visit.1 visit.2

/-- What `migratePlaintextConnectorState` makes of a document. -/
def connectorPlan (payload : Json) : Plan where
  moves := (documentVisits payload).filterMap connectorMove
  document := blankDocument payload
  scrubbed := !(documentVisits payload).isEmpty

/-! ## The store -/

/-- `CredentialEncryptionAdapter`: what was encrypted can be decrypted. -/
structure CredentialEncryptionAdapter where
  encrypt : String → String
  decrypt : String → Option String
  decrypt_encrypt : ∀ value, decrypt (encrypt value) = some value

/-- What the outside answers during a call. -/
structure Answers where
  isAvailable : Bool
  vaultWritten : Bool
  documentRead : Bool
  documentWritten : Bool

/-- The vault: the values in memory and the file, and the documents of the application. -/
structure ProviderCredentialStore where
  values : Dict String String
  stored : Option (Dict String String)
  documents : Dict String Json

inductive Answer where
  | changed (count : ℕ)
  | done (changed : Bool)
  | migration (migrated : ℕ) (scrubbed : Bool)
deriving DecidableEq

/-- A call: what it answers or throws, and what it leaves. -/
abbrev Call := Except String Answer × ProviderCredentialStore

namespace ProviderCredentialStore

/-- `load`: a credential that cannot be decrypted is left out. -/
def load (encryption : CredentialEncryptionAdapter) (stored : Option (Dict String String)) : Dict String String :=
  match stored with
  | none => Dict.empty
  | some file => file.filterMap fun _ encrypted => encryption.decrypt encrypted

def new (encryption : CredentialEncryptionAdapter) (stored : Option (Dict String String)) (documents : Dict String Json) :
    ProviderCredentialStore where
  values := load encryption stored
  stored := stored
  documents := documents

variable (encryption : CredentialEncryptionAdapter) (answers : Answers) (s : ProviderCredentialStore)

def save : Except String ProviderCredentialStore :=
  if answers.isAvailable = false then .error "Operating-system credential encryption is unavailable"
  else if answers.vaultWritten = false then .error "provider-credentials.json was not written"
  else .ok { s with stored := some (s.values.mapValues fun _ value => encryption.encrypt value) }

/-- The values are changed in memory, and saved where that made a difference. -/
def commit (counted : Counted) (answer : Answer) : Call :=
  if counted.2 = 0 then (.ok answer, s)
  else match save encryption answers { s with values := counted.1 } with
    | .error e => (.error e, { s with values := counted.1 })
    | .ok s => (.ok answer, s)

def captureTwitchCredentials (payload : Json) : Call :=
  let counted := applyMoves s.values (twitchMoves payload)
  s.commit encryption answers counted (.changed counted.2)

def captureConnectorCredentials (connectorId : String) (payload : Json) : Call :=
  let counted := applyMoves s.values (connectorMoves connectorId payload)
  s.commit encryption answers counted (.changed counted.2)

def captureSettingsPayload (payload : Json) : Call :=
  let counted := applyMoves s.values ((secretFields "" payload).filterMap captureMove)
  s.commit encryption answers counted (.changed counted.2)

def captureSettingValue (fieldPath : String) (value : Json) : Call :=
  let counted := applyMoves s.values (settingMove fieldPath value).toList
  s.commit encryption answers counted (.done (decide (counted.2 ≠ 0)))

def delete (fieldPath : String) : Call :=
  let counted := deleted s.values fieldPath
  s.commit encryption answers counted (.done (decide (counted.2 ≠ 0)))

/-- The document is written where fields were made empty. -/
def writeDocument (file : String) (plan : Plan) (migrated : ℕ) : Call :=
  if plan.scrubbed = false then (.ok (.migration migrated false), s)
  else if answers.documentWritten = false then (.error "document was not written", s)
  else (.ok (.migration migrated true), { s with documents := s.documents.set file plan.document })

/-- A migration: the values are saved, then the document is written. -/
def migrate (plan : Json → Plan) (file : String) : Call :=
  match s.documents.get file with
  | none => (.ok (.migration 0 false), s)
  | some payload =>
    if answers.documentRead = false then (.error "document cannot be read", s)
    else
      let counted := applyMoves s.values (plan payload).moves
      if counted.2 = 0 then s.writeDocument answers file (plan payload) 0
      else match save encryption answers { s with values := counted.1 } with
        | .error e => (.error e, { s with values := counted.1 })
        | .ok s => s.writeDocument answers file (plan payload) counted.2

def migratePlaintextSettings (settingsPath : String) : Call := s.migrate encryption answers settingsPlan settingsPath

def migratePlaintextConnectorState (statePath : String) : Call := s.migrate encryption answers connectorPlan statePath

end ProviderCredentialStore

/-! ## Runs -/

/-- An operation; `edit` is somebody else writing or removing a document. -/
inductive Operation where
  | captureTwitchCredentials (payload : Json)
  | captureConnectorCredentials (connectorId : String) (payload : Json)
  | captureSettingsPayload (payload : Json)
  | captureSettingValue (fieldPath : String) (value : Json)
  | delete (fieldPath : String)
  | migratePlaintextSettings (settingsPath : String)
  | migratePlaintextConnectorState (statePath : String)
  | edit (file : String) (document : Option Json)

/-- A document as somebody else leaves it. -/
def ProviderCredentialStore.edit (s : ProviderCredentialStore) (file : String) : Option Json → ProviderCredentialStore
  | none => { s with documents := s.documents.erase file }
  | some document => { s with documents := s.documents.set file document }

def ProviderCredentialStore.run (encryption : CredentialEncryptionAdapter) (answers : Answers) (s : ProviderCredentialStore) :
    Operation → Call
  | .captureTwitchCredentials payload => s.captureTwitchCredentials encryption answers payload
  | .captureConnectorCredentials connectorId payload => s.captureConnectorCredentials encryption answers connectorId payload
  | .captureSettingsPayload payload => s.captureSettingsPayload encryption answers payload
  | .captureSettingValue fieldPath value => s.captureSettingValue encryption answers fieldPath value
  | .delete fieldPath => s.delete encryption answers fieldPath
  | .migratePlaintextSettings settingsPath => s.migratePlaintextSettings encryption answers settingsPath
  | .migratePlaintextConnectorState statePath => s.migratePlaintextConnectorState encryption answers statePath
  | .edit file document => (.ok (.done true), s.edit file document)

end Credential
