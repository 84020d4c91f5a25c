import Yuizaki.Lib.Dict
import Yuizaki.Lib.Json
import Yuizaki.Lib.PyStr
import Mathlib.Data.Rat.Defs

/- The metadata of a memory document (`modules/memory/metadata.py`).

   Metadata is a dictionary of JSON values that every write normalizes: a schema version,
   a revision, timestamps in one spelling, a review status, the sources. A replacement keeps
   a bounded history of the versions before it. Dates are the standard library's: a type
   `τ` of UTC instants, a parser and the `isoformat` of an instant. -/
namespace Memory

abbrev Metadata := Dict String Json

/-- `metadata.get(key)`. -/
def Metadata.value (m : Metadata) (key : String) : Json := (m.get key).getD .null

/-- `metadata.setdefault(key, value)`. -/
def Metadata.setDefault (m : Metadata) (key : String) (v : Json) : Metadata :=
  if (m.get key).isSome then m else m.set key v

/-- `dict(value)` of a JSON object. -/
def Metadata.ofEntries (kvs : List (String × Json)) : Metadata :=
  kvs.foldl (fun m e => m.set e.1 e.2) Dict.empty

/-- Metadata as a value of other metadata. -/
def Metadata.toJson (m : Metadata) : Json := .obj m.entries

/-- Python's `a == b` on metadata. -/
def Metadata.same (a b : Metadata) : Bool := Json.same a.toJson b.toJson

/-- The exceptions that leave the functions of the module. -/
inductive PyError where
  | typeError
  | valueError
  | overflowError
  | keyError
  | sqlError
  | embeddingError
deriving DecidableEq

/-- What `datetime.fromisoformat` and `astimezone` make of a text. -/
inductive ParsedDate (τ : Type) where
  | date (t : τ)
  | invalid
  | outOfRange

/-- Python's text functions and dates, as the module calls them: `str` of a container or a
    float, `int` of a text, `lower` outside ASCII, the UTC instant of an ISO text (a text
    without an offset is UTC) and the text of an instant, with a closing `Z`. -/
structure MetadataTools (τ : Type) where
  repr : Json → String
  int : String → Option ℤ
  wide : String → String
  parseDate : String → ParsedDate τ
  isoformat : τ → String

variable {τ : Type} (tools : MetadataTools τ) (now : τ)

/-- `str(value)`. -/
def MetadataTools.str : Json → String
  | .null => "None"
  | .bool true => "True"
  | .bool false => "False"
  | .int n => toString n
  | .str s => s
  | v => tools.repr v

/-- `int(value)`. -/
def MetadataTools.toInt : Json → Except PyError ℤ
  | .bool b => .ok (if b then 1 else 0)
  | .int n => .ok n
  | .num q => .ok (q.num.tdiv q.den)
  | .str s => match tools.int s with
    | some n => .ok n
    | none => .error .valueError
  | _ => .error .typeError

/-! ## One spelling -/

/-- `_canonical_timestamp`: `None` for no text or a blank one; a text that is no date stays. -/
def canonicalTimestamp (value : Json) : Except PyError (Option String) :=
  match value with
  | .str s =>
    let raw := PyStr.strip s
    if raw = "" then .ok none
    else match tools.parseDate raw with
      | .date t => .ok (some (tools.isoformat t))
      | .invalid => .ok (some raw)
      | .outOfRange => .error .overflowError
  | _ => .ok none

/-- The revision of normalized metadata: at least one, and one for what is no number. -/
def normalizedRevision (m : Metadata) : ℤ :=
  match tools.toInt ((m.get "revision").getD (.int 1)) with
  | .ok n => max 1 n
  | .error _ => 1

/-- The review status of normalized metadata. -/
def normalizedReviewStatus (m : Metadata) : String :=
  PyStr.lower tools.wide (PyStr.strip (tools.str ((m.value "review_status").or (.str "unreviewed"))))

def listedSources (m : Metadata) : List String :=
  let items : List Json := match m.value "source_ids" with
    | .str s => [.str s]
    | .arr xs => xs
    | _ => []
  (items.map tools.str).filter (fun s => PyStr.strip s ≠ "")

/-- The sources of normalized metadata: those listed, and its own one. -/
def normalizedSources (m : Metadata) : List String :=
  let listed := listedSources tools m
  match m.value "source_id" with
  | .null => listed
  | v =>
    if PyStr.strip (tools.str v) ≠ "" ∧ tools.str v ∉ listed then listed ++ [tools.str v]
    else listed

/-- A bound of the validity window in one spelling, or gone. -/
def putTimestamp (m : Metadata) (key : String) (value : Option String) : Metadata :=
  match value with
  | none => m.erase key
  | some s => m.set key (.str s)

/-- The timestamps of normalized metadata. -/
structure Timestamps where
  createdAt : String
  updatedAt : String
  occurredAt : String
  ingestedAt : String
  validFrom : Option String
  validTo : Option String

def normalizedTimestamps (m : Metadata) : Except PyError Timestamps := do
  let read key := canonicalTimestamp tools (m.value key)
  let legacy ← read "timestamp"
  let createdAt := ((← read "created_at").or legacy).getD (tools.isoformat now)
  let updatedAt := (← read "updated_at").getD createdAt
  let occurredAt := ((← read "occurred_at").or legacy).getD createdAt
  let ingestedAt := (← read "ingested_at").getD createdAt
  return ⟨createdAt, updatedAt, occurredAt, ingestedAt, ← read "valid_from", ← read "valid_to"⟩

/-- The fields of normalized metadata, given its timestamps. -/
def normalizedFields (m : Metadata) (stamps : Timestamps) : Metadata :=
  let normalized := m.set "schema_version" (.int 1)
    |>.set "revision" (.int (normalizedRevision tools m))
    |>.set "created_at" (.str stamps.createdAt)
    |>.set "updated_at" (.str stamps.updatedAt)
    |>.set "occurred_at" (.str stamps.occurredAt)
    |>.set "ingested_at" (.str stamps.ingestedAt)
    |>.set "review_status" (.str (normalizedReviewStatus tools m))
  let normalized := putTimestamp normalized "valid_from" stamps.validFrom
  let normalized := putTimestamp normalized "valid_to" stamps.validTo
  let normalized := normalized.set "source_ids" (.arr ((normalizedSources tools m).map .str))
  (Metadata.setDefault normalized "supersedes" .null).setDefault "superseded_by" .null

def normalizeMemoryMetadata (m : Metadata) : Except PyError Metadata := do
  let stamps ← normalizedTimestamps tools now m
  return normalizedFields tools m stamps

/-! ## Versions -/

def memoryVersionHistoryLimit : ℕ := 50

def provenanceFields : List String := ["source_kind", "source_id", "source_ids", "turn_id", "evidence"]

/-- The entry of the history for a version. -/
def versionSnapshot (docId text : String) (m : Metadata) : Json :=
  .obj [("id", .str docId), ("revision", m.value "revision"), ("text", .str text),
    ("metadata", Metadata.toJson (m.erase "version_history"))]

/-- `xs[-limit:]`. -/
def lastItems (limit : ℕ) (xs : List Json) : List Json := xs.drop (xs.length - limit)

/-- A list value, and no items where there is none. -/
def listItems : Json → List Json
  | .arr xs => xs
  | _ => []

/-- `max(0, int(metadata.get(key, 0) or 0))`. -/
def countOf (m : Metadata) (key : String) : Except PyError ℤ :=
  (tools.toInt (Json.or ((m.get key).getD (.int 0)) (.int 0))).map (max 0)

def putCount (m : Metadata) (key : String) (n : ℤ) : Metadata :=
  if n ≠ 0 then m.set key (.int n) else m.erase key

/-- A field of one metadata laid over another, where it has it. -/
def keepField (old new : Metadata) (key : String) : Metadata :=
  match old.get key with
  | some v => new.set key v
  | none => new

/-- Several fields of one metadata laid over another. -/
def keepFields (fields : List String) (old new : Metadata) : Metadata :=
  fields.foldl (keepField old) new

def appendMemoryVersion (docId oldText : String) (oldMetadata newMetadata : Metadata) :
    Except PyError Metadata := do
  let old ← normalizeMemoryMetadata tools now oldMetadata
  let new ← normalizeMemoryMetadata tools now newMetadata
  let history := listItems (old.value "version_history") ++ [versionSnapshot docId oldText old]
  let truncated ← countOf tools old "version_history_truncated"
  let overflow := history.length - memoryVersionHistoryLimit
  let new := keepFields provenanceFields old new
    |>.set "created_at" (old.value "created_at")
    |>.set "revision" (.int (normalizedRevision tools oldMetadata + 1))
    |>.set "updated_at" (.str (tools.isoformat now))
    |>.set "version_history" (.arr (lastItems memoryVersionHistoryLimit history))
  return putCount new "version_history_truncated" (truncated + overflow)

def hasPriorVersionSnapshot (m : Metadata) (revision : ℤ) (text : String) : Bool :=
  match (listItems (m.value "version_history")).getLast? with
  | some (.obj kvs) =>
    let latest := Json.obj kvs
    Json.same (latest.get "revision") (.int revision) && Json.same (latest.get "text") (.str text) &&
      (match latest.get "metadata" with
        | .obj _ => true
        | _ => false)
  | _ => false

/-! ## Histories that only grow -/

def appendOnlyHistoryLimits : List (String × ℕ) :=
  [("audit", 100), ("confidence_history", 50), ("correction_history", 25)]

/-- The items of a list and those of another that are not among them. -/
def mergeItems (current incoming : List Json) : List Json :=
  incoming.foldl (fun items item => if items.any (Json.same item) then items else items ++ [item])
    current

/-- `int(metadata.get("audit_truncated", 0) or 0)`. -/
def auditTruncated (m : Metadata) : Except PyError ℤ :=
  tools.toInt (Json.or ((m.get "audit_truncated").getD (.int 0)) (.int 0))

/-- One history of `_merge_append_only_metadata`. -/
def mergeHistory (current incoming merged : Metadata) (key : String) (limit : ℕ) :
    Except PyError Metadata := do
  let items := mergeItems (listItems (current.value key)) (listItems (incoming.value key))
  let merged := merged.set key (.arr (lastItems limit items))
  if key = "audit" then
    let before ← auditTruncated tools current
    let after ← auditTruncated tools incoming
    return putCount merged "audit_truncated" (max before after + ((items.length - limit : ℕ) : ℤ))
  else
    return merged

def mergeAppendOnlyMetadata (current incoming : Metadata) : Except PyError Metadata :=
  appendOnlyHistoryLimits.foldlM
    (fun merged e => mergeHistory tools current incoming merged e.1 e.2) incoming

end Memory
