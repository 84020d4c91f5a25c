import Yuizaki.Memory.Sqlite
import Yuizaki.Memory.State
import Mathlib.Algebra.Order.Floor.Defs
import Mathlib.Data.Rat.Floor

/- The fields that the memory routes fill in (`modules/memory/routes.py`).

   A write decides the layer, the scope and the role of a memory, scores its quality, keeps
   the fields that belong to the server, puts permission history under review and adds to the
   audit. Floats are exact here (`ℚ`), and so is `round`. -/
namespace Memory

open Fallible

/-! ## The environment of a request -/

/-- How a request fails: an HTTP error, or an exception that the route does not turn into one. -/
inductive RouteError where
  | http (status : ℕ) (detail : Json)
  | raised (e : PyError)
deriving DecidableEq

/-- What a request runs with: the clock and its texts, `float` of a text, the active workspace,
and the faults of the store at each document. -/
structure Router (τ : Type) where
  tools : MetadataTools τ
  now : τ
  localNow : String
  utcNow : String
  float : String → Option ℚ
  active : Option String
  faults : String → Faults

/-- An exception that passes through a route. -/
def escaped {α : Type} (x : Except PyError α) : Except RouteError α := x.mapError RouteError.raised

theorem escaped_ok {α : Type} {x : Except PyError α} {a : α} : escaped x = .ok a ↔ x = .ok a := by
  cases x with
  | ok b => exact ⟨fun h => congrArg Except.ok (Except.ok.inj h), fun h => congrArg Except.ok (Except.ok.inj h)⟩
  | error e => exact ⟨fun h => (by cases h), fun h => (by cases h)⟩

/-- An exception that a route answers with status 400, where it is a `ValueError`. -/
def badRequest {α : Type} (x : Except DateError α) : Except RouteError α :=
  x.mapError fun e => match e with
    | .value text => .http 400 (.str text)
    | .raised e => .raised e

theorem badRequest_ok {α : Type} {x : Except DateError α} {a : α} : badRequest x = .ok a ↔ x = .ok a := by
  cases x with
  | ok b => exact ⟨fun h => congrArg Except.ok (Except.ok.inj h), fun h => congrArg Except.ok (Except.ok.inj h)⟩
  | error e => exact ⟨fun h => (by cases h), fun h => (by cases h)⟩

section Fields

variable {τ : Type} (env : Router τ)

/-- `_normalize_optional_workspace_id`, and the same for sessions. -/
def Router.optionalId (value : Json) : Option String :=
  let normalized := PyStr.strip (env.tools.str (value.or (.str "")))
  if normalized = "" then none else some normalized

/-- A text or `None`. -/
def optionJson (value : Option String) : Json := (value.map .str).getD .null

/-! ## Server fields -/

def serverOwnedMetadataFields : List String :=
  ["schema_version", "revision", "created_at", "ingested_at", "version_history", "version_history_truncated",
    "audit", "audit_truncated", "confidence_history", "correction_history", "soft_forgotten",
    "soft_forgotten_at", "soft_forget_turn_id", "candidate_deleted", "candidate_deleted_at", "superseded_by",
    "candidate", "candidate_id", "review_status", "review_required", "sensitive_category", "sensitivity",
    "source_kind", "source_id", "turn_id", "evidence"]

def sanitizeCreateMetadata (m : Metadata) : Metadata :=
  m.filter (fun key _ => key ∉ serverOwnedMetadataFields)

/-- The fields that an update keeps as they are stored. -/
def immutableFields : List String := serverOwnedMetadataFields ++ ["source_ids"]

/-- A field as it is stored, or gone where it is not. -/
def restoreField (stored m : Metadata) (key : String) : Metadata :=
  match stored.get key with
  | some v => m.set key v
  | none => m.erase key

/-- The fields of an update that a client cannot write. -/
def keepImmutable (stored m : Metadata) : Metadata := immutableFields.foldl (restoreField stored) m

/-! ## Numbers -/

/-- `float(value)`. -/
def Router.toFloat : Json → Option ℚ
  | .bool b => some (if b then 1 else 0)
  | .int n => some n
  | .num q => some q
  | .str s => env.float s
  | _ => none

def Router.coerceImportance (value : Json) : ℚ := (env.toFloat value).getD (1 / 2)

def Router.coerceUnit (value : Json) (default : ℚ) : ℚ := min 1 (max 0 ((env.toFloat value).getD default))

/-- `round(q)`: half goes to the even neighbour. -/
def roundHalfEven (q : ℚ) : ℤ :=
  let below := ⌊q⌋
  if q - below < 1 / 2 then below
  else if 1 / 2 < q - below then below + 1
  else if below % 2 = 0 then below
  else below + 1

/-- `round(q, 3)`. -/
def round3 (q : ℚ) : ℚ := roundHalfEven (q * 1000) / 1000

/-! ## Layer, role and scope -/

def validMemoryLayers : List String :=
  ["profile", "working", "episodic", "relationship", "reflective", "semantic", "session"]

def validMemoryScopes : List String := ["global", "workspace", "session"]

def validMemoryRoles : List String :=
  ["user_fact", "relationship_event", "task_experience", "failure_reflection", "reusable_skill",
    "tool_permission"]

structure Routing where
  text : String
  type : Json
  importance : ℚ
  sessionId : Json
  workspaceId : Json
  metadata : Metadata
  memoryRole : Option String
  layer : Json
  scope : Json
  confidence : Option ℚ
  confidenceSource : Option String

/-- The part of a text after its first dot. -/
def afterDot (text : String) : String := String.ofList ((text.toList.dropWhile (· ≠ '.')).drop 1)

def Router.memoryTypeValue (value : Json) : String :=
  let raw := PyStr.strip (env.tools.str (value.or (.str "fact")))
  if "MemoryType.".toList.isPrefixOf raw.toList then PyStr.lower env.tools.wide (afterDot raw)
  else if raw = "" then "fact" else raw

def explicitName (names : List String) (value : Json) : Option String :=
  match value with
  | .str s => if PyStr.strip s ∈ names then some (PyStr.strip s) else none
  | _ => none

def Router.resolveMemoryLayer (p : Routing) : String :=
  match explicitName validMemoryLayers p.layer with
  | some layer => layer
  | none =>
    let memoryType := env.memoryTypeValue p.type
    if p.metadata.value "source" = .str "profile" then "profile"
    else if p.metadata.value "source" = .str "relationship" then "relationship"
    else if p.metadata.value "source" = .str "reflection" then "reflective"
    else if memoryType = "preference" then "profile"
    else if memoryType = "event" then "episodic"
    else if p.sessionId.truthy then "working"
    else "semantic"

def resolveMemoryScope (p : Routing) : String :=
  match explicitName validMemoryScopes p.scope with
  | some scope => scope
  | none =>
    if p.sessionId.truthy then "session"
    else if p.workspaceId.truthy then "workspace"
    else "global"

/-- The role that a payload names, if it names one. -/
def Router.explicitRole (p : Routing) : Option String :=
  match p.memoryRole with
  | some role => some (PyStr.strip role)
  | none =>
    match p.metadata.value "memory_role" with
    | .null => none
    | role => some (PyStr.strip (env.tools.str role))

/-- The role that follows from the source, the layer and the type. -/
def Router.derivedRole (p : Routing) : String :=
  let source := env.tools.word (p.metadata.value "source") ""
  let layer := env.tools.word p.layer ""
  if source = "relationship" ∨ layer = "relationship" then "relationship_event"
  else if source ∈ ["reflection", "failure", "failure_reflection"] ∨ layer = "reflective" then
    "failure_reflection"
  else if source ∈ ["tool", "permission", "tool_permission"] then "tool_permission"
  else if source ∈ ["skill", "reusable_skill"] then "reusable_skill"
  else if env.memoryTypeValue p.type = "event" ∨ layer ∈ ["episodic", "working"] then "task_experience"
  else "user_fact"

/-- `_resolve_memory_role`: a role that is named and is none raises. -/
def Router.resolveMemoryRole (p : Routing) : Except PyError String :=
  match env.explicitRole p with
  | some role => if role ∈ validMemoryRoles then .ok role else .error .valueError
  | none => .ok (env.derivedRole p)

/-! ## Quality -/

/-- `_score_memory_quality`: the confidence and where it comes from. -/
def Router.scoreConfidence (p : Routing) (m : Metadata) : ℚ × String :=
  let explicit := (p.confidence.map .num).getD (m.value "confidence")
  let source := PyStr.strip (env.tools.str ((m.value "source").or (.str "manual")))
  if explicit ≠ .null then
    (env.coerceUnit explicit (7 / 10),
      env.tools.str ((optionJson p.confidenceSource).or ((m.value "confidence_source").or (.str "explicit"))))
  else if source ∈ ["", "manual", "profile", "relationship", "reflection"] then (86 / 100, "source")
  else if p.sessionId.truthy then (68 / 100, "session")
  else (72 / 100, "default")

def Router.scoreMemoryQuality (p : Routing) (m : Metadata) : Metadata :=
  let (confidence, confidenceSource) := env.scoreConfidence p m
  let completeness := min 1 (max (35 / 100) (((PyStr.strip p.text).length : ℚ) / 80))
  let quality := env.coerceUnit (.num p.importance) (1 / 2) * (35 / 100) + confidence * (45 / 100) +
    completeness * (2 / 10)
  m.set "confidence" (.num (round3 confidence))
    |>.set "confidence_source" (.str confidenceSource)
    |>.set "quality_score" (.num (round3 quality))

/-! ## Governance, provenance and audit -/

/-- `_apply_memory_role_governance`: permission history waits for a review. -/
def applyMemoryRoleGovernance (m : Metadata) (role : String) : Metadata :=
  let m := m.set "memory_role" (.str role)
  if role = "tool_permission" then
    m.set "sensitivity" (.str "high")
      |>.set "sensitive_category" (.str "tool_permission")
      |>.set "review_required" (.bool true)
      |>.set "candidate" (.bool true)
      |>.set "review_status" (.str "pending")
  else m

/-- The provenance that a payload carries, in its fields or in its metadata. -/
structure Provenance where
  sourceKind : Option String := none
  sourceId : Option String := none
  turnId : Option String := none
  evidence : Json := .null
  metadata : Metadata
  confidenceHistory : Option (List Json) := none

/-- The values of the four keys of `_apply_provenance`. -/
def Provenance.values (p : Provenance) : List (String × Json) :=
  [("source_kind", optionJson p.sourceKind), ("source_id", optionJson p.sourceId),
    ("turn_id", optionJson p.turnId), ("evidence", p.evidence)].map fun e =>
      (e.1, if e.2 = .null then p.metadata.value e.1 else e.2)

/-- One key of `_apply_provenance`. -/
def putProvenance (preserve : Bool) (m : Metadata) (e : String × Json) : Metadata :=
  if e.2 ≠ .null ∧ (preserve = false ∨ m.get e.1 = none) then m.set e.1 e.2 else m

def isObject : Json → Bool
  | .obj _ => true
  | _ => false

/-- The confidence history after `_apply_provenance`. -/
def Provenance.history (p : Provenance) (m : Metadata) : List Json :=
  let history := listItems (m.value "confidence_history")
  lastItems 50 (if history = [] then (p.confidenceHistory.getD []).filter isObject else history)

def applyProvenance (m : Metadata) (p : Provenance) (preserve : Bool) : Metadata :=
  let m := p.values.foldl (putProvenance preserve) m
  m.set "confidence_history" (.arr (p.history m))

/-- An entry of an object, where it is kept. -/
def entry (key : String) (value : Json) (kept : Bool) : List (String × Json) :=
  if kept then [(key, value)] else []

/-- The event of `_append_audit`. -/
def Router.auditEvent (m : Metadata) (action : String) (reason : Option String) (before : Option Json) : Json :=
  .obj ([("at", .str env.localNow), ("action", .str action), ("actor", .str "memory-api")] ++
    entry "memory_role" (m.value "memory_role") (m.value "memory_role").truthy ++
    entry "reason" (optionJson reason) (optionJson reason).truthy ++
    entry "before" (before.getD .null) before.isSome)

def auditLimit : ℕ := 100

/-- `_append_audit`: a count that is no number raises. -/
def Router.appendAudit (m : Metadata) (action : String) (reason : Option String)
    (before : Option Json := none) : Except PyError Metadata := do
  let audit := listItems (m.value "audit") ++ [env.auditEvent m action reason before]
  let truncated ← countOf env.tools m "audit_truncated"
  let m := m.set "audit" (.arr (lastItems auditLimit audit))
  return putCount m "audit_truncated" (truncated + (audit.length - auditLimit : ℕ))

end Fields

end Memory
