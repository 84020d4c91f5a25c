import Yuizaki.Memory.State

/- Which memories a request reads: the filter of the vector store (`is_memory_recallable`), the
   test of the retrieval pipeline (`_reject_reason`) and the scope of the memory routes
   (`_doc_matches_scope`).

   Each reads scope, session and workspace off the metadata in its own way, and is written here
   with that part as a definition of its own. The workspace that the routes compare is the one
   they resolved, without blanks around it. -/
namespace Memory

open Fallible

variable {τ : Type} [LinearOrder τ] (tools : MetadataTools τ) (now : τ)

/-- `VALID_MEMORY_SCOPES` -/
inductive MemoryScope where
  | global
  | workspace
  | session
deriving DecidableEq

def MemoryScope.name : MemoryScope → String
  | .global => "global"
  | .workspace => "workspace"
  | .session => "session"

structure MemorySearchFilters where
  scope : Option MemoryScope := none
  sessionId : Option String := none
  workspaceId : Option String := none
  layers : List String := []
  memoryRole : Option String := none

def given : Option String → Option String
  | some s => if s = "" then none else some s
  | none => none

/-- `_normalize_scope_id`, `_normalize_optional_workspace_id`. -/
def MetadataTools.normalizeScopeId (value : Json) : Option String :=
  given (some (PyStr.strip (tools.str (value.or (.str "")))))

/-- `_normalize_scope_id` of a request. -/
def requestedId : Option String → Option String
  | some s => given (some (PyStr.strip s))
  | none => none

/-- `str(metadata.get(key) or default)` -/
def MetadataTools.textOf (m : Metadata) (key default : String) : String :=
  tools.str ((m.value key).or (.str default))

/-- `str(metadata.get(key, default))` -/
def MetadataTools.textWhere (m : Metadata) (key default : String) : String :=
  tools.str ((m.get key).getD (.str default))

/-- `value in (None, requested)` -/
def inOrNone (value requested : Option String) : Bool := value = none ∨ value = requested

/-! ## The vector store -/

/-- The scope, session and workspace of `is_memory_recallable`. -/
def storeScope (filters : MemorySearchFilters) (m : Metadata) : Bool :=
  let docScope := tools.textOf m "scope" "workspace"
  let docSession := tools.normalizeScopeId (m.value "session_id")
  let docWorkspace := tools.normalizeScopeId (m.value "workspace_id")
  let session := requestedId filters.sessionId
  let workspace := requestedId filters.workspaceId
  match filters.scope with
  | some .global => docScope = "global"
  | some .session => docScope = "session" ∧ session.isSome ∧ docSession = session
  | some .workspace => docScope = "workspace" ∧ (workspace = none ∨ inOrNone docWorkspace workspace)
  | none => (session = none ∨ inOrNone docSession session) ∧ (workspace = none ∨ inOrNone docWorkspace workspace)

/-- `is_memory_recallable`, with the values of `_memory_type_filter_values`. -/
def isMemoryRecallable (filters : Option MemorySearchFilters) (types : Option (List String)) (m : Metadata) :
    Except PyError Bool :=
  (isMetadataRecallable tools now m).map fun recallable =>
    recallable &&
    !(PyStr.strip (tools.textOf m "memory_role" "") = "tool_permission" ∧
      (filters.bind MemorySearchFilters.memoryRole) ≠ some "tool_permission") &&
    (types.all fun allowed => tools.textOf m "type" "" ∈ allowed) &&
    filters.all fun filters =>
      (filters.layers.isEmpty || decide (tools.textOf m "layer" "semantic" ∈ filters.layers)) &&
      ((given filters.memoryRole).all fun role => tools.textOf m "memory_role" "" = role) &&
      storeScope tools filters m

/-! ## The retrieval pipeline -/

/-- The scope, session and workspace of `_reject_reason`. -/
def pipelineScope (filters : MemorySearchFilters) (m : Metadata) : Option String :=
  let docScope := tools.textWhere m "scope" "workspace"
  let docSession := tools.normalizeScopeId (m.value "session_id")
  let docWorkspace := tools.normalizeScopeId (m.value "workspace_id")
  let session := requestedId filters.sessionId
  let workspace := requestedId filters.workspaceId
  let otherSession := session.isSome && !inOrNone docSession session
  match filters.scope with
  | some .global =>
    if docScope ≠ "global" then some "scope"
    else if otherSession then some "session"
    else none
  | some .session =>
    if docScope ≠ "session" then some "scope"
    else if session.isNone || docSession ≠ session then some "session"
    else none
  | some .workspace =>
    if docScope ≠ "workspace" then some "scope"
    else if workspace.isNone then (if docWorkspace.isSome then some "workspace" else none)
    else if !inOrNone docWorkspace workspace then some "workspace"
    else none
  | none =>
    if otherSession then some "session"
    else if workspace.isSome && !inOrNone docWorkspace workspace then some "workspace"
    else none

/-- `_reject_reason`: the state, the layer and the role, and then the scope. -/
def rejectReason (filters : MemorySearchFilters) (m : Metadata) : Except PyError (Option String) :=
  (memoryState tools now m).map fun state =>
    if state ≠ "active" then some state
    else if tools.textWhere m "layer" "semantic" ∉ filters.layers then some "layer"
    else if (given filters.memoryRole).any fun role => tools.textOf m "memory_role" "" ≠ role then some "memory_role"
    else pipelineScope tools filters m

/-! ## The memory routes -/

/-- `_doc_matches_scope`, of a scope that was validated and a workspace that was resolved. -/
def docMatchesScope (scope : MemoryScope) (workspace session : Option String) (layer : Option String) (m : Metadata) : Bool :=
  let docScope := tools.textOf m "scope" "workspace"
  ((given layer).all fun layer => tools.textOf m "layer" "semantic" = layer) &&
  match scope with
  | .global => docScope = "global"
  | .session =>
    docScope = "session" ∧ (requestedId session).isSome ∧
      tools.normalizeScopeId (m.value "session_id") = requestedId session
  | .workspace =>
    decide (docScope = "workspace") &&
      match given workspace with
      | none => decide (m.value "workspace_id" = .null)
      | some workspace => decide (m.value "workspace_id" = .str workspace ∨ m.value "workspace_id" = .null)

end Memory
