import Yuizaki.Memory.Routes

/- Updating and creating memories (`_update_doc_impl`, `_prepare_new_memory` and `add_doc` in
   `modules/memory/routes.py`).

   An update lays what the client sends over the stored metadata, puts every field that
   belongs to the server back, and decides layer, role, scope and quality anew. A new memory
   starts from what the client may send. What the search for duplicates finds is given to a
   create from outside. -/
namespace Memory

open Fallible

section Update

variable {τ : Type} [LinearOrder τ] (env : Router τ)

def Router.resolveRequestWorkspaceId (requested : Json) (scope : Option String) (fallback : Bool) :
    Except RouteError (Option String) :=
  match env.active, env.optionalId requested with
  | some active, some workspace =>
    if workspace = active then .ok (some workspace)
    else .error (.http 403 (.obj [("error", .str "workspace_mismatch"),
      ("message", .str "Memory workspace does not match the active workspace"),
      ("active_workspace_id", .str active), ("requested_workspace_id", .str workspace)]))
  | some active, none => .ok (if scope = some "workspace" ∧ fallback = true then some active else none)
  | none, workspace => .ok workspace

/-! ## Updating -/

/-- `MemoryDocUpdatePayload`. -/
structure Update where
  text : Option String := none
  metadata : Metadata := Dict.empty
  scope : Option String := none
  workspaceId : Option String := none
  sessionId : Option String := none
  layer : Option String := none
  type : Option String := none
  memoryRole : Option String := none
  importance : Option ℚ := none
  confidence : Option ℚ := none
  confidenceSource : Option String := none
  editReason : Option String := none
  turnId : Option String := none
  evidence : Json := .null

/-- A field of a payload that is normalized where it is given, and else read off metadata. -/
def Router.givenId (given : Option String) (fallback : Json) : Json :=
  match given with
  | some s => optionJson (env.optionalId (.str s))
  | none => fallback

/-- The metadata of an update, before anything is decided: the client's over the stored, with
the fields of the server put back. -/
def Update.merged (payload : Update) (stored : Metadata) : Metadata :=
  keepImmutable stored (payload.metadata.entries.foldl (fun m e => m.set e.1 e.2) stored)

def Router.updateRouting (payload : Update) (text : String) (merged : Metadata) : Routing where
  text := text
  type := .str (env.memoryTypeValue ((optionJson payload.type).or (merged.value "type")))
  importance := env.coerceImportance
    ((payload.importance.map .num).getD ((merged.get "importance").getD (.num (1 / 2))))
  sessionId := env.givenId payload.sessionId (merged.value "session_id")
  workspaceId := env.givenId payload.workspaceId (merged.value "workspace_id")
  metadata := merged
  memoryRole := payload.memoryRole
  layer := (optionJson payload.layer).or (merged.value "layer")
  scope := (optionJson payload.scope).or (merged.value "scope")
  confidence := payload.confidence
  confidenceSource := payload.confidenceSource

/-- The confidence that an update sets is kept in a history. -/
def Router.recordConfidence (payload : Update) (stored m : Metadata) : Metadata :=
  match payload.confidence with
  | none => m
  | some confidence =>
    if Json.same (.num confidence) (stored.value "confidence") then m
    else m.set "confidence_history" (.arr (listItems (m.value "confidence_history") ++
      [.obj [("at", .str env.localNow), ("confidence", m.value "confidence"), ("source", .str "update"),
        ("reason", optionJson payload.editReason)]]))

def Router.recordCorrection (payload : Update) (m : Metadata) : Metadata :=
  let turn := optionJson payload.turnId
  if turn.truthy ∨ payload.evidence ≠ .null then
    let correction : Json := .obj ([("at", .str env.localNow), ("reason", .str (textOr payload.editReason "memory_update"))] ++
      entry "turn_id" turn turn.truthy ++ entry "evidence" payload.evidence (payload.evidence ≠ .null))
    m.set "correction_history" (.arr (lastItems 25 (listItems (m.value "correction_history") ++ [correction])))
  else m

/-- What an update decides: the layer, the role, the scope and the workspace. -/
structure Decided where
  layer : String
  role : String
  scope : String
  workspaceId : Option String

def Router.decideUpdate (routing : Routing) : Except RouteError Decided := do
  let role ← escaped (env.resolveMemoryRole routing)
  let scope := resolveMemoryScope routing
  let workspaceId ← env.resolveRequestWorkspaceId routing.workspaceId (some scope) true
  return { layer := env.resolveMemoryLayer routing, role, scope, workspaceId }

/-- The metadata of an update, up to its audit. -/
def Router.updatedMetadata (payload : Update) (stored : Metadata) (routing : Routing) (decided : Decided) : Metadata :=
  let merged := routing.metadata
  let m := merged.set "layer" (.str decided.layer)
    |>.set "scope" (.str decided.scope)
    |>.set "type" routing.type
    |>.set "memory_role" (.str decided.role)
    |>.set "importance" (.num routing.importance)
    |>.set "timestamp" (.str (env.tools.str ((merged.value "timestamp").or (.str env.localNow))))
    |>.set "updated_at" (.str env.localNow)
    |>.set "session_id" routing.sessionId
    |>.set "workspace_id" (optionJson decided.workspaceId)
  let m := applyMemoryRoleGovernance (env.scoreMemoryQuality routing m) decided.role
  let m := applyProvenance m { turnId := payload.turnId, evidence := payload.evidence, metadata := merged } true
  env.recordCorrection payload (env.recordConfidence payload stored m)

def beforeUpdate (existing : Content) : Json :=
  .obj [("text", .str existing.text), ("layer", existing.metadata.value "layer"),
    ("scope", existing.metadata.value "scope"), ("importance", existing.metadata.value "importance")]

def updatedText (payload : Update) (existing : Content) : String := PyStr.strip (payload.text.getD existing.text)

def Router.updateContent (payload : Update) (auditAction : String) (docId : String) (existing : Content) :
    Except RouteError Edit := do
  let text := updatedText payload existing
  require (.http 400 (.str "text is required")) (text ≠ "")
  let routing := env.updateRouting payload text (payload.merged existing.metadata)
  let decided ← env.decideUpdate routing
  let metadata ← escaped (env.appendAudit (env.updatedMetadata payload existing.metadata routing decided) auditAction
    payload.editReason (some (beforeUpdate existing)))
  return {
    answer := .obj [("status", .str "updated"), ("id", .str docId), ("layer", .str decided.layer),
      ("scope", .str decided.scope), ("importance", .num routing.importance)]
    content := some { text, metadata } }

def Router.updateDocImpl (s : SqliteStore) (docId : String) (payload : Update) (auditAction : String) : Handled Json :=
  env.editDoc s docId payload.sessionId (env.updateContent payload auditAction docId)

def Router.updateDoc (s : SqliteStore) (docId : String) (payload : Update) : Handled Json :=
  env.updateDocImpl s docId payload "update"

/-- `MemoryCorrectionPayload`. -/
structure Correction where
  text : String
  reason : Option String
  turnId : Option String
  sessionId : Option String
  evidence : Json
  confidence : Option ℚ

def Correction.update (payload : Correction) : Update where
  text := some (PyStr.strip payload.text)
  editReason := some (textOr payload.reason "conversational_correction")
  turnId := payload.turnId
  sessionId := payload.sessionId
  evidence := payload.evidence
  confidence := payload.confidence

/-- `correct_doc`, without the `action` of its answer. -/
def Router.correctDoc (s : SqliteStore) (docId : String) (payload : Correction) : Handled Json :=
  env.updateDocImpl s docId payload.update "correction"

/-! ## Creating -/

/-- `MemoryDocPayload`. -/
structure NewMemory where
  id : Option String := none
  text : String := ""
  metadata : Metadata := Dict.empty
  scope : Option String := none
  workspaceId : Option String := none
  sessionId : Option String := none
  layer : Option String := none
  type : Option String := none
  memoryRole : Option String := none
  importance : Option ℚ := none
  confidence : Option ℚ := none
  confidenceSource : Option String := none
  sourceKind : Option String := none
  sourceId : Option String := none
  turnId : Option String := none
  evidence : Json := .null
  confidenceHistory : Option (List Json) := none
  dedupe : Bool := true

/-- `_validate_write_scope`, for a scope that the payload has checked. -/
def Router.validateWriteScope (scope sessionId : Option String) : Except RouteError Unit :=
  let resolved := match scope with
    | some s => some s
    | none => if (optionJson sessionId).truthy then some "session" else none
  require (.http 400 (.str "session_id is required for session scope"))
    (resolved = some "session" → (env.optionalId (optionJson sessionId)).isSome = true)

/-- What a new memory is routed by (`route_memory_write`). -/
def Router.newRouting (payload : NewMemory) (source : Metadata) (workspaceId : Option String) : Routing where
  text := payload.text
  type := .str (env.memoryTypeValue ((optionJson payload.type).or (source.value "type")))
  importance := env.coerceImportance
    ((payload.importance.map .num).getD ((source.get "importance").getD (.num (1 / 2))))
  sessionId := optionJson (env.optionalId (optionJson payload.sessionId))
  workspaceId := optionJson workspaceId
  metadata := source
  memoryRole := payload.memoryRole
  layer := optionJson payload.layer
  scope := optionJson payload.scope
  confidence := none
  confidenceSource := none

/-- `route_memory_write`: the metadata of `build_memory_metadata` under the governance of the role. -/
def Router.routedMetadata (routing : Routing) (role : String) : Metadata :=
  let m := routing.metadata.set "layer" (.str (env.resolveMemoryLayer routing))
    |>.set "scope" (.str (resolveMemoryScope routing))
    |>.set "type" routing.type
    |>.set "importance" (.num routing.importance)
    |>.set "timestamp" (.str env.localNow)
    |>.set "session_id" routing.sessionId
    |>.set "workspace_id" routing.workspaceId
    |>.set "memory_role" (.str role)
  applyMemoryRoleGovernance (env.scoreMemoryQuality routing m) role

/-- The provenance that the payload of a new memory carries. -/
def NewMemory.provenance (payload : NewMemory) : Provenance where
  sourceKind := payload.sourceKind
  sourceId := payload.sourceId
  turnId := payload.turnId
  evidence := payload.evidence
  metadata := payload.metadata
  confidenceHistory := payload.confidenceHistory

/-- The confidence of a new memory opens its history. -/
def openConfidence (m : Metadata) : Metadata :=
  m.set "confidence_history" (.arr (listItems (m.value "confidence_history") ++
    [.obj [("at", m.value "timestamp"), ("confidence", m.value "confidence"), ("source", .str "create")]]))

def Router.prepareNewMemory (payload : NewMemory) (docId : String) : Except RouteError Document := do
  let source ← env.normalizeExpiryForWrite (sanitizeCreateMetadata payload.metadata)
  let workspaceId ← env.resolveRequestWorkspaceId (optionJson payload.workspaceId) payload.scope true
  let routing := env.newRouting payload source workspaceId
  let role ← escaped (env.resolveMemoryRole routing)
  let m ← env.normalizeExpiryForWrite (env.routedMetadata routing role)
  let metadata ← escaped (env.appendAudit (openConfidence (applyProvenance m payload.provenance false)) "create" none)
  return { id := docId, text := payload.text, metadata }

/-- Whether a stored document may not be replaced by a create. -/
def Router.heldCandidate (m : Metadata) : Bool :=
  (m.value "candidate").truthy ∨ (m.value "candidate_deleted").truthy ∨ (m.value "candidate_id").truthy ∨
    (m.value "review_required").truthy ∨ reviewStatus env.tools m ∈ ["pending", "approved", "rejected", "deleted"]

/-- The answer where a candidate has the id of a new memory. -/
def Router.idCollision (docId : String) (m : Metadata) : RouteError :=
  .http 409 (.obj [("error", .str "memory_candidate_id_collision"),
    ("message", .str "Review candidate documents cannot be replaced through the create endpoint"),
    ("id", .str docId),
    ("review_status", if reviewStatus env.tools m = "" then .null else .str (reviewStatus env.tools m))])

/-- The check of an id that the client gives. -/
def Router.ensureReplaceable (s : SqliteStore) (payload : NewMemory) (docId : String) : Except RouteError Unit :=
  match payload.id, s.docs.get docId with
  | some _, some existing => do
    env.ensureDocScopeAccess existing.metadata payload.sessionId
    require (env.idCollision docId existing.metadata) (env.heldCandidate existing.metadata = false)
  | _, _ => .ok ()

/-- The id of a new memory: the client's, or a fresh one. -/
def NewMemory.docId (payload : NewMemory) (fresh : String) : String := textOr payload.id fresh

/-- `add_doc`. `similar` is what the search for duplicates finds, where it is made. -/
def Router.addDoc (s : SqliteStore) (payload : NewMemory) (fresh : String) (similar : Except RouteError (List Json)) :
    Handled Json :=
  let docId := payload.docId fresh
  let prepared := env.validateWriteScope payload.scope payload.sessionId >>= fun _ =>
    env.ensureReplaceable s payload docId >>= fun _ => env.prepareNewMemory payload docId
  match prepared with
  | .error e => (s, .error e)
  | .ok document =>
    match if payload.dedupe then similar else .ok [] with
    | .error e => (s, .error e)
    | .ok (c :: rest) => (s, .ok (.obj [("status", .str "duplicate_candidates"), ("skipped", .bool true),
        ("id", .str docId), ("duplicate_candidates", .arr (c :: rest))]))
    | .ok [] => (env.writeMemoryDocument s document).andThen fun s _ =>
        (s, .ok (.obj [("status", .str "ok"), ("id", .str docId)]))

/-- `add_memory`: a memory of little importance is skipped, and the id is always a fresh one. -/
def Router.addMemory (s : SqliteStore) (payload : NewMemory) (fresh : String) (similar : Except RouteError (List Json)) :
    Handled Json :=
  let text := PyStr.strip payload.text
  let gate := env.validateWriteScope payload.scope payload.sessionId >>= fun _ =>
    require (.http 400 (.str "text is required")) (text ≠ "")
  match gate with
  | .error e => (s, .error e)
  | .ok _ =>
    if env.coerceImportance ((payload.importance.map .num).getD (.num (1 / 2))) < 3 / 10 then
      (s, .ok (.obj [("skipped", .bool true), ("reason", .str "low_importance"), ("threshold", .num (3 / 10))]))
    else env.addDoc s { payload with id := none, text } fresh similar

end Update

/-! ## What an update leaves -/

section Frames

variable {τ : Type} {env : Router τ} {m stored : Metadata} {key role : String}

theorem get_restoreField {field : String} :
    (restoreField stored m field).get key = if key = field then stored.get key else m.get key := by
  unfold restoreField
  cases hfield : stored.get field with
  | some v =>
    show (m.set field v).get key = _
    rw [Dict.get_set]
    by_cases hkey : key = field
    · rw [if_pos hkey, if_pos hkey, hkey, hfield]
    · rw [if_neg hkey, if_neg hkey]
  | none =>
    show (m.erase field).get key = _
    rw [Dict.get_erase]
    by_cases hkey : key = field
    · rw [if_pos hkey, if_pos hkey, hkey, hfield]
    · rw [if_neg hkey, if_neg hkey]

theorem get_keepImmutable :
    (keepImmutable stored m).get key = if key ∈ immutableFields then stored.get key else m.get key := by
  unfold keepImmutable
  induction immutableFields generalizing m with
  | nil =>
    rw [if_neg List.not_mem_nil]
    rfl
  | cons field rest ih =>
    rw [List.foldl_cons, ih, get_restoreField]
    by_cases hkey : key = field
    · rw [if_pos hkey, ite_self, if_pos (List.mem_cons.mpr (Or.inl hkey))]
    · have hmem : key ∈ field :: rest ↔ key ∈ rest := List.mem_cons.trans (or_iff_right hkey)
      rw [if_neg hkey]
      exact if_congr hmem.symm rfl rfl

/-- The keys that an update sets, whatever its role. -/
def updateKeys : List String :=
  ["layer", "scope", "type", "memory_role", "importance", "timestamp", "updated_at", "session_id", "workspace_id",
    "confidence", "confidence_source", "quality_score", "source_kind", "source_id", "turn_id", "evidence",
    "confidence_history", "correction_history"]

/-- The keys that the governance of a role sets. -/
def governanceKeys : List String :=
  ["sensitivity", "sensitive_category", "review_required", "candidate", "review_status"]

theorem score_frame {routing : Routing} (hkey : key ∉ updateKeys) :
    (env.scoreMemoryQuality routing m).get key = m.get key := by
  have hne : key ≠ "confidence" ∧ key ≠ "confidence_source" ∧ key ≠ "quality_score" := by
    refine ⟨?_, ?_, ?_⟩ <;> exact fun heq => hkey (by rw [heq]; decide)
  unfold Router.scoreMemoryQuality
  dsimp only
  rw [Dict.get_set_of_ne hne.2.2, Dict.get_set_of_ne hne.2.1, Dict.get_set_of_ne hne.1]

theorem governance_frame (hkey : key ∉ updateKeys) (hrole : role = "tool_permission" → key ∉ governanceKeys) :
    (applyMemoryRoleGovernance m role).get key = m.get key := by
  have hne : key ≠ "memory_role" := fun heq => hkey (by rw [heq]; decide)
  unfold applyMemoryRoleGovernance
  dsimp only
  split
  · rename_i hpermission
    have hgovernance := hrole hpermission
    simp only [governanceKeys, List.mem_cons, List.not_mem_nil, or_false, not_or] at hgovernance
    obtain ⟨h1, h2, h3, h4, h5⟩ := hgovernance
    rw [Dict.get_set_of_ne h5, Dict.get_set_of_ne h4, Dict.get_set_of_ne h3, Dict.get_set_of_ne h2,
      Dict.get_set_of_ne h1, Dict.get_set_of_ne hne]
  · rw [Dict.get_set_of_ne hne]

theorem get_putProvenance {preserve : Bool} {e : String × Json} (hkey : key ≠ e.1) :
    (putProvenance preserve m e).get key = m.get key := by
  unfold putProvenance
  split
  · exact Dict.get_set_of_ne hkey
  · rfl

theorem foldl_putProvenance {preserve : Bool} {values : List (String × Json)} (hkey : ∀ e ∈ values, key ≠ e.1) :
    (values.foldl (putProvenance preserve) m).get key = m.get key := by
  induction values generalizing m with
  | nil => rfl
  | cons e rest ih =>
    have hrest : ∀ e' ∈ rest, key ≠ e'.1 := fun e' he' => hkey e' (List.mem_cons_of_mem _ he')
    rw [List.foldl_cons, ih hrest, get_putProvenance (hkey e List.mem_cons_self)]

theorem provenance_frame {provenance : Provenance} {preserve : Bool} (hkey : key ∉ updateKeys) :
    (applyProvenance m provenance preserve).get key = m.get key := by
  have hne (other : String) (hmem : other ∈ updateKeys) : key ≠ other := fun heq => hkey (heq ▸ hmem)
  unfold applyProvenance
  dsimp only
  rw [Dict.get_set_of_ne (hne "confidence_history" (by decide))]
  have hvalues : ∀ e ∈ provenance.values, key ≠ e.1 := by
    unfold Provenance.values
    intro e he
    obtain ⟨e', he', rfl⟩ := List.mem_map.mp he
    simp only [List.mem_cons, List.not_mem_nil, or_false] at he'
    rcases he' with rfl | rfl | rfl | rfl
    · exact hne "source_kind" (by decide)
    · exact hne "source_id" (by decide)
    · exact hne "turn_id" (by decide)
    · exact hne "evidence" (by decide)
  exact foldl_putProvenance hvalues

theorem recorded_frame {payload : Update} (hkey : key ∉ updateKeys) :
    (env.recordCorrection payload (env.recordConfidence payload stored m)).get key = m.get key := by
  have hconfidence : key ≠ "confidence_history" := fun heq => hkey (by rw [heq]; decide)
  have hcorrection : key ≠ "correction_history" := fun heq => hkey (by rw [heq]; decide)
  have hfirst : (env.recordConfidence payload stored m).get key = m.get key := by
    unfold Router.recordConfidence
    split
    · rfl
    · split
      · rfl
      · exact Dict.get_set_of_ne hconfidence
  unfold Router.recordCorrection
  dsimp only
  split
  · rw [Dict.get_set_of_ne hcorrection, hfirst]
  · exact hfirst

theorem updated_frame {payload : Update} {routing : Routing} {decided : Decided} (hkey : key ∉ updateKeys)
    (hrole : decided.role = "tool_permission" → key ∉ governanceKeys) :
    (env.updatedMetadata payload stored routing decided).get key = routing.metadata.get key := by
  have hne (other : String) (hmem : other ∈ updateKeys) : key ≠ other := fun heq => hkey (heq ▸ hmem)
  unfold Router.updatedMetadata
  dsimp only
  rw [recorded_frame hkey, provenance_frame hkey, governance_frame hkey hrole, score_frame hkey,
    Dict.get_set_of_ne (hne "workspace_id" (by decide)), Dict.get_set_of_ne (hne "session_id" (by decide)),
    Dict.get_set_of_ne (hne "updated_at" (by decide)), Dict.get_set_of_ne (hne "timestamp" (by decide)),
    Dict.get_set_of_ne (hne "importance" (by decide)), Dict.get_set_of_ne (hne "memory_role" (by decide)),
    Dict.get_set_of_ne (hne "type" (by decide)), Dict.get_set_of_ne (hne "scope" (by decide)),
    Dict.get_set_of_ne (hne "layer" (by decide))]

theorem updateContent_ok {existing content : Content} {payload : Update} {auditAction docId : String} {answer : Json}
    (h : env.updateContent payload auditAction docId existing = .ok ⟨answer, some content⟩) :
    ∃ decided, env.decideUpdate (env.updateRouting payload (updatedText payload existing)
        (payload.merged existing.metadata)) = .ok decided ∧ content.text = updatedText payload existing ∧
      env.appendAudit (env.updatedMetadata payload existing.metadata (env.updateRouting payload
        (updatedText payload existing) (payload.merged existing.metadata)) decided) auditAction payload.editReason
        (some (beforeUpdate existing)) = .ok content.metadata := by
  obtain ⟨_, -, h⟩ := bind_ok.mp h
  obtain ⟨decided, hdecided, h⟩ := bind_ok.mp h
  obtain ⟨metadata, hmetadata, h⟩ := bind_ok.mp h
  have hcontent : { text := updatedText payload existing, metadata } = content := by
    have hedit := pure_ok.mp h
    injection hedit with _ hsome
    exact Option.some.inj hsome
  subst hcontent
  exact ⟨decided, hdecided, rfl, escaped_ok.mp hmetadata⟩

end Frames

end Memory
