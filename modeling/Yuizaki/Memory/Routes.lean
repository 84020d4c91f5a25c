import Yuizaki.Memory.Write

/- The routes that change memories (`create_memory_router` in `modules/memory/routes.py`).

   Creating and updating decide every field of a memory; the others set a few fields and write
   the document again, all through the same helper. -/
namespace Memory

open Fallible

section Routes

variable {τ : Type} [LinearOrder τ] (env : Router τ)

/-! ## Lifecycle -/

def editMetadata (existing : Content) (answer : List (String × Json)) (m : Except PyError Metadata) :
    Except RouteError Edit := do
  let metadata ← escaped m
  return { answer := .obj answer, content := some { existing with metadata } }

/-- `delete_doc`: a candidate stays as a tombstone. -/
def Router.deleteDoc (s : SqliteStore) (docId : String) (sessionId : Option String) : Handled Json :=
  match s.docs.get docId with
  | none => (s, .error notFound)
  | some existing =>
    if existing.candidate then
      env.editDoc s docId sessionId fun existing => do
        let metadata ← env.tombstone existing.metadata
        return {
          answer := .obj [("status", .str "deleted"), ("id", .str docId), ("tombstone", .bool true)]
          content := some { existing with metadata } }
    else match env.ensureDocScopeAccess existing.metadata sessionId with
      | .error e => (s, .error e)
      | .ok _ => (env.deleteMemoryDocuments s [docId]).andThen fun s _ =>
        (s, .ok (.obj [("status", .str "deleted"), ("id", .str docId)]))

structure Review where
  approve : Bool
  reason : Option String
  sessionId : Option String

/-- What a review answers where the candidate is deleted or rejected. -/
def reviewRefused (deleted : Bool) : RouteError :=
  .http 409 (.str (if deleted then "deleted memory candidate cannot be reviewed"
    else "rejected memory candidate cannot be reviewed"))

/-- `review_doc`. The status is compared as it is stored, not stripped. -/
def Router.reviewDoc (s : SqliteStore) (docId : String) (review : Review) : Handled Json :=
  env.editDoc s docId review.sessionId fun existing => do
    let m := existing.metadata
    require (.http 409 (.str "memory document is not a review candidate")) ((m.value "candidate").truthy = true)
    let status := PyStr.lower env.tools.wide (env.tools.str ((m.value "review_status").or (.str "")))
    let gone := (m.value "candidate_deleted").truthy ∨ status = "deleted"
    require (reviewRefused gone) (¬ gone ∧ status ≠ "rejected")
    let decided := if review.approve then "approved" else "rejected"
    let m := m.set "review_status" (.str decided)
      |>.set "reviewed_at" (.str env.utcNow)
      |>.set "review_reason" (optionJson review.reason)
    let action := if review.approve then "review_approve" else "review_reject"
    editMetadata existing [("status", .str decided), ("id", .str docId)]
      (env.appendAudit m action review.reason)

structure SoftForget where
  reason : Option String
  turnId : Option String
  sessionId : Option String

/-- `value or default` on texts. -/
def textOr (value : Option String) (default : String) : String :=
  match value with
  | some s => if s = "" then default else s
  | none => default

def Router.softForgetDoc (s : SqliteStore) (docId : String) (payload : SoftForget) : Handled Json :=
  env.editDoc s docId payload.sessionId fun existing =>
    let m := existing.metadata.set "soft_forgotten" (.bool true) |>.set "soft_forgotten_at" (.str env.localNow)
    let turn := optionJson payload.turnId
    let m := if turn.truthy then m.set "soft_forget_turn_id" turn else m
    editMetadata existing
      [("status", .str "soft_forgotten"), ("id", .str docId), ("action", .str "soft_forget")]
      (env.appendAudit m "soft_forget" (some (textOr payload.reason "conversational_soft_forget"))
        (some (.obj [("text", .str existing.text)])))

/-- The answer of `restore_doc`. -/
def restoreAnswer (docId : String) (changed : Bool) : List (String × Json) :=
  [("status", .str "active"), ("id", .str docId), ("action", .str "restore"), ("changed", .bool changed)]

def Router.restoreDoc (s : SqliteStore) (docId : String) (payload : SoftForget) : Handled Json :=
  env.editDoc s docId payload.sessionId fun existing =>
    if (existing.metadata.value "soft_forgotten").truthy then
      let m := ((existing.metadata.erase "soft_forgotten").erase "soft_forgotten_at").erase "soft_forget_turn_id"
      editMetadata existing (restoreAnswer docId true)
        (env.appendAudit m "restore" (some (textOr payload.reason "memory_restore")))
    else .ok { answer := .obj (restoreAnswer docId false) }

/-! ## Rollback -/

structure Rollback where
  revision : ℤ
  reason : Option String
  sessionId : Option String

def snapshotOf (snapshots : List Json) (revision : ℤ) : Option Json :=
  snapshots.reverse.find? fun item => isObject item ∧ (item.get "revision").same (.int revision) = true

/-- The answer where a revision is not retained. -/
def Router.revisionNotFound (current : Metadata) (revision : ℤ) : RouteError :=
  let snapshots := listItems (current.value "version_history")
  match env.tools.toInt (Json.or ((current.get "version_history_truncated").getD (.int 0)) (.int 0)) with
  | .error e => .raised e
  | .ok truncated => .http 404 (.obj [("error", .str "memory_revision_not_found"), ("revision", .int revision),
      ("retained_revisions", .arr ((snapshots.filter isObject).map fun item => item.get "revision")),
      ("truncated_count", .int truncated)])

def entriesOf : Json → List (String × Json)
  | .obj kvs => kvs
  | _ => []

/-- The histories that a rollback keeps. -/
def rollbackHistories : List String := ["audit", "confidence_history", "correction_history"]

/-- The lifecycle that a rollback keeps. -/
def rollbackLifecycle : List String :=
  ["soft_forgotten", "soft_forgotten_at", "soft_forget_turn_id", "superseded_by", "candidate_deleted",
    "candidate_deleted_at"]

/-- The metadata of a snapshot with what a rollback keeps of the current metadata. -/
def Router.restoredMetadata (current : Metadata) (snapshot : Json) : Metadata :=
  let snapshots := listItems (current.value "version_history")
  let m := (Metadata.ofEntries (entriesOf (snapshot.get "metadata"))).set "version_history" (.arr snapshots)
  let truncated := current.value "version_history_truncated"
  let m := if truncated.truthy then m.set "version_history_truncated" truncated else m
  let m := keepFields (rollbackHistories ++ rollbackLifecycle) current m
  let status := reviewStatus env.tools current
  if status = "deleted" ∨ status = "rejected" then
    keepFields ["reviewed_at", "review_reason"] current (m.set "review_status" (.str status))
  else m

/-- The answer of `rollback_doc`. -/
def rollbackAnswer (docId : String) (payload : Rollback) (current : ℤ) (changed : Bool) : Json :=
  if changed then
    .obj [("status", .str "rolled_back"), ("id", .str docId), ("action", .str "rollback"), ("changed", .bool true),
      ("restored_revision", .int payload.revision), ("revision", .int (current + 1))]
  else
    .obj [("status", .str "active"), ("id", .str docId), ("action", .str "rollback"), ("changed", .bool false),
      ("revision", .int current)]

/-- The document that a rollback leaves, from a retained snapshot. -/
def Router.rollbackContent (existing : Content) (current : Metadata) (revision : ℤ) (snapshot : Json)
    (payload : Rollback) : Except RouteError Content := do
  let text := PyStr.strip (env.tools.str ((snapshot.get "text").or (.str "")))
  require (.http 409 (.str "memory revision contains no text")) (text ≠ "")
  let metadata ← escaped (env.appendAudit (env.restoredMetadata current snapshot) "rollback"
    (some (textOr payload.reason "user_requested_rollback"))
    (some (.obj [("revision", .int revision), ("text", .str existing.text)])))
  return { text, metadata }

def Router.rollbackDoc (s : SqliteStore) (docId : String) (payload : Rollback) : Handled Json :=
  env.editDoc s docId payload.sessionId fun existing => do
    let current ← escaped (normalizeMemoryMetadata env.tools env.now existing.metadata)
    let revision := normalizedRevision env.tools existing.metadata
    if payload.revision = revision then return { answer := rollbackAnswer docId payload revision false }
    else
      match snapshotOf (listItems (current.value "version_history")) payload.revision with
      | none => throw (env.revisionNotFound current payload.revision)
      | some snapshot =>
        require (env.revisionNotFound current payload.revision) (isObject (snapshot.get "metadata") = true)
        let content ← env.rollbackContent existing current revision snapshot payload
        return { answer := rollbackAnswer docId payload revision true, content := some content }

/-! ## Batch delete -/

def Router.roleOfDocument (m : Metadata) : Except PyError String :=
  let inner := m.value "metadata"
  env.resolveMemoryRole
    { text := ""
      type := m.value "type"
      importance := 0
      sessionId := .null
      workspaceId := .null
      metadata := Metadata.ofEntries (entriesOf inner)
      memoryRole := if m.value "memory_role" = .null then none else some (env.tools.str (m.value "memory_role"))
      layer := m.value "layer"
      scope := .null
      confidence := none
      confidenceSource := none }

/-- The answer where documents of a batch are missing. -/
def missingDocuments (missing : List String) : RouteError :=
  .http 404 (.obj [("error", .str "memory_documents_not_found"),
    ("message", .str "Some memory documents were not found"), ("missing_count", .int missing.length),
    ("ids", .arr ((missing.take 20).map .str))])

/-- The tombstone of one candidate of a batch, from what was read before. -/
def Router.buryCandidate (documents : Dict String Content) (s : SqliteStore) (docId : String) : Handled Unit :=
  match documents.get docId with
  | none => (s, .ok ())
  | some existing =>
    match env.tombstone existing.metadata with
    | .error e => (s, .error e)
    | .ok metadata => env.writeMemoryDocument s { id := docId, text := existing.text, metadata }

def Router.ensureAll (documents : Dict String Content) (docIds : List String) (sessionId : Option String) :
    Except RouteError Unit :=
  docIds.forM fun docId => match documents.get docId with
    | some existing => env.ensureDocScopeAccess existing.metadata sessionId
    | none => .ok ()

/-- The roles that the answer of a batch counts. -/
def Router.countRoles (documents : Dict String Content) (docIds : List String) : Except RouteError Unit :=
  docIds.forM fun docId => match documents.get docId with
    | some existing => (escaped (env.roleOfDocument existing.metadata)).map fun _ => ()
    | none => .ok ()

/-- A document of a batch that is a candidate. -/
def isCandidate (documents : Dict String Content) (docId : String) : Bool :=
  (documents.get docId).any Content.candidate

/-- `batch_delete_docs`: candidates are rewritten one by one, the others are deleted after
them, and the roles are counted for the answer. -/
def Router.batchDeleteDocs (s : SqliteStore) (docIds : List String) (sessionId : Option String) : Handled Json :=
  let documents := s.docs
  let missing := docIds.filter (fun docId => documents.get docId = none)
  match require (missingDocuments missing) (missing = []) >>= fun _ => env.ensureAll documents docIds sessionId with
  | .error e => (s, .error e)
  | .ok _ =>
    let candidates := docIds.filter (isCandidate documents)
    let others := docIds.filter (fun docId => docId ∉ candidates)
    (eachOf (env.buryCandidate documents) candidates s).andThen fun s _ =>
      let deleted : Handled Unit := if others = [] then (s, .ok ()) else env.deleteMemoryDocuments s others
      deleted.andThen fun s _ =>
        (s, (env.countRoles documents docIds).map fun _ =>
          .obj [("status", .str "deleted"), ("ids", .arr (docIds.map .str)),
            ("deleted_count", .int docIds.length)])

end Routes

end Memory
