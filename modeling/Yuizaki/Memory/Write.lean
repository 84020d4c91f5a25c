import Yuizaki.Memory.Fields

/- How the memory routes write (`_write_memory_document` and `_delete_memory_documents` in
   `modules/memory/routes.py`).

   Routes run one at a time, under a lock of their own. A route that raises keeps what it has
   written until then, so it gives the store beside its answer or its error. Every edit of a
   document goes through one helper, which checks the dates again, refuses retired fields,
   keeps the version before and writes the document. -/
namespace Memory

open Fallible

/-! ## Routes -/

/-- A store, and how what was done to it ended. -/
abbrev Handled (α : Type) := SqliteStore × Except RouteError α

/-- What follows where nothing was raised. -/
def Handled.andThen {α β : Type} (x : Handled α) (f : SqliteStore → α → Handled β) : Handled β :=
  match x with
  | (s, .ok a) => f s a
  | (s, .error e) => (s, .error e)

def eachOf {β : Type} (f : SqliteStore → β → Handled Unit) : List β → SqliteStore → Handled Unit
  | [], s => (s, .ok ())
  | b :: rest, s => (f s b).andThen fun s _ => eachOf f rest s

def stored {α : Type} (x : SqliteStore × Except PyError α) : Handled α := (x.1, escaped x.2)

section Write

variable {τ : Type} [LinearOrder τ] (env : Router τ)

/-! ## Access -/

def Router.ensureDocInActiveWorkspace (m : Metadata) : Except RouteError Unit :=
  match env.active, env.optionalId (m.value "workspace_id") with
  | some active, some workspace =>
    require (.http 403 (.obj [("error", .str "workspace_mismatch"),
      ("message", .str "Memory document does not belong to the active workspace"),
      ("active_workspace_id", .str active), ("document_workspace_id", .str workspace)])) (workspace = active)
  | _, _ => .ok ()

/-- `_ensure_doc_scope_access`: a document of a session is open to that session alone. -/
def Router.ensureDocScopeAccess (m : Metadata) (sessionId : Option String) : Except RouteError Unit := do
  env.ensureDocInActiveWorkspace m
  let documentSession := env.optionalId (m.value "session_id")
  let requestedSession := env.optionalId (optionJson sessionId)
  require (.http 403 (.obj [("error", .str "session_mismatch"),
      ("message", .str "Session-scoped memory requires its owning session"),
      ("document_session_id", optionJson documentSession)]))
    (env.tools.str ((m.value "scope").or (.str "workspace")) = "session" →
      documentSession.isSome = true ∧ requestedSession = documentSession)

/-- `memory document not found`. -/
def notFound : RouteError := .http 404 (.str "memory document not found")

/-! ## The write helper -/

def Router.normalizeExpiryForWrite (m : Metadata) : Except RouteError Metadata :=
  badRequest (normalizeMemoryExpiry env.tools env.now m >>= normalizeMemoryValidity env.tools)

def retiredFields : List String := ["archived_at", "deleted_at", "maintenance_reasons", "state", "superseded_at"]

def rejectedFields (m : Metadata) : List String := retiredFields.filter (fun key => (m.get key).isSome)

def retiredError (m : Metadata) : RouteError :=
  .http 422 (.obj [("error", .str "retired_memory_fields"), ("fields", .arr ((rejectedFields m).map .str)),
    ("message", .str "Memory lifecycle fields are not supported")])

/-- The version of a document kept, unless the new metadata has it. -/
def Router.keepVersion (docId : String) (existing : Content) (m : Metadata) : Except RouteError Metadata := do
  let old ← escaped (normalizeMemoryMetadata env.tools env.now existing.metadata)
  if hasPriorVersionSnapshot m (normalizedRevision env.tools old) existing.text then return m
  else escaped (appendMemoryVersion env.tools env.now docId existing.text existing.metadata m)

/-- `_write_memory_document` up to the store: the metadata that is written. -/
def Router.prepareWrite (existing : Option Content) (doc : Document) : Except RouteError Metadata := do
  let m ← env.normalizeExpiryForWrite doc.metadata
  require (retiredError m) (rejectedFields m = [])
  match existing with
  | none => escaped (normalizeMemoryMetadata env.tools env.now m)
  | some content =>
    env.ensureDocInActiveWorkspace content.metadata
    let m ← escaped (normalizeMemoryMetadata env.tools env.now m)
    env.keepVersion doc.id content m

/-- `_record_operation`: an operation must name its document. -/
def recordOperation (docId : String) : Except RouteError Unit :=
  require (.raised .valueError) (PyStr.strip docId ≠ "")

def Router.writeMemoryDocument (s : SqliteStore) (doc : Document) : Handled Unit :=
  match env.prepareWrite (s.docs.get doc.id) doc with
  | .error e => (s, .error e)
  | .ok metadata =>
    (stored (s.addDocument env.tools env.now (env.faults doc.id) { doc with metadata })).andThen fun s _ =>
      (s, recordOperation doc.id)

/-- The answer of a route and the document it leaves, where it changes one. -/
structure Edit where
  answer : Json
  content : Option Content := none

/-- A route that edits one document: it is found, the caller may have it, and what the route
makes of it is written. -/
def Router.editDoc (s : SqliteStore) (docId : String) (sessionId : Option String)
    (change : Content → Except RouteError Edit) : Handled Json :=
  match s.docs.get docId with
  | none => (s, .error notFound)
  | some existing =>
    match env.ensureDocScopeAccess existing.metadata sessionId >>= fun _ => change existing with
    | .error e => (s, .error e)
    | .ok ⟨answer, none⟩ => (s, .ok answer)
    | .ok ⟨answer, some content⟩ =>
      (env.writeMemoryDocument s { content with id := docId }).andThen fun s _ => (s, .ok answer)

/-! ## Deleting -/

/-- The metadata of a candidate that is deleted. -/
def Router.tombstone (m : Metadata) : Except RouteError Metadata :=
  let marked := m.set "review_status" (.str "deleted")
    |>.set "candidate_deleted_at" (.str env.utcNow)
    |>.set "candidate_deleted" (.bool true)
  escaped (env.appendAudit marked "delete_candidate" (some "candidate_deleted"))

/-- Whether a document is a review candidate. -/
def Content.candidate (c : Content) : Bool := (c.metadata.value "candidate").truthy

/-- One deletion, and its operation where there was a document. -/
def Router.deleteOne (documents : Dict String Content) (s : SqliteStore) (docId : String) : Handled Unit :=
  (stored (s.deleteDocument (env.faults docId) docId)).andThen fun s _ =>
    (s, if (documents.get docId).isSome then recordOperation docId else .ok ())

/-- The tombstone of a candidate that was deleted. -/
def Router.buryOne (s : SqliteStore) (e : String × Content) : Handled Unit :=
  match env.tombstone e.2.metadata with
  | .error error => (s, .error error)
  | .ok metadata =>
    stored (s.addMetadataDocument env.tools env.now (env.faults e.1) { id := e.1, text := e.2.text, metadata })

/-- `_delete_memory_documents`: candidates leave a tombstone. -/
def Router.deleteMemoryDocuments (s : SqliteStore) (docIds : List String) : Handled Unit :=
  let candidates := s.docs.entries.filter (fun e => e.1 ∈ docIds ∧ e.2.candidate = true)
  (eachOf (env.deleteOne s.docs) docIds s).andThen fun s _ => eachOf env.buryOne candidates s

end Write

/-! ## What the helper accepts -/

section Accept

variable {s s' : SqliteStore}

theorem andThen_ok {α β : Type} {x : Handled α} {f : SqliteStore → α → Handled β} {b : β} :
    x.andThen f = (s', .ok b) ↔ ∃ a, x.2 = .ok a ∧ f x.1 a = (s', .ok b) := by
  obtain ⟨s, e | a⟩ := x
  · exact ⟨fun h => (by cases h), fun ⟨_, h, _⟩ => (by cases h)⟩
  · refine ⟨fun h => ⟨_, rfl, h⟩, fun ⟨a, ha, h⟩ => ?_⟩
    obtain rfl := Except.ok.inj ha
    exact h

theorem andThen_keeps {α β : Type} {P : SqliteStore → Prop} {x : Handled α} {f : SqliteStore → α → Handled β}
    (h : P x.1) (hf : ∀ a, x.2 = .ok a → P (f x.1 a).1) : P (x.andThen f).1 := by
  obtain ⟨s, e | a⟩ := x
  · exact h
  · exact hf a rfl

theorem eachOf_keeps {β : Type} {P : SqliteStore → Prop} {f : SqliteStore → β → Handled Unit} {items : List β}
    (hf : ∀ s, ∀ b ∈ items, P s → P (f s b).1) (h : P s) : P (eachOf f items s).1 := by
  induction items generalizing s with
  | nil => exact h
  | cons b rest ih =>
    have hfirst : P (f s b).1 := hf s b List.mem_cons_self h
    exact andThen_keeps hfirst fun _ _ => ih (fun s b' hb' => hf s b' (List.mem_cons_of_mem _ hb')) hfirst

end Accept

end Memory
