import Yuizaki.Lib.Keyset
import Yuizaki.Memory.Metadata
import Mathlib.Data.String.Basic

/- The SQLite memory store (`modules/memory/sqlite_store.py`).

   The table of documents is the authority; the documents in memory are a copy of it. Every
   method runs under the store's lock and writes in one transaction, which also raises the
   authority revision. A method can raise where SQLite or the embedding service does: a
   transaction that raises is rolled back, an embedding is asked for after the transaction. -/
namespace Memory

structure Content where
  text : String
  metadata : Metadata
deriving DecidableEq

/-- A document: what is stored under an id. -/
structure Document extends Content where
  id : String
deriving DecidableEq

/-- The active generation of the search index. -/
structure ActiveIndex where
  generation : String
  snapshotRevision : ℕ
  embeddingConfigRevision : String
deriving DecidableEq

/-- The store: the tables `memory_documents` and `memory_authority_state`, and the documents
    in memory. -/
structure SqliteStore where
  rows : Dict String Content := Dict.empty
  revision : ℕ := 0
  active : Option ActiveIndex := none
  docs : Dict String Content := Dict.empty
deriving DecidableEq

structure Faults where
  sql : Bool := false
  embedding : Bool := false

variable {τ : Type} (tools : MetadataTools τ) (now : τ)

/-! ## Writes -/

def latestAction (m : Metadata) : Json :=
  match (listItems (m.value "audit")).getLast? with
  | some (.obj kvs) => (Json.obj kvs).get "action"
  | _ => .null

/-- The lifecycle fields that a write without them does not take away. -/
def lifecycleFields : List String :=
  ["soft_forgotten", "soft_forgotten_at", "soft_forget_turn_id", "superseded_by"]

/-- A field of the stored metadata, where the new one lacks it. -/
def keepMissing (existing m : Metadata) (key : String) : Metadata :=
  match existing.get key with
  | some v => m.setDefault key v
  | none => m

/-- Lifecycle fields of the stored metadata that the new one lacks. -/
def keepLifecycle (existing metadata : Metadata) : Metadata :=
  lifecycleFields.foldl (keepMissing existing) metadata

/-- The metadata with its lifecycle fields: only a write that says it restores the document
    can take them away. -/
def withLifecycle (existing metadata : Metadata) : Metadata :=
  if latestAction metadata = .str "restore" then metadata else keepLifecycle existing metadata

/-- The metadata that `_persist` writes over a row. -/
def replacingMetadata (existing : Content) (docId : String) (metadata : Metadata) :
    Except PyError Metadata := do
  let merged ← mergeAppendOnlyMetadata tools existing.metadata metadata
  let merged := withLifecycle existing.metadata merged
  let old ← normalizeMemoryMetadata tools now existing.metadata
  if hasPriorVersionSnapshot merged (normalizedRevision tools old) existing.text then return merged
  else appendMemoryVersion tools now docId existing.text existing.metadata merged

/-- The metadata that `_persist` writes. -/
def persistedMetadata (existing : Option Content) (doc : Document) : Except PyError Metadata := do
  let metadata ← normalizeMemoryMetadata tools now doc.metadata
  match existing with
  | none => return metadata
  | some row => replacingMetadata tools now row doc.id metadata

namespace SqliteStore

/-- `_persist`: the row, the revision, and the metadata the document is left with. -/
def persist (faults : Faults) (s : SqliteStore) (doc : Document) :
    Except PyError (SqliteStore × Metadata) := do
  let metadata ← persistedMetadata tools now (s.rows.get doc.id) doc
  if faults.sql then .error .sqlError
  else return ({ s with
    rows := s.rows.set doc.id ⟨doc.text, metadata⟩
    revision := s.revision + 1 }, metadata)

theorem persist_ok {tools : MetadataTools τ} {now : τ} {faults : Faults} {s s' : SqliteStore}
    {doc : Document} {metadata : Metadata}
    (h : s.persist tools now faults doc = .ok (s', metadata)) :
    persistedMetadata tools now (s.rows.get doc.id) doc = .ok metadata ∧ faults.sql = false ∧
      s' = { s with
        rows := s.rows.set doc.id ⟨doc.text, metadata⟩
        revision := s.revision + 1 } := by
  unfold persist at h
  cases hmetadata : persistedMetadata tools now (s.rows.get doc.id) doc with
  | error e =>
    rw [hmetadata] at h
    cases h
  | ok m =>
    rw [hmetadata] at h
    cases hsql : faults.sql with
    | true =>
      rw [hsql] at h
      cases h
    | false =>
      rw [hsql] at h
      cases h
      exact ⟨rfl, rfl, rfl⟩

/-- `add_document`: the embedding is made after the row is written. -/
def addDocument (faults : Faults) (s : SqliteStore) (doc : Document) :
    SqliteStore × Except PyError Unit :=
  match s.persist tools now faults doc with
  | .error e => (s, .error e)
  | .ok (written, metadata) =>
    if faults.embedding then (written, .error .embeddingError)
    else ({ written with docs := s.docs.set doc.id ⟨doc.text, metadata⟩ }, .ok ())

def addMetadataDocument (faults : Faults) (s : SqliteStore) (doc : Document) :
    SqliteStore × Except PyError Unit :=
  match s.persist tools now faults doc with
  | .error e => (s, .error e)
  | .ok (written, metadata) =>
    ({ written with docs := s.docs.set doc.id ⟨doc.text, metadata⟩ }, .ok ())

/-- Metadata put in place under an id that is there. -/
def putMetadata (docs : Dict String Content) (id : String) (metadata : Metadata) :
    Dict String Content :=
  match docs.get id with
  | some content => docs.set id { content with metadata }
  | none => docs

def updateMetadata (faults : Faults) (s : SqliteStore) (id : String) (metadata : Metadata) :
    SqliteStore × Except PyError Unit :=
  match normalizeMemoryMetadata tools now metadata with
  | .error e => (s, .error e)
  | .ok normalized =>
    if faults.sql then (s, .error .sqlError)
    else if (s.rows.get id).isNone then (s, .error .keyError)
    else ({ s with
      rows := putMetadata s.rows id normalized
      revision := s.revision + 1
      docs := putMetadata s.docs id normalized }, .ok ())

/-- `delete_document`: only a row that was there raises the revision. -/
def deleteDocument (faults : Faults) (s : SqliteStore) (id : String) :
    SqliteStore × Except PyError Unit :=
  if faults.sql then (s, .error .sqlError)
  else ({ s with
    rows := s.rows.erase id
    revision := if (s.rows.get id).isSome then s.revision + 1 else s.revision
    docs := s.docs.erase id }, .ok ())

/-- Whether the migration writes a row: normalization changes it. -/
def legacy (content : Content) : Bool :=
  match normalizeMemoryMetadata tools now content.metadata with
  | .ok normalized => !Metadata.same normalized content.metadata
  | .error _ => false

def migrated (content : Content) : Except PyError Content := do
  let normalized ← normalizeMemoryMetadata tools now content.metadata
  if Metadata.same normalized content.metadata then return content
  else return { content with metadata := normalized }

/-- The first exception of the migration. -/
def migrationError (rows : Dict String Content) : Option PyError :=
  rows.entries.findSome? (fun e => match migrated tools now e.2 with
    | .error error => some error
    | .ok _ => none)

/-- The rows after `_migrate_legacy_metadata`. -/
def migratedRows (rows : Dict String Content) : Dict String Content :=
  rows.mapValues (fun _ content => ((migrated tools now content).toOption).getD content)

theorem migrated_of_not_legacy {tools : MetadataTools τ} {now : τ} {content : Content} (h : legacy tools now content = false) :
    ((migrated tools now content).toOption).getD content = content := by
  unfold legacy at h
  unfold migrated
  cases hnormal : normalizeMemoryMetadata tools now content.metadata with
  | error e => rfl
  | ok normalized =>
    rw [hnormal] at h
    have hsame : Metadata.same normalized content.metadata = true := by
      simpa using h
    simp only [bind, Except.bind, hsame, if_true]
    rfl

theorem migratedRows_of_none {tools : MetadataTools τ} {now : τ} {rows : Dict String Content}
    (h : rows.entries.any (fun e => legacy tools now e.2) = false) :
    migratedRows tools now rows = rows := by
  unfold migratedRows Dict.mapValues
  have hkept : rows.entries.map
      (fun e => (e.1, ((migrated tools now e.2).toOption).getD e.2)) = rows.entries := by
    rw [List.map_congr_left (g := id), List.map_id]
    intro e he
    have hrow : legacy tools now e.2 = false := by
      have hall := List.any_eq_false.mp h e he
      simpa using hall
    rw [migrated_of_not_legacy hrow]
    rfl
  cases rows
  simp only [hkept]

/-- A new store on the same file: `_migrate_legacy_metadata`, then `_load_documents`. -/
def reopen (faults : Faults) (s : SqliteStore) : SqliteStore × Except PyError Unit :=
  match migrationError tools now s.rows with
  | some e => (s, .error e)
  | none =>
    let rows := migratedRows tools now s.rows
    if s.rows.entries.any (fun e => legacy tools now e.2) then
      if faults.sql then (s, .error .sqlError)
      else ({ s with rows, revision := s.revision + 1, docs := rows }, .ok ())
    else ({ s with docs := rows }, .ok ())

end SqliteStore

/-- The methods that write documents, and a new store on the file. -/
inductive StoreOp where
  | add (doc : Document)
  | addMetadata (doc : Document)
  | updateMetadata (id : String) (metadata : Metadata)
  | delete (id : String)
  | reopen

/-- The store after a method, and how the method ended. -/
def SqliteStore.apply (faults : Faults) (s : SqliteStore) : StoreOp → SqliteStore × Except PyError Unit
  | .add doc => s.addDocument tools now faults doc
  | .addMetadata doc => s.addMetadataDocument tools now faults doc
  | .updateMetadata id metadata => s.updateMetadata tools now faults id metadata
  | .delete id => s.deleteDocument faults id
  | .reopen => s.reopen tools now faults

/-! ## Snapshots -/

/-- How a read pinned to a revision can end. -/
inductive SnapshotError where
  | valueError
  | overflowError
  | revisionMismatch (expected actual : ℕ)
deriving DecidableEq

/-- The greatest number that SQLite takes as a parameter. -/
def maxSqliteInteger : ℤ := 9223372036854775807

namespace SqliteStore

def toDocument (e : String × Content) : Document := { e.2 with id := e.1 }

def listDocumentsPage (s : SqliteStore) (snapshotRevision : ℕ) (cursorKey : Option String)
    (limit : ℤ) : Except SnapshotError (List Document) :=
  if limit ≤ 0 then .error .valueError
  else if s.revision ≠ snapshotRevision then
    .error (.revisionMismatch snapshotRevision s.revision)
  else if limit > maxSqliteInteger then .error .overflowError
  else .ok ((Keyset.page s.rows cursorKey limit.toNat).map toDocument)

theorem listDocumentsPage_ok {s : SqliteStore} {snapshotRevision : ℕ} {cursorKey : Option String}
    {limit : ℤ} {docs : List Document}
    (h : s.listDocumentsPage snapshotRevision cursorKey limit = .ok docs) :
    0 < limit ∧ s.revision = snapshotRevision ∧
      docs = (Keyset.page s.rows cursorKey limit.toNat).map toDocument := by
  unfold listDocumentsPage at h
  split at h
  · cases h
  · rename_i hroom
    split at h
    · cases h
    · rename_i hrevision
      split at h
      · cases h
      · exact ⟨Int.not_le.mp hroom, not_not.mp hrevision, (Except.ok.inj h).symm⟩

def activateIndexGeneration (s : SqliteStore) (index : ActiveIndex) :
    Except SnapshotError SqliteStore :=
  if index.generation = "" then .error .valueError
  else if s.revision ≠ index.snapshotRevision then
    .error (.revisionMismatch index.snapshotRevision s.revision)
  else .ok { s with active := some index }

end SqliteStore

end Memory
