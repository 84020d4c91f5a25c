import Yuizaki.Memory.Update

/- The requests that change memories, as one step of the service.

   Feedback on what was recalled changes the metadata alone, beside the versions. Maintenance
   deletes whatever documents its plan names. An import is one create, and one request to
   forget, for each document of the bundle. Between two requests the store may be opened again
   on the same file. -/
namespace Memory

open Fallible

section Requests

variable {τ : Type} [LinearOrder τ] (env : Router τ)

/-! ## Feedback -/

/-- `int(value or 0)`. -/
def Router.intOrZero (value : Json) : Except PyError ℤ := env.tools.toInt (value.or (.int 0))

/-- The counts of `recall_feedback` after one more. -/
def Router.countFeedback (summary : Json) (feedback : String) : Except PyError (List (String × Json)) := do
  let counts := entriesOf ((summary.get "summary").or (summary.get "counts"))
  let before ← env.intOrZero ((Json.obj counts).get feedback)
  let counts := Json.setEntry counts feedback (.int (before + 1))
  counts.mapM fun e => (env.intOrZero e.2).map fun n => (e.1, .int (max 0 n))

/-- The `recall_feedback` of a document after one more. -/
def Router.recallFeedback (m : Metadata) (feedback : String) : Except PyError Json := do
  let summary := Json.obj (entriesOf (m.value "recall_feedback"))
  let counts ← env.countFeedback summary feedback
  let events := listItems (summary.get "events") ++
    [.obj [("feedback", .str feedback), ("at", .str env.utcNow)]]
  let kept := (entriesOf summary).filter fun e => e.1 ≠ "counts"
  return .obj (Json.setEntry (Json.setEntry kept "summary" (.obj counts)) "events" (.arr (lastItems 50 events)))

def Router.feedbackDoc (s : SqliteStore) (docId feedback : String) (sessionId : Option String) : Handled Json :=
  match s.docs.get docId with
  | none => (s, .error notFound)
  | some existing =>
    match env.ensureDocScopeAccess existing.metadata sessionId >>= fun _ =>
        escaped (env.recallFeedback existing.metadata feedback) with
    | .error e => (s, .error e)
    | .ok summary =>
      (stored (s.updateMetadata env.tools env.now (env.faults docId) docId
        (existing.metadata.set "recall_feedback" summary))).andThen fun s _ =>
        (s, (recordOperation docId).map fun _ => .obj [("status", .str "recorded"), ("id", .str docId),
          ("feedback", .str feedback), ("counts", summary.get "summary")])

/-! ## Requests -/

inductive Request where
  | create (payload : NewMemory) (fresh : String) (similar : Except RouteError (List Json))
  | add (payload : NewMemory) (fresh : String) (similar : Except RouteError (List Json))
  | update (docId : String) (payload : Update)
  | correct (docId : String) (payload : Correction)
  | review (docId : String) (payload : Review)
  | forget (docId : String) (payload : SoftForget)
  | restore (docId : String) (payload : SoftForget)
  | rollback (docId : String) (payload : Rollback)
  | delete (docId : String) (sessionId : Option String)
  | batchDelete (docIds : List String) (sessionId : Option String)
  | feedback (docId feedback : String) (sessionId : Option String)
  | purge (docIds : List String)
  | reopen

def Handled.silent {α : Type} (x : Handled α) : Handled Json := (x.1, x.2.map fun _ => .null)

/-- What the service does for a request. -/
def Router.serve (s : SqliteStore) : Request → Handled Json
  | .create payload fresh similar => env.addDoc s payload fresh similar
  | .add payload fresh similar => env.addMemory s payload fresh similar
  | .update docId payload => env.updateDoc s docId payload
  | .correct docId payload => env.correctDoc s docId payload
  | .review docId payload => env.reviewDoc s docId payload
  | .forget docId payload => env.softForgetDoc s docId payload
  | .restore docId payload => env.restoreDoc s docId payload
  | .rollback docId payload => env.rollbackDoc s docId payload
  | .delete docId sessionId => env.deleteDoc s docId sessionId
  | .batchDelete docIds sessionId => env.batchDeleteDocs s docIds sessionId
  | .feedback docId feedback sessionId => env.feedbackDoc s docId feedback sessionId
  | .purge docIds => (env.deleteMemoryDocuments s docIds).silent
  | .reopen => (stored (s.reopen env.tools env.now (env.faults ""))).silent

structure Call (τ : Type) where
  env : Router τ
  request : Request

/-- The service takes one request after the other, all with the same standard library. -/
def ServeStep (tools : MetadataTools τ) (s : SqliteStore) (call : Call τ) (s' : SqliteStore) : Prop :=
  call.env.tools = tools ∧ s' = (call.env.serve s call.request).1

end Requests

end Memory
