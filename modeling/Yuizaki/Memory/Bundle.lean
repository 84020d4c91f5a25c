import Yuizaki.Memory.Filters
import Yuizaki.Memory.Recall
import Yuizaki.Memory.Removal
import Yuizaki.Memory.Update

/- The import of a bundle of memories (`import_memory` in `modules/memory/routes.py`).

   Each record goes through the create route without the fields of the server. A record is
   skipped where it is a candidate or its review ended against it; the other two marks of a
   record that is gone, `candidate_deleted` and `superseded_by`, are not looked at and are among
   the fields that are left out. So a bundle revives nothing where the records with such a mark
   are skipped for their review (`import_revives_nothing`), and a record that is not skipped
   comes back. -/
namespace Memory

open Fallible

/-! ## The route -/

/-- A record of a bundle, with the id that a create draws for it where it has none. -/
structure BundleDoc extends NewMemory where
  fresh : String
  named : fresh ≠ ""

/-- The id of a record: its own, or the one that is drawn for it. -/
def BundleDoc.recordId (d : BundleDoc) : String := d.docId d.fresh

/-- `MemoryImportPayload`, with its scope checked. -/
structure ImportPayload where
  version : ℕ := 1
  docs : List BundleDoc
  scope : MemoryScope := .workspace
  workspaceId : Option String := none
  sessionId : Option String := none

structure ImportTarget where
  scope : MemoryScope
  workspaceId : Option String
  sessionId : Option String

structure ImportProgress where
  store : SqliteStore
  existing : List String
  imported : List String := []
  skipped : List Json := []
  restored : ℕ := 0

/-- The statuses of a review that a record is skipped for. -/
def skippedStatuses : List String := ["pending", "rejected", "deleted", "superseded"]

section Route

variable {τ : Type} [LinearOrder τ] (env : Router τ) (target : ImportTarget)

/-- A record that is skipped: a candidate, or one whose review ended against it. -/
def Router.skipsRecord (m : Metadata) : Bool := (m.value "candidate").truthy ∨ reviewStatus env.tools m ∈ skippedStatuses

def ImportProgress.skip (p : ImportProgress) (id : Json) (reason : String) (detail : List (String × Json)) :
    ImportProgress :=
  { p with
    skipped := p.skipped ++ [.obj ([("id", id), ("reason", .str reason)] ++ detail)] }

/-- `imported_payload` -/
def ImportTarget.payload (d : BundleDoc) : NewMemory where
  id := d.id
  text := d.text
  metadata := sanitizeCreateMetadata d.metadata
  scope := some target.scope.name
  workspaceId := target.workspaceId
  sessionId := target.sessionId
  type := d.type
  layer := d.layer
  importance := d.importance
  confidence := d.confidence
  confidenceSource := d.confidenceSource
  sourceKind := d.sourceKind
  sourceId := d.sourceId
  turnId := d.turnId
  evidence := d.evidence
  dedupe := false

/-- A record that was forgotten is forgotten again. -/
def Router.forgetImported (p : ImportProgress) (docId : String) : ImportProgress × Except RouteError Unit :=
  match env.softForgetDoc p.store docId ⟨some "memory_import_restore", none, target.sessionId⟩ with
  | (s, .ok _) => ({ p with
      store := s
      restored := p.restored + 1 }, .ok ())
  | (s, .error (.http _ detail)) =>
    (({ p with store := s } : ImportProgress).skip (.str docId) "restore_state_failed" [("detail", detail)], .ok ())
  | (s, .error (.raised e)) => ({ p with store := s }, .error (.raised e))

/-- One record of `import_memory`. -/
def Router.importDoc (p : ImportProgress) (d : BundleDoc) : ImportProgress × Except RouteError Unit :=
  if env.skipsRecord d.metadata then (p.skip (optionJson d.id) "terminal_or_review_candidate" [], .ok ())
  else if (given d.id).any (· ∈ p.existing) then (p.skip (optionJson d.id) "id_exists" [], .ok ())
  else match env.addDoc p.store (target.payload d) d.fresh (.ok []) with
    | (s, .error (.http _ detail)) =>
      (({ p with store := s } : ImportProgress).skip (optionJson d.id) "write_failed" [("detail", detail)], .ok ())
    | (s, .error (.raised e)) => ({ p with store := s }, .error (.raised e))
    | (s, .ok answer) =>
      if answer.get "status" ≠ .str "ok" then
        (({ p with store := s } : ImportProgress).skip (optionJson d.id)
          (env.tools.str ((answer.get "status").or (.str "write_skipped"))) [], .ok ())
      else
        let importedId := env.tools.str ((answer.get "id").or (optionJson d.id))
        let p := { p with
          store := s
          existing := importedId :: p.existing
          imported := p.imported ++ [importedId] }
        if (d.metadata.value "soft_forgotten").truthy then env.forgetImported target p importedId else (p, .ok ())

/-- The loop of `import_memory`: an exception that is no HTTP error ends it. -/
def Router.importDocs : List BundleDoc → ImportProgress → ImportProgress × Except RouteError Unit
  | [], p => (p, .ok ())
  | d :: rest, p =>
    match env.importDoc target p d with
    | (p, .ok _) => Router.importDocs rest p
    | (p, .error e) => (p, .error e)

/-- The checks of `import_memory`, and where the records go. -/
def Router.importTarget (payload : ImportPayload) : Except RouteError ImportTarget := do
  require (.http 400 (.str "unsupported memory export version")) (payload.version = 1)
  env.validateWriteScope (some payload.scope.name) payload.sessionId
  let workspaceId ← env.resolveRequestWorkspaceId (optionJson payload.workspaceId) (some payload.scope.name) true
  return {
    scope := payload.scope
    workspaceId := if payload.scope = .workspace then workspaceId else none
    sessionId := if payload.scope = .session then payload.sessionId else none }

/-- `import_memory`: the store that is left, and what was done. -/
def Router.importMemory (s : SqliteStore) (payload : ImportPayload) : SqliteStore × Except RouteError ImportProgress :=
  match env.importTarget payload with
  | .error e => (s, .error e)
  | .ok target =>
    let result := env.importDocs target payload.docs { store := s, existing := s.docs.keys }
    (result.1.store, result.2.map fun _ => result.1)

end Route

/-! ## What an import leaves alone -/

section Others

variable {τ : Type} [LinearOrder τ] {env : Router τ} {target : ImportTarget} {s s' : SqliteStore} {id : String}

/-- A document that is as it was, in memory and in the table. -/
def SameDoc (id : String) (s s' : SqliteStore) : Prop := s'.docs.get id = s.docs.get id ∧ s'.rows.get id = s.rows.get id

theorem SameDoc.trans {s'' : SqliteStore} (h : SameDoc id s s') (h' : SameDoc id s' s'') : SameDoc id s s'' :=
  ⟨h'.1.trans h.1, h'.2.trans h.2⟩

theorem write_others {doc : Document} (h : doc.id ≠ id) : SameDoc id s (env.writeMemoryDocument s doc).1 := by
  have hne : id ≠ doc.id := fun heq => h heq.symm
  obtain ⟨hsame, -⟩ | ⟨prepared, n, -, -, hrows, hdocs⟩ := write_cases (s := s) env doc
  · rw [hsame]
    exact ⟨rfl, rfl⟩
  · refine ⟨?_, by rw [hrows, Dict.get_set_of_ne hne]⟩
    obtain ⟨-, hdocs, -⟩ | hdocs := hdocs
    · rw [hdocs]
    · rw [hdocs, Dict.get_set_of_ne hne]

theorem prepareNewMemory_ok {payload : NewMemory} {docId : String} {document : Document}
    (h : env.prepareNewMemory payload docId = .ok document) : document.id = docId ∧ document.text = payload.text := by
  obtain ⟨source, -, h⟩ := bind_ok.mp h
  obtain ⟨workspace, -, h⟩ := bind_ok.mp h
  obtain ⟨role, -, h⟩ := bind_ok.mp h
  obtain ⟨m, -, h⟩ := bind_ok.mp h
  obtain ⟨metadata, -, h⟩ := bind_ok.mp h
  rw [← pure_ok.mp h]
  exact ⟨rfl, rfl⟩

theorem addDoc_others {payload : NewMemory} {fresh : String} {similar : Except RouteError (List Json)}
    (h : payload.docId fresh ≠ id) : SameDoc id s (env.addDoc s payload fresh similar).1 := by
  unfold Router.addDoc
  dsimp only
  split
  · exact ⟨rfl, rfl⟩
  · rename_i document hprepared
    obtain ⟨_, -, hprepared⟩ := bind_ok.mp hprepared
    obtain ⟨_, -, hprepared⟩ := bind_ok.mp hprepared
    have hid : document.id ≠ id := (prepareNewMemory_ok hprepared).1 ▸ h
    split
    · exact ⟨rfl, rfl⟩
    · exact ⟨rfl, rfl⟩
    · exact @andThen_keeps _ _ (SameDoc id s) _ _ (write_others hid) fun _ _ => write_others hid

theorem softForgetDoc_others {docId : String} {payload : SoftForget} (h : docId ≠ id) :
    SameDoc id s (env.softForgetDoc s docId payload).1 := by
  unfold Router.softForgetDoc Router.editDoc
  split
  · exact ⟨rfl, rfl⟩
  · split
    · exact ⟨rfl, rfl⟩
    · exact ⟨rfl, rfl⟩
    · exact @andThen_keeps _ _ (SameDoc id s) _ _ (write_others h) fun _ _ => write_others h

theorem addDoc_answer {payload : NewMemory} {fresh : String} {answer : Json} (hdedupe : payload.dedupe = false)
    (h : env.addDoc s payload fresh (.ok []) = (s', .ok answer)) :
    answer = .obj [("status", .str "ok"), ("id", .str (payload.docId fresh))] := by
  unfold Router.addDoc at h
  dsimp only at h
  rw [hdedupe] at h
  split at h
  · exact nomatch (congrArg Prod.snd h)
  · rw [if_neg Bool.false_ne_true] at h
    obtain ⟨_, -, hanswer⟩ := andThen_ok.mp h
    exact (Except.ok.inj (congrArg Prod.snd hanswer)).symm

theorem recordId_ne (d : BundleDoc) : d.recordId ≠ "" := by
  unfold BundleDoc.recordId NewMemory.docId textOr
  split
  · split
    · exact d.named
    · assumption
  · exact d.named

theorem importDoc_others {p : ImportProgress} {d : BundleDoc} (h : env.skipsRecord d.metadata = false → d.recordId ≠ id) :
    SameDoc id p.store (env.importDoc target p d).1.store ∧
      (id ∈ (env.importDoc target p d).1.existing → id ∈ p.existing) := by
  unfold Router.importDoc
  by_cases hskip : env.skipsRecord d.metadata = true
  · rw [if_pos hskip]
    exact ⟨⟨rfl, rfl⟩, fun hid => hid⟩
  rw [if_neg hskip]
  have hne : d.recordId ≠ id := h (eq_false_of_ne_true hskip)
  by_cases hthere : (given d.id).any (· ∈ p.existing) = true
  · rw [if_pos hthere]
    exact ⟨⟨rfl, rfl⟩, fun hid => hid⟩
  rw [if_neg hthere]
  have hadd : SameDoc id p.store (env.addDoc p.store (target.payload d) d.fresh (.ok [])).1 := addDoc_others hne
  split
  · rename_i s status detail hanswer
    rw [hanswer] at hadd
    exact ⟨hadd, fun hid => hid⟩
  · rename_i s e hanswer
    rw [hanswer] at hadd
    exact ⟨hadd, fun hid => hid⟩
  · rename_i s answer hanswer
    obtain rfl := addDoc_answer rfl hanswer
    rw [hanswer] at hadd
    split
    · exact ⟨hadd, fun hid => hid⟩
    · have himported : env.tools.str (((Json.obj [("status", .str "ok"),
          ("id", .str ((target.payload d).docId d.fresh))]).get "id").or (optionJson d.id)) = d.recordId := by
        show env.tools.str ((Json.str d.recordId).or (optionJson d.id)) = d.recordId
        have htruthy : (Json.str d.recordId).truthy = true := decide_eq_true (recordId_ne d)
        rw [Json.or, if_pos htruthy]
        rfl
      dsimp only
      rw [himported]
      have hexisting : id ∈ d.recordId :: p.existing → id ∈ p.existing :=
        fun hid => (List.mem_cons.mp hid).resolve_left (Ne.symm hne)
      split
      · unfold Router.forgetImported
        have hforget : SameDoc id s (env.softForgetDoc s d.recordId
            ⟨some "memory_import_restore", none, target.sessionId⟩).1 := softForgetDoc_others hne
        split
        · rename_i s'' answer'' hforgotten
          rw [hforgotten] at hforget
          exact ⟨hadd.trans hforget, hexisting⟩
        · rename_i s'' status detail hforgotten
          rw [hforgotten] at hforget
          exact ⟨hadd.trans hforget, hexisting⟩
        · rename_i s'' e hforgotten
          rw [hforgotten] at hforget
          exact ⟨hadd.trans hforget, hexisting⟩
      · exact ⟨hadd, hexisting⟩

theorem importDocs_others {docs : List BundleDoc} {p : ImportProgress}
    (h : ∀ d ∈ docs, env.skipsRecord d.metadata = false → d.recordId ≠ id) :
    SameDoc id p.store (env.importDocs target docs p).1.store ∧
      (id ∈ (env.importDocs target docs p).1.existing → id ∈ p.existing) := by
  induction docs generalizing p with
  | nil => exact ⟨⟨rfl, rfl⟩, fun hid => hid⟩
  | cons d rest ih =>
    obtain ⟨hfirst, hexisting⟩ := @importDoc_others τ _ env target id p d (h d List.mem_cons_self)
    unfold Router.importDocs
    cases hdoc : env.importDoc target p d with
    | mk q result =>
      rw [hdoc] at hfirst hexisting
      cases result with
      | error e => exact ⟨hfirst, hexisting⟩
      | ok u =>
        obtain ⟨hrest, hlater⟩ := @ih q fun d hd => h d (List.mem_cons_of_mem _ hd)
        exact ⟨hfirst.trans hrest, fun hid => hexisting (hlater hid)⟩

end Others

/-! ## What comes back -/

section BroughtBack

variable {τ : Type} [LinearOrder τ] (env : Router τ)

/-- What a create writes under an id that is not there. -/
def Router.createdContent (payload : NewMemory) (docId : String) : Except RouteError Content := do
  env.validateWriteScope payload.scope payload.sessionId
  let document ← env.prepareNewMemory payload docId
  let metadata ← env.prepareWrite none document
  let metadata ← escaped (persistedMetadata env.tools env.now none { document with metadata })
  return { text := document.text, metadata }

/-- The states that an import must not bring back. -/
def terminalStates : List String := ["rejected", "deleted", "superseded", "pending_review", "pending"]

/-- A record that was exported in such a state. -/
def Terminal (m : Metadata) : Prop := ∃ state ∈ terminalStates, memoryState env.tools env.now m = .ok state

/-- A document that is not as it was, and is recalled at some instant. -/
def BroughtBack (s s' : SqliteStore) (id : String) : Prop :=
  ¬ SameDoc id s s' ∧ ∃ content t, (s'.docs.get id = some content ∨ s'.rows.get id = some content) ∧
    Recallable env.tools t content.metadata

/-- Whatever comes back was exported in no such state. -/
def RevivesNothing (payload : ImportPayload) (s s' : SqliteStore) : Prop :=
  ∀ id, BroughtBack env s s' id → ∃ d ∈ payload.docs, d.recordId = id ∧ ¬ Terminal env d.metadata

/-- A record that is not skipped, under an id of its own that is new, and that the create route makes a memory
    of that is recalled. -/
structure TakenUp (s : SqliteStore) (payload : ImportPayload) (target : ImportTarget) (d : BundleDoc) : Prop where
  single : ∃ before after, payload.docs = before ++ d :: after ∧ ∀ other ∈ before ++ after, other.recordId ≠ d.recordId
  doc : s.docs.get d.recordId = none
  row : s.rows.get d.recordId = none
  answers : env.faults d.recordId = {}
  named : PyStr.strip d.recordId ≠ ""
  passes : env.skipsRecord d.metadata = false
  remembered : (d.metadata.value "soft_forgotten").truthy = false
  created : ∃ content, env.createdContent (target.payload d) d.recordId = .ok content ∧
    ∃ t, Recallable env.tools t content.metadata

variable {env} {s : SqliteStore} {payload : ImportPayload} {target : ImportTarget} {d : BundleDoc}

theorem addDoc_created {p : NewMemory} {fresh : String} {content : Content} (hdoc : s.docs.get (p.docId fresh) = none)
    (hrow : s.rows.get (p.docId fresh) = none) (hanswers : env.faults (p.docId fresh) = {})
    (hnamed : PyStr.strip (p.docId fresh) ≠ "") (hdedupe : p.dedupe = false)
    (h : env.createdContent p (p.docId fresh) = .ok content) :
    ∃ s', env.addDoc s p fresh (.ok []) =
        (s', .ok (.obj [("status", .str "ok"), ("id", .str (p.docId fresh))])) ∧
      s'.docs.get (p.docId fresh) = some content := by
  obtain ⟨_, hscope, h⟩ := bind_ok.mp h
  obtain ⟨document, hdocument, h⟩ := bind_ok.mp h
  obtain ⟨metadata, hmetadata, h⟩ := bind_ok.mp h
  obtain ⟨persisted, hpersisted, h⟩ := bind_ok.mp h
  obtain ⟨hid, -⟩ := prepareNewMemory_ok hdocument
  have hreplaceable : env.ensureReplaceable s p (p.docId fresh) = .ok () := by
    unfold Router.ensureReplaceable
    rw [hdoc]
    cases p.id <;> rfl
  rw [← hid] at hrow hanswers hnamed
  have hpersist : s.persist env.tools env.now {} { document with metadata } = .ok ({ s with
      rows := s.rows.set document.id ⟨document.text, persisted⟩
      revision := s.revision + 1 }, persisted) := by
    unfold SqliteStore.persist
    rw [show s.rows.get ({ document with metadata } : Document).id = none from hrow, escaped_ok.mp hpersisted]
    rfl
  have hwrite : env.writeMemoryDocument s document = ({ s with
      rows := s.rows.set document.id ⟨document.text, persisted⟩
      revision := s.revision + 1
      docs := s.docs.set document.id ⟨document.text, persisted⟩ }, .ok ()) := by
    unfold Router.writeMemoryDocument
    rw [show s.docs.get document.id = none from hid ▸ hdoc, hmetadata, hanswers]
    dsimp only
    unfold SqliteStore.addDocument
    rw [hpersist]
    have hrecorded : recordOperation document.id = .ok () := require_ok.mpr hnamed
    show (_, recordOperation document.id) = _
    rw [hrecorded]
    rfl
  refine ⟨{ s with
      rows := s.rows.set document.id ⟨document.text, persisted⟩
      revision := s.revision + 1
      docs := s.docs.set document.id ⟨document.text, persisted⟩ }, ?_, ?_⟩
  · unfold Router.addDoc
    dsimp only
    rw [hscope]
    dsimp only [bind, Except.bind]
    rw [hreplaceable]
    dsimp only
    rw [hdocument, hdedupe]
    dsimp only
    rw [if_neg Bool.false_ne_true]
    dsimp only
    rw [hwrite]
    rfl
  · show (s.docs.set document.id ⟨document.text, persisted⟩).get _ = _
    rw [hid, Dict.get_set_self]
    exact congrArg some (pure_ok.mp h)

theorem importDoc_created {p : ImportProgress} {content : Content} (hdoc : p.store.docs.get d.recordId = none)
    (hrow : p.store.rows.get d.recordId = none) (hnew : d.recordId ∉ p.existing)
    (hanswers : env.faults d.recordId = {}) (hnamed : PyStr.strip d.recordId ≠ "")
    (hpasses : env.skipsRecord d.metadata = false) (hremembered : (d.metadata.value "soft_forgotten").truthy = false)
    (h : env.createdContent (target.payload d) d.recordId = .ok content) :
    (env.importDoc target p d).1.store.docs.get d.recordId = some content := by
  obtain ⟨s', hadd, hget⟩ := @addDoc_created _ _ env p.store (target.payload d) d.fresh content hdoc hrow hanswers
    hnamed rfl h
  have hthere : ¬ (given d.id).any (· ∈ p.existing) = true := by
    intro hany
    have hrecord : d.recordId = textOr d.id d.fresh := rfl
    cases hid : d.id with
    | none =>
      rw [hid] at hany
      exact absurd hany Bool.false_ne_true
    | some id =>
      rw [hid] at hany hrecord
      by_cases hempty : id = ""
      · rw [given, if_pos hempty] at hany
        exact absurd hany Bool.false_ne_true
      · rw [given, if_neg hempty] at hany
        rw [textOr, if_neg hempty] at hrecord
        exact hnew (hrecord ▸ of_decide_eq_true hany)
  unfold Router.importDoc
  rw [if_neg (by rw [hpasses]; exact Bool.false_ne_true), if_neg hthere, hadd]
  dsimp only
  rw [if_neg (fun hne => hne rfl), if_neg (by rw [hremembered]; exact Bool.false_ne_true)]
  exact hget

theorem importDocs_created {docs before after : List BundleDoc} {p : ImportProgress} {content : Content}
    (hsplit : docs = before ++ d :: after) (hothers : ∀ other ∈ before ++ after, other.recordId ≠ d.recordId)
    (hdoc : p.store.docs.get d.recordId = none) (hrow : p.store.rows.get d.recordId = none)
    (hnew : d.recordId ∉ p.existing)
    (hcreated : ∀ q : ImportProgress, q.store.docs.get d.recordId = none → q.store.rows.get d.recordId = none →
      d.recordId ∉ q.existing → (env.importDoc target q d).1.store.docs.get d.recordId = some content)
    (hgives : Gives (env.importDocs target docs p).2) :
    (env.importDocs target docs p).1.store.docs.get d.recordId = some content := by
  subst hsplit
  induction before generalizing p with
  | nil =>
    rw [List.nil_append] at hgives ⊢
    have hfirst := hcreated p hdoc hrow hnew
    unfold Router.importDocs at hgives ⊢
    cases hone : env.importDoc target p d with
    | mk q result =>
      rw [hone] at hfirst hgives
      cases result with
      | error e => exact absurd hgives (not_gives_error e)
      | ok u =>
        obtain ⟨hlater, -⟩ := @importDocs_others _ _ env target d.recordId after q fun other hmem _ =>
          hothers other hmem
        exact hlater.1.trans hfirst
  | cons other before ih =>
    rw [List.cons_append] at hgives ⊢
    have hne : other.recordId ≠ d.recordId := hothers other List.mem_cons_self
    obtain ⟨hsame, hexisting⟩ := @importDoc_others _ _ env target d.recordId p other fun _ => hne
    unfold Router.importDocs at hgives ⊢
    cases hone : env.importDoc target p other with
    | mk q result =>
      rw [hone] at hsame hexisting hgives
      cases result with
      | error e => exact absurd hgives (not_gives_error e)
      | ok u =>
        refine ih (fun other' hmem => hothers other' (List.mem_cons_of_mem _ hmem)) ?_ ?_ ?_ hgives
        · exact hsame.1.trans hdoc
        · exact hsame.2.trans hrow
        · exact fun hid => hnew (hexisting hid)

/-- **An import brings nothing back** where every record that was exported as rejected, deleted, superseded or
    pending is skipped for its review; one that is not and that the create route takes up comes back. -/
theorem import_revives_nothing (s : SqliteStore) (payload : ImportPayload) :
    ((∀ d ∈ payload.docs, Terminal env d.metadata → env.skipsRecord d.metadata = true) →
      RevivesNothing env payload s (env.importMemory s payload).1) ∧
    ∀ target, env.importTarget payload = .ok target → Gives (env.importMemory s payload).2 →
      RevivesNothing env payload s (env.importMemory s payload).1 →
      ∀ d ∈ payload.docs, Terminal env d.metadata → ¬ TakenUp env s payload target d := by
  refine ⟨fun hskips id hrevived => ?_, fun target htarget hgives hnothing d hd hterminal htaken => ?_⟩
  · -- a document that changed has the id of a record that is not skipped
    by_contra hnone
    apply hrevived.1
    unfold Router.importMemory
    cases htarget : env.importTarget payload with
    | error e => exact ⟨rfl, rfl⟩
    | ok target =>
      refine (@importDocs_others _ _ env target id payload.docs { store := s, existing := s.docs.keys } ?_).1
      intro d hd hpasses hid
      refine hnone ⟨d, hd, hid, fun hterminal => ?_⟩
      rw [hskips d hd hterminal] at hpasses
      exact absurd hpasses (by decide)
  · obtain ⟨before, after, hsplit, hothers⟩ := htaken.single
    obtain ⟨content, hcreated, t, hrecallable⟩ := htaken.created
    have hnew : d.recordId ∉ s.docs.keys := by
      rw [Dict.mem_keys, htaken.doc]
      exact fun ⟨_, hsome⟩ => nomatch hsome
    have hstored : (env.importMemory s payload).1.docs.get d.recordId = some content := by
      unfold Router.importMemory at hgives ⊢
      rw [htarget] at hgives ⊢
      dsimp only at hgives ⊢
      refine @importDocs_created _ _ env target d payload.docs before after { store := s, existing := s.docs.keys }
        content hsplit hothers htaken.doc htaken.row hnew ?_ ?_
      · intro q hdoc hrow hnew
        exact importDoc_created hdoc hrow hnew htaken.answers htaken.named htaken.passes htaken.remembered hcreated
      · obtain ⟨report, hreport⟩ := hgives
        cases hresult : (env.importDocs target payload.docs { store := s, existing := s.docs.keys }).2 with
        | error e =>
          rw [hresult] at hreport
          exact nomatch hreport
        | ok u => exact ⟨u, rfl⟩
    have hrevived : BroughtBack env s (env.importMemory s payload).1 d.recordId := by
      refine ⟨fun hsame => ?_, content, t, Or.inl hstored, hrecallable⟩
      have hdoc := hsame.1
      rw [hstored, htaken.doc] at hdoc
      exact nomatch hdoc
    obtain ⟨other, hother, hid, hsafe⟩ := hnothing d.recordId hrevived
    rw [hsplit, List.mem_append, List.mem_cons] at hother
    obtain hmem | rfl | hmem := hother
    · exact hothers other (List.mem_append_left _ hmem) hid
    · exact hsafe hterminal
    · exact hothers other (List.mem_append_right _ hmem) hid

end BroughtBack

/-! ## A record that was superseded -/

/-- A memory that another one has taken the place of. -/
def supersededRecord : BundleDoc where
  id := some "m1"
  text := "The user likes tea."
  metadata := Metadata.ofEntries [("superseded_by", .str "m2")]
  fresh := "doc_1"
  named := by decide

/-- Imported into an empty store, it is active again. -/
theorem superseded_revived :
    (memoryState newYear false supersededRecord.metadata = .ok "superseded" ∧
      (plainRouter.importMemory {} { docs := [supersededRecord] }).2.toOption.map ImportProgress.imported =
        some ["m1"]) ∧
    ¬ RevivesNothing plainRouter { docs := [supersededRecord] } {}
      (plainRouter.importMemory {} { docs := [supersededRecord] }).1 := by
  have hstate : memoryState newYear false supersededRecord.metadata = .ok "superseded" := by decide +kernel
  refine ⟨⟨hstate, by decide +kernel⟩, fun hnothing => ?_⟩
  have hactive : ((plainRouter.importMemory {} { docs := [supersededRecord] }).1.docs.get "m1").any
      (fun content => decide (memoryState newYear false content.metadata = .ok "active")) = true := by decide +kernel
  obtain ⟨content, hcontent, hactive⟩ := (Option.any_eq_true _ _).mp hactive
  have hrecallable : memoryState newYear false content.metadata = .ok "active" := of_decide_eq_true hactive
  have hrevived : BroughtBack plainRouter {} (plainRouter.importMemory {} { docs := [supersededRecord] }).1 "m1" :=
    ⟨fun hsame => (nomatch hsame.1.symm.trans hcontent), content, false, Or.inl hcontent, hrecallable⟩
  obtain ⟨d, hd, -, hsafe⟩ := hnothing "m1" hrevived
  rw [List.mem_singleton.mp hd] at hsafe
  exact hsafe ⟨"superseded", by decide, hstate⟩

end Memory
