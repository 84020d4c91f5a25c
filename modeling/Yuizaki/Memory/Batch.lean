import Yuizaki.Memory.Removal

/- Deleting several memories (`batch_delete_docs`).

   Missing documents and access are checked for the whole batch before anything is written.
   The write helper checks the metadata of each candidate only when its turn comes, and the
   roles are read for the answer when all is done: a candidate that is refused and a role that
   is none end the request after other documents were deleted. `batch_delete_atomic` says when
   that shows: when a document that was reached before has another text, state or revision. -/
namespace Memory

open Fallible

/-! ## The request -/

/-- `MemoryDocBatchDeletePayload.validate_ids`. -/
def cleanIds : List String → List String → Option (List String)
  | cleaned, [] => some cleaned
  | cleaned, item :: rest =>
    let docId := PyStr.strip item
    if docId = "" then none
    else cleanIds (if docId ∈ cleaned then cleaned else cleaned ++ [docId]) rest

/-- The ids of a `MemoryDocBatchDeletePayload`, where it is valid. -/
def batchIds (ids : List String) : Option (List String) :=
  if 1 ≤ ids.length ∧ ids.length ≤ 5000 then cleanIds [] ids else none

/-- Ids as the payload keeps them: distinct and no blank texts. -/
structure CleanIds (ids : List String) : Prop where
  nodup : ids.Nodup
  named : ∀ id ∈ ids, PyStr.strip id ≠ ""

theorem cleanIds_ok {cleaned raw ids : List String} (h : cleanIds cleaned raw = some ids) (hclean : CleanIds cleaned) :
    CleanIds ids ∧ cleaned.length ≤ ids.length ∧ (raw ≠ [] → ids ≠ []) := by
  induction raw generalizing cleaned with
  | nil =>
    obtain rfl := Option.some.inj h
    exact ⟨hclean, le_refl _, fun hne => absurd rfl hne⟩
  | cons item rest ih =>
    unfold cleanIds at h
    dsimp only at h
    split at h
    · cases h
    · rename_i hnamed
      have hstep : CleanIds (if PyStr.strip item ∈ cleaned then cleaned else cleaned ++ [PyStr.strip item]) ∧
          cleaned.length ≤ (if PyStr.strip item ∈ cleaned then cleaned else cleaned ++ [PyStr.strip item]).length ∧
          (if PyStr.strip item ∈ cleaned then cleaned else cleaned ++ [PyStr.strip item]) ≠ [] := by
        split
        · rename_i hmem
          exact ⟨hclean, le_refl _, List.ne_nil_of_mem hmem⟩
        · rename_i hnew
          refine ⟨⟨?_, fun id hid => ?_⟩, ?_, ?_⟩
          · rw [List.nodup_append]
            refine ⟨hclean.nodup, List.nodup_singleton _, fun a ha b hb heq => ?_⟩
            rw [List.mem_singleton.mp hb] at heq
            exact hnew (heq ▸ ha)
          · rcases List.mem_append.mp hid with hold | hitem
            · exact hclean.named id hold
            · rw [List.mem_singleton.mp hitem]
              exact PyStr.strip_strip_ne hnamed
          · rw [List.length_append]
            omega
          · exact List.append_ne_nil_of_right_ne_nil _ (List.cons_ne_nil _ _)
      obtain ⟨hclean', hle, hne⟩ := hstep
      obtain ⟨hids, hlength, -⟩ := ih h hclean'
      refine ⟨hids, by omega, fun _ hnil => ?_⟩
      have hpos := List.length_pos_of_ne_nil hne
      rw [hnil] at hlength
      simp only [List.length_nil] at hlength
      omega

theorem batchIds_ok {raw ids : List String} (h : batchIds raw = some ids) : CleanIds ids ∧ ids ≠ [] := by
  unfold batchIds at h
  split at h
  · rename_i hlength
    obtain ⟨hids, -, hne⟩ := cleanIds_ok h ⟨List.nodup_nil, fun _ hid => absurd hid List.not_mem_nil⟩
    exact ⟨hids, hne (List.ne_nil_of_length_pos (by omega))⟩
  · cases h

/-! ## What a batch does -/

section Batch

variable {τ : Type} [LinearOrder τ] {env : Router τ} {s s' : SqliteStore} {docId : String} {content : Content}
  {documents : Dict String Content} {ids : List String} {sessionId : Option String}

instance (existing : Content) : Decidable (Rewritable env existing) :=
  decidable_of_iff (Gives (env.normalizeExpiryForWrite existing.metadata) ∧ rejectedFields existing.metadata = [] ∧
      Gives (normalizeMemoryMetadata env.tools env.now existing.metadata) ∧
      Gives (countOf env.tools existing.metadata "audit_truncated") ∧
      (hasPriorVersionSnapshot existing.metadata (normalizedRevision env.tools existing.metadata) existing.text = true ∨
        Gives (countOf env.tools existing.metadata "version_history_truncated")))
    ⟨fun ⟨h1, h2, h3, h4, h5⟩ => ⟨h1, h2, h3, h4, h5⟩, fun ⟨h1, h2, h3, h4, h5⟩ => ⟨h1, h2, h3, h4, h5⟩⟩

/-- What a caller sees of a document: its text, its state and its revision. -/
def view (env : Router τ) (content : Content) : String × Except PyError String × ℤ :=
  (content.text, memoryState env.tools env.now content.metadata, normalizedRevision env.tools content.metadata)

/-- Where no caller sees a difference, in memory or in the table. -/
def Unchanged (env : Router τ) (s s' : SqliteStore) : Prop :=
  ∀ id, (s'.docs.get id).map (view env) = (s.docs.get id).map (view env) ∧
    (s'.rows.get id).map (view env) = (s.rows.get id).map (view env)

/-- A document that is gone, or a candidate that left its tombstone. -/
def Deleted (env : Router τ) (s s' : SqliteStore) (docId : String) : Prop :=
  (isCandidate s.docs docId = false → s'.docs.get docId = none ∧ s'.rows.get docId = none) ∧
    (isCandidate s.docs docId = true → ∃ content, s'.docs.get docId = some content ∧
      s'.rows.get docId = some content ∧ memoryState env.tools env.now content.metadata = .ok "deleted")

/-- A batch that is applied to all its documents, or answers with an error and changes none. -/
def AllOrNothing (env : Router τ) (s : SqliteStore) (ids : List String) (sessionId : Option String) : Prop :=
  let handled := env.batchDeleteDocs s ids sessionId
  (∃ answer, handled.2 = .ok answer) ∧ (∀ id ∈ ids, Deleted env s handled.1 id) ∨
    (∃ e, handled.2 = .error e) ∧ Unchanged env s handled.1

/-! ## When it is all or nothing -/

/-- A batch that is let in: every document is there and open to the caller. -/
def LetIn (env : Router τ) (s : SqliteStore) (ids : List String) (sessionId : Option String) : Prop :=
  (∀ id ∈ ids, s.docs.get id ≠ none) ∧ env.ensureAll s.docs ids sessionId = .ok ()

/-- A batch in which no candidate is refused and every role is one. -/
def Answerable (env : Router τ) (documents : Dict String Content) (ids : List String) : Prop :=
  ∀ id ∈ ids, ∀ content, documents.get id = some content →
    (content.candidate = true → Rewritable env content) ∧ Gives (env.roleOfDocument content.metadata)

/-- A document that may be written again. -/
def Router.writable (env : Router τ) (documents : Dict String Content) (docId : String) : Bool :=
  (documents.get docId).all fun content => decide (Rewritable env content)

/-- The documents that a batch has deleted when it ends: all of them, or the candidates
before the first that is refused. -/
def Router.reached (env : Router τ) (documents : Dict String Content) (ids : List String) : List String :=
  let candidates := ids.filter (isCandidate documents)
  if candidates.all (env.writable documents) then ids else candidates.takeWhile (env.writable documents)

/-- A document on which a deletion does not show: a candidate whose state is that of a deleted
one, and whose own history has its version already. -/
def Untouched (env : Router τ) (content : Content) : Prop :=
  content.candidate = true ∧ memoryState env.tools env.now content.metadata = .ok "deleted" ∧
    hasPriorVersionSnapshot content.metadata (normalizedRevision env.tools content.metadata) content.text = true

/-- When a batch is all or nothing: it is refused at once, or no candidate is refused and
every role is one, or the deletion shows on no document that was reached. -/
def Separable (env : Router τ) (s : SqliteStore) (ids : List String) (sessionId : Option String) : Prop :=
  LetIn env s ids sessionId → Answerable env s.docs ids ∨
    ∀ id ∈ env.reached s.docs ids, ∀ content, s.docs.get id = some content → Untouched env content

/-! ## The candidates -/

/-- What a candidate that was deleted is left with. -/
structure Buried (env : Router τ) (existing content : Content) : Prop where
  text : content.text = existing.text
  state : memoryState env.tools env.now content.metadata = .ok "deleted"
  revision : normalizedRevision env.tools content.metadata =
    if hasPriorVersionSnapshot existing.metadata (normalizedRevision env.tools existing.metadata)
        existing.text = true then normalizedRevision env.tools existing.metadata
    else normalizedRevision env.tools existing.metadata + 1

theorem bury_candidate (lawful : env.tools.Lawful) {existing : Content} (hdocument : documents.get docId = some existing)
    (hstored : Stored env s docId existing) (haccess : env.ensureDocScopeAccess existing.metadata sessionId = .ok ())
    (hnamed : PyStr.strip docId ≠ "") :
    (Rewritable env existing → ∃ content, env.buryCandidate documents s docId = (s.written docId content, .ok ()) ∧
      Buried env existing content) ∧
      (¬ Rewritable env existing → ∃ e, env.buryCandidate documents s docId = (s, .error e)) := by
  have hactive := access_active haccess
  have htombstone : env.tombstone existing.metadata =
      escaped (env.appendAudit (env.buried existing.metadata) "delete_candidate" (some "candidate_deleted")) := rfl
  have hbury (metadata : Metadata)
      (h : env.appendAudit (env.buried existing.metadata) "delete_candidate" (some "candidate_deleted") = .ok metadata) :
      env.buryCandidate documents s docId =
        env.writeMemoryDocument s { id := docId, text := existing.text, metadata } := by
    unfold Router.buryCandidate
    rw [hdocument]
    dsimp only
    rw [htombstone, h]
    rfl
  refine ⟨fun hrewritable => ?_, fun hrefused => ?_⟩
  · obtain ⟨m', hm'⟩ := (marked_gives buried_frame).mpr hrewritable.audit
    obtain ⟨n, hwrite, hwritten⟩ := write_retouched lawful hstored hactive hrewritable
      (marked_retouched buried_frame hm') existing.text
    refine ⟨⟨existing.text, n⟩, ?_, rfl, ?_, hwritten.revision⟩
    · have hrecorded : recordOperation docId = .ok () := require_ok.mpr hnamed
      rw [hbury m' hm', hwrite, hrecorded]
    · have hmark : n.get "candidate_deleted" = some (.bool true) :=
        marks_carried hm' hwritten.carries _ (by decide) _ Dict.get_set_self fun heq => absurd heq (by decide)
      have htruthy : (n.value "candidate_deleted").truthy = true := by
        rw [value_eq hmark]
        rfl
      unfold memoryState
      rw [if_pos htruthy]
  · cases haudit : env.appendAudit (env.buried existing.metadata) "delete_candidate" (some "candidate_deleted") with
    | error e =>
      refine ⟨.raised e, ?_⟩
      unfold Router.buryCandidate
      rw [hdocument]
      dsimp only
      rw [htombstone, haudit]
      rfl
    | ok m' =>
      rw [hbury m' haudit]
      have hcount : Gives (countOf env.tools existing.metadata "audit_truncated") :=
        (marked_gives buried_frame).mp ⟨m', haudit⟩
      exact write_refused lawful hstored.doc hactive hcount hrefused (marked_retouched buried_frame haudit) existing.text

/-- What is the same in both levels, and what has been buried. -/
structure BuriedAll (env : Router τ) (documents : Dict String Content) (done : List String) (s s' : SqliteStore) :
    Prop where
  buried : ∀ id ∈ done, ∀ existing, documents.get id = some existing → ∃ content,
    s'.docs.get id = some content ∧ s'.rows.get id = some content ∧ Buried env existing content
  others : ∀ id ∉ done, s'.docs.get id = s.docs.get id ∧ s'.rows.get id = s.rows.get id

theorem bury_candidates (lawful : env.tools.Lawful) {candidates : List String}
    (hdocuments : ∀ id ∈ candidates, ∃ existing, documents.get id = some existing ∧ Stored env s id existing ∧
      env.ensureDocScopeAccess existing.metadata sessionId = .ok ())
    (hclean : CleanIds candidates) : ∃ s', BuriedAll env documents (candidates.takeWhile (env.writable documents)) s s' ∧
      ((∀ id ∈ candidates, env.writable documents id = true) →
        eachOf (env.buryCandidate documents) candidates s = (s', .ok ())) ∧
      (¬ (∀ id ∈ candidates, env.writable documents id = true) →
        ∃ e, eachOf (env.buryCandidate documents) candidates s = (s', .error e)) := by
  induction candidates generalizing s with
  | nil =>
    refine ⟨s, ⟨fun _ hid => absurd hid List.not_mem_nil, fun _ _ => ⟨rfl, rfl⟩⟩, fun _ => rfl, fun hnot => ?_⟩
    exact absurd (fun _ hid => absurd hid List.not_mem_nil) hnot
  | cons id rest ih =>
    obtain ⟨existing, hdocument, hstored, haccess⟩ := hdocuments id List.mem_cons_self
    obtain ⟨haccepted, hrefused⟩ := bury_candidate lawful hdocument hstored haccess
      (hclean.named id List.mem_cons_self)
    obtain ⟨hfresh, hnodup⟩ := List.nodup_cons.mp hclean.nodup
    have hwritable : env.writable documents id = true ↔ Rewritable env existing := by
      rw [Router.writable, hdocument]
      exact decide_eq_true_iff
    by_cases hrewritable : Rewritable env existing
    · obtain ⟨content, hbury, hburied⟩ := haccepted hrewritable
      have hrest : ∀ id' ∈ rest, ∃ existing, documents.get id' = some existing ∧
          Stored env (s.written id content) id' existing ∧
          env.ensureDocScopeAccess existing.metadata sessionId = .ok () := by
        intro id' hid'
        obtain ⟨existing', hdocument', hstored', haccess'⟩ := hdocuments id' (List.mem_cons_of_mem _ hid')
        have hne : id' ≠ id := fun heq => hfresh (heq ▸ hid')
        refine ⟨existing', hdocument', ⟨?_, ?_, hstored'.answers⟩, haccess'⟩
        · show (s.docs.set id content).get id' = _
          rw [Dict.get_set_of_ne hne]
          exact hstored'.doc
        · show (s.rows.set id content).get id' = _
          rw [Dict.get_set_of_ne hne]
          exact hstored'.row
      obtain ⟨s', hall, hok, herror⟩ := ih hrest ⟨hnodup, fun id' hid' => hclean.named id' (List.mem_cons_of_mem _ hid')⟩
      have hstep : eachOf (env.buryCandidate documents) (id :: rest) s =
          eachOf (env.buryCandidate documents) rest (s.written id content) := by
        show (env.buryCandidate documents s id).andThen _ = _
        rw [hbury]
        rfl
      refine ⟨s', ⟨fun id' hid' existing' hdocument' => ?_, fun id' hid' => ?_⟩, fun hevery => ?_, fun hnot => ?_⟩
      · rw [List.takeWhile_cons_of_pos (hwritable.mpr hrewritable)] at hid'
        rcases List.mem_cons.mp hid' with rfl | hlater
        · -- nothing that comes later touches this document
          have hnotLater : id' ∉ rest.takeWhile (env.writable documents) := fun hmem =>
            hfresh (List.takeWhile_subset _ hmem)
          obtain ⟨hdocs, hrows⟩ := hall.others id' hnotLater
          rw [hdocument] at hdocument'
          obtain rfl := Option.some.inj hdocument'
          refine ⟨content, ?_, ?_, hburied⟩
          · rw [hdocs]
            exact Dict.get_set_self
          · rw [hrows]
            exact Dict.get_set_self
        · exact hall.buried id' hlater existing' hdocument'
      · rw [List.takeWhile_cons_of_pos (hwritable.mpr hrewritable)] at hid'
        obtain ⟨hne, hlater⟩ := not_or.mp (fun hor => hid' (List.mem_cons.mpr hor))
        obtain ⟨hdocs, hrows⟩ := hall.others id' hlater
        rw [hdocs, hrows]
        exact ⟨Dict.get_set_of_ne hne, Dict.get_set_of_ne hne⟩
      · rw [hstep]
        exact hok fun id' hid' => hevery id' (List.mem_cons_of_mem _ hid')
      · rw [hstep]
        refine herror fun hevery => hnot fun id' hid' => ?_
        rcases List.mem_cons.mp hid' with rfl | hlater
        · exact hwritable.mpr hrewritable
        · exact hevery id' hlater
    · obtain ⟨e, hbury⟩ := hrefused hrewritable
      have hstop : (id :: rest).takeWhile (env.writable documents) = [] :=
        List.takeWhile_cons_of_neg fun h => hrewritable (hwritable.mp h)
      rw [hstop]
      refine ⟨s, ⟨fun _ hid => absurd hid List.not_mem_nil, fun _ _ => ⟨rfl, rfl⟩⟩, fun hevery => ?_, fun _ => ⟨e, ?_⟩⟩
      · exact absurd (hwritable.mp (hevery id List.mem_cons_self)) hrewritable
      · show (env.buryCandidate documents s id).andThen _ = _
        rw [hbury]
        rfl

/-! ## The batch -/

/-- What a batch leaves: candidates that were reached are buried, other documents that were
reached are gone, and the rest is as it was. -/
structure Reached (env : Router τ) (s s' : SqliteStore) (done : List String) : Prop where
  buried : ∀ id ∈ done, ∀ existing, s.docs.get id = some existing → existing.candidate = true → ∃ content,
    s'.docs.get id = some content ∧ s'.rows.get id = some content ∧ Buried env existing content
  gone : ∀ id ∈ done, ∀ existing, s.docs.get id = some existing → existing.candidate = false →
    s'.docs.get id = none ∧ s'.rows.get id = none
  others : ∀ id ∉ done, s'.docs.get id = s.docs.get id ∧ s'.rows.get id = s.rows.get id

theorem view_buried {existing : Content} (h : Buried env existing content) (hcandidate : existing.candidate = true) :
    view env content = view env existing ↔ Untouched env existing := by
  unfold view Untouched
  rw [h.text, h.state, h.revision]
  simp only [Prod.mk.injEq, true_and]
  constructor
  · intro hsame
    obtain ⟨hstate, hrevision⟩ := hsame
    refine ⟨hcandidate, hstate.symm, ?_⟩
    by_contra hprior
    rw [if_neg hprior] at hrevision
    omega
  · intro huntouched
    obtain ⟨-, hstate, hprior⟩ := huntouched
    exact ⟨hstate.symm, if_pos hprior⟩

theorem reached_unchanged (hagree : ∀ id, s.rows.get id = s.docs.get id) {done : List String}
    (hthere : ∀ id ∈ done, s.docs.get id ≠ none) (h : Reached env s s' done) :
    Unchanged env s s' ↔ ∀ id ∈ done, ∀ existing, s.docs.get id = some existing → Untouched env existing := by
  constructor
  · intro hsame id hid existing hdoc
    obtain ⟨hdocs, -⟩ := hsame id
    cases hcandidate : existing.candidate with
    | true =>
      obtain ⟨content, hcontent, -, hburied⟩ := h.buried id hid existing hdoc hcandidate
      rw [hcontent, hdoc] at hdocs
      exact (view_buried hburied hcandidate).mp (Option.some.inj hdocs)
    | false =>
      obtain ⟨hnone, -⟩ := h.gone id hid existing hdoc hcandidate
      rw [hnone, hdoc] at hdocs
      cases hdocs
  · intro huntouched id
    by_cases hid : id ∈ done
    · obtain ⟨existing, hdoc⟩ := Option.ne_none_iff_exists'.mp (hthere id hid)
      have hold := huntouched id hid existing hdoc
      obtain ⟨content, hcontent, hrow, hburied⟩ := h.buried id hid existing hdoc hold.1
      rw [hagree, hcontent, hrow, hdoc]
      have hview : view env content = view env existing := (view_buried hburied hold.1).mpr hold
      exact ⟨congrArg some hview, congrArg some hview⟩
    · obtain ⟨hdocs, hrows⟩ := h.others id hid
      rw [hdocs, hrows]
      exact ⟨rfl, rfl⟩

theorem isCandidate_eq (h : documents.get docId = some content) : isCandidate documents docId = content.candidate := by
  rw [isCandidate, h]
  rfl

omit [LinearOrder τ] in
theorem delete_others {others : List String} (hanswers : ∀ id, env.faults id = {}) (hclean : CleanIds others)
    (hplain : ∀ id ∈ others, ∀ content, s.docs.get id = some content → content.candidate = false) :
    ∃ s', (if others = [] then (s, .ok ()) else env.deleteMemoryDocuments s others) = (s', .ok ()) ∧
      ∀ id, s'.docs.get id = (if id ∈ others then none else s.docs.get id) ∧
        s'.rows.get id = if id ∈ others then none else s.rows.get id := by
  split
  · rename_i hnone
    rw [hnone]
    exact ⟨s, rfl, fun id => ⟨(if_neg List.not_mem_nil).symm, (if_neg List.not_mem_nil).symm⟩⟩
  · obtain ⟨s', hdeleted, hdocs, hrows⟩ := deleteMemoryDocuments_ok (fun id _ => hanswers id) hclean.named hplain
    refine ⟨s', hdeleted, fun id => ?_⟩
    rw [hdocs, hrows]
    exact ⟨Dict.get_erase_all others s.docs, Dict.get_erase_all others s.rows⟩

omit [LinearOrder τ] in
theorem countRoles_ok : env.countRoles documents ids = .ok () ↔
    ∀ id ∈ ids, ∀ content, documents.get id = some content → Gives (env.roleOfDocument content.metadata) := by
  unfold Router.countRoles
  rw [forM_ok]
  refine forall_congr' fun id => forall_congr' fun _ => ?_
  cases hdoc : documents.get id with
  | none => exact ⟨fun _ _ h => (by cases h), fun _ => rfl⟩
  | some content =>
    dsimp only
    cases hrole : env.roleOfDocument content.metadata with
    | ok role => exact ⟨fun _ _ h => (Option.some.inj h) ▸ ⟨role, hrole⟩, fun _ => rfl⟩
    | error e =>
      refine ⟨fun h => (by cases h), fun h => ?_⟩
      have hgives := h content rfl
      rw [hrole] at hgives
      exact absurd hgives (not_gives_error e)

omit [LinearOrder τ] in
theorem ensureAll_ok (h : env.ensureAll documents ids sessionId = .ok ()) :
    ∀ id ∈ ids, ∀ content, documents.get id = some content →
      env.ensureDocScopeAccess content.metadata sessionId = .ok () := by
  intro id hid content hdoc
  have hone := forM_ok.mp h id hid
  rw [hdoc] at hone
  exact hone

theorem writable_iff (h : documents.get docId = some content) :
    env.writable documents docId = true ↔ Rewritable env content := by
  rw [Router.writable, h]
  exact decide_eq_true_iff

theorem batch_reached (lawful : env.tools.Lawful) (hclean : CleanIds ids)
    (hagree : ∀ id, s.rows.get id = s.docs.get id) (hanswers : ∀ id, env.faults id = {})
    (hlet : LetIn env s ids sessionId) : ∃ s', Reached env s s' (env.reached s.docs ids) ∧
      (Answerable env s.docs ids → env.reached s.docs ids = ids ∧
        ∃ answer, env.batchDeleteDocs s ids sessionId = (s', .ok answer)) ∧
      (¬ Answerable env s.docs ids → ∃ e, env.batchDeleteDocs s ids sessionId = (s', .error e)) := by
  obtain ⟨hthere, hensure⟩ := hlet
  have haccess := ensureAll_ok hensure
  let candidates := ids.filter (isCandidate s.docs)
  let others := ids.filter (fun docId => docId ∉ candidates)
  have hmissing : ids.filter (fun docId => s.docs.get docId = none) = [] :=
    List.filter_eq_nil_iff.mpr fun id hid hnone => hthere id hid (of_decide_eq_true hnone)
  have hgate : (require (missingDocuments (ids.filter (fun docId => s.docs.get docId = none)))
      (ids.filter (fun docId => s.docs.get docId = none) = []) >>= fun _ => env.ensureAll s.docs ids sessionId) =
        .ok () := bind_ok.mpr ⟨(), require_ok.mpr hmissing, hensure⟩
  have hmem {id : String} (hid : id ∈ candidates) : id ∈ ids ∧ isCandidate s.docs id = true := List.mem_filter.mp hid
  have hstored : ∀ id ∈ candidates, ∃ existing, s.docs.get id = some existing ∧ Stored env s id existing ∧
      env.ensureDocScopeAccess existing.metadata sessionId = .ok () := by
    intro id hid
    obtain ⟨existing, hdoc⟩ := Option.ne_none_iff_exists'.mp (hthere id (hmem hid).1)
    refine ⟨existing, hdoc, ⟨hdoc, ?_, hanswers id⟩, haccess id (hmem hid).1 existing hdoc⟩
    rw [hagree]
    exact hdoc
  have hcleanCandidates : CleanIds candidates :=
    ⟨hclean.nodup.filter _, fun id hid => hclean.named id (hmem hid).1⟩
  have hcleanOthers : CleanIds others :=
    ⟨hclean.nodup.filter _, fun id hid => hclean.named id (List.mem_of_mem_filter hid)⟩
  obtain ⟨s₁, hburied, hok, herror⟩ := bury_candidates lawful hstored hcleanCandidates
  by_cases hwritable : ∀ id ∈ candidates, env.writable s.docs id = true
  · -- every candidate is buried: the others follow, and the roles are counted
    have hall : candidates.takeWhile (env.writable s.docs) = candidates := List.takeWhile_eq_self_iff.mpr hwritable
    rw [hall] at hburied
    have hreached : env.reached s.docs ids = ids := if_pos (List.all_eq_true.mpr hwritable)
    have hother {id : String} (hid : id ∈ ids) (hplain : isCandidate s.docs id = false) :
        id ∈ others ∧ id ∉ candidates := by
      have hnot : id ∉ candidates := fun hcandidate => by
        rw [(hmem hcandidate).2] at hplain
        cases hplain
      exact ⟨List.mem_filter.mpr ⟨hid, decide_eq_true hnot⟩, hnot⟩
    have hplain : ∀ id ∈ others, ∀ content, s₁.docs.get id = some content → content.candidate = false := by
      intro id hid content hdoc
      obtain ⟨hids, hnot⟩ := List.mem_filter.mp hid
      have hcandidates : id ∉ candidates := of_decide_eq_true hnot
      rw [(hburied.others id hcandidates).1] at hdoc
      rw [← isCandidate_eq hdoc]
      exact Bool.eq_false_iff.mpr fun hcandidate => hcandidates (List.mem_filter.mpr ⟨hids, hcandidate⟩)
    obtain ⟨s₂, hdeleted, hget⟩ := delete_others hanswers hcleanOthers hplain
    have hroute : env.batchDeleteDocs s ids sessionId = (s₂, (env.countRoles s.docs ids).map fun _ =>
        .obj [("status", .str "deleted"), ("ids", .arr (ids.map .str)), ("deleted_count", .int ids.length)]) := by
      unfold Router.batchDeleteDocs
      dsimp only
      rw [hgate]
      dsimp only
      rw [hok hwritable]
      show Handled.andThen (if others = [] then (s₁, .ok ()) else env.deleteMemoryDocuments s₁ others) _ = _
      rw [hdeleted]
      rfl
    have hnotOther {id : String} (hid : id ∈ candidates) : id ∉ others := fun hmem' =>
      of_decide_eq_true (List.mem_filter.mp hmem').2 hid
    refine ⟨s₂, ⟨fun id hid existing hdoc hcandidate => ?_, fun id hid existing hdoc hplainDoc => ?_, fun id hid => ?_⟩,
      fun hanswerable => ⟨hreached, ?_⟩, fun hnot => ?_⟩
    · rw [hreached] at hid
      have hin : id ∈ candidates := List.mem_filter.mpr ⟨hid, by rw [isCandidate_eq hdoc, hcandidate]⟩
      obtain ⟨content, hcontent, hrow, hburiedDoc⟩ := hburied.buried id hin existing hdoc
      refine ⟨content, ?_, ?_, hburiedDoc⟩
      · rw [(hget id).1, if_neg (hnotOther hin), hcontent]
      · rw [(hget id).2, if_neg (hnotOther hin), hrow]
    · rw [hreached] at hid
      have hin := (hother hid (by rw [isCandidate_eq hdoc, hplainDoc])).1
      exact ⟨by rw [(hget id).1, if_pos hin], by rw [(hget id).2, if_pos hin]⟩
    · rw [hreached] at hid
      have hnotIn : id ∉ others := fun hmem' => hid (List.mem_of_mem_filter hmem')
      obtain ⟨hdocs, hrows⟩ := hburied.others id fun hmem' => hid (hmem hmem').1
      exact ⟨by rw [(hget id).1, if_neg hnotIn, hdocs], by rw [(hget id).2, if_neg hnotIn, hrows]⟩
    · have hroles : env.countRoles s.docs ids = .ok () :=
        countRoles_ok.mpr fun id hid content hdoc => (hanswerable id hid content hdoc).2
      rw [hroute, hroles]
      exact ⟨_, rfl⟩
    · rw [hroute]
      cases hroles : env.countRoles s.docs ids with
      | error e => exact ⟨e, rfl⟩
      | ok u =>
        refine absurd (fun id hid content hdoc => ⟨fun hcandidate => ?_, ?_⟩) hnot
        · have hin : id ∈ candidates := List.mem_filter.mpr ⟨hid, by rw [isCandidate_eq hdoc, hcandidate]⟩
          exact (writable_iff hdoc).mp (hwritable id hin)
        · exact countRoles_ok.mp hroles id hid content hdoc
  · -- a candidate is refused, and the request ends there
    have hreached : env.reached s.docs ids = candidates.takeWhile (env.writable s.docs) :=
      if_neg fun hevery => hwritable (List.all_eq_true.mp hevery)
    have hin {id : String} (hid : id ∈ env.reached s.docs ids) : id ∈ candidates := by
      rw [hreached] at hid
      exact List.takeWhile_subset _ hid
    obtain ⟨e, hstopped⟩ := herror hwritable
    have hroute : env.batchDeleteDocs s ids sessionId = (s₁, .error e) := by
      unfold Router.batchDeleteDocs
      dsimp only
      rw [hgate]
      dsimp only
      rw [hstopped]
      rfl
    refine ⟨s₁, ⟨fun id hid existing hdoc _ => ?_, fun id hid existing hdoc hplain => ?_, fun id hid => ?_⟩,
      fun hanswerable => ?_, fun _ => ⟨e, hroute⟩⟩
    · rw [hreached] at hid
      exact hburied.buried id hid existing hdoc
    · have hcandidate := (hmem (hin hid)).2
      rw [isCandidate_eq hdoc, hplain] at hcandidate
      cases hcandidate
    · rw [hreached] at hid
      exact hburied.others id hid
    · refine absurd (fun id hid => ?_) hwritable
      obtain ⟨existing, hdoc⟩ := Option.ne_none_iff_exists'.mp (hthere id (hmem hid).1)
      have hcandidate := (hmem hid).2
      rw [isCandidate_eq hdoc] at hcandidate
      exact (writable_iff hdoc).mpr ((hanswerable id (hmem hid).1 existing hdoc).1 hcandidate)

theorem reached_subset {id : String} (hid : id ∈ env.reached documents ids) : id ∈ ids := by
  unfold Router.reached at hid
  dsimp only at hid
  split at hid
  · exact hid
  · exact List.mem_of_mem_filter (List.takeWhile_subset _ hid)

theorem batch_refused (hlet : ¬ LetIn env s ids sessionId) :
    ∃ e, env.batchDeleteDocs s ids sessionId = (s, .error e) := by
  unfold Router.batchDeleteDocs
  dsimp only
  cases hgate : require (missingDocuments (ids.filter (fun docId => s.docs.get docId = none)))
      (ids.filter (fun docId => s.docs.get docId = none) = []) >>= fun _ => env.ensureAll s.docs ids sessionId with
  | error e => exact ⟨e, rfl⟩
  | ok u =>
    obtain ⟨_, hmissing, hensure⟩ := bind_ok.mp hgate
    refine absurd ⟨fun id hid hnone => ?_, hensure⟩ hlet
    exact List.filter_eq_nil_iff.mp (require_ok.mp hmissing) id hid (decide_eq_true hnone)

/-- A batch delete is all or nothing if and only if it is not let in, or no candidate of it is
refused and all its roles are roles, or deleting shows on no document that it reached. -/
theorem batch_delete_atomic (lawful : env.tools.Lawful) {raw : List String} (hids : batchIds raw = some ids)
    (hagree : ∀ id, s.rows.get id = s.docs.get id) (hanswers : ∀ id, env.faults id = {}) :
    AllOrNothing env s ids sessionId ↔ Separable env s ids sessionId := by
  by_cases hlet : LetIn env s ids sessionId
  · obtain ⟨s', hreached, hanswered, hstopped⟩ := batch_reached lawful (batchIds_ok hids).1 hagree hanswers hlet
    have hthere : ∀ id ∈ env.reached s.docs ids, s.docs.get id ≠ none := fun id hid => hlet.1 id (reached_subset hid)
    have hunchanged := reached_unchanged hagree hthere hreached
    by_cases hanswerable : Answerable env s.docs ids
    · refine ⟨fun _ _ => Or.inl hanswerable, fun _ => Or.inl ?_⟩
      obtain ⟨hall, answer, hroute⟩ := hanswered hanswerable
      rw [hroute]
      rw [hall] at hreached
      refine ⟨⟨answer, rfl⟩, fun id hid => ⟨fun hplain => ?_, fun hcandidate => ?_⟩⟩
      · obtain ⟨existing, hdoc⟩ := Option.ne_none_iff_exists'.mp (hlet.1 id hid)
        rw [isCandidate_eq hdoc] at hplain
        exact hreached.gone id hid existing hdoc hplain
      · obtain ⟨existing, hdoc⟩ := Option.ne_none_iff_exists'.mp (hlet.1 id hid)
        rw [isCandidate_eq hdoc] at hcandidate
        obtain ⟨content, hcontent, hrow, hburied⟩ := hreached.buried id hid existing hdoc hcandidate
        exact ⟨content, hcontent, hrow, hburied.state⟩
    · obtain ⟨e, hroute⟩ := hstopped hanswerable
      unfold AllOrNothing
      rw [hroute]
      dsimp only
      constructor
      · intro hatomic _
        obtain ⟨⟨answer, hok⟩, -⟩ | ⟨-, hsame⟩ := hatomic
        · cases hok
        · exact Or.inr (hunchanged.mp hsame)
      · intro hseparable
        exact Or.inr ⟨⟨e, rfl⟩, hunchanged.mpr ((hseparable hlet).resolve_left hanswerable)⟩
  · obtain ⟨e, hroute⟩ := batch_refused hlet
    refine ⟨fun _ h => absurd h hlet, fun _ => Or.inr ?_⟩
    rw [hroute]
    exact ⟨⟨e, rfl⟩, fun id => ⟨rfl, rfl⟩⟩

end Batch

/-! ## A batch that is cut short -/

/-- A candidate whose expiry has passed. -/
def pastCandidate : Content where
  text := "The user is in Rome."
  metadata := teaCandidate.metadata.set "expires_at" (.str "2025-12-31T00:00:00Z")

def pairStore (first second : Content) : SqliteStore where
  rows := (Dict.empty.set "m1" first).set "m2" second
  docs := (Dict.empty.set "m1" first).set "m2" second

/-- Two candidates are deleted together. -/
theorem batch_delete_atomic_pair :
    AllOrNothing plainRouter (pairStore teaCandidate teaCandidate) ["m1", "m2"] none := by
  have hids : batchIds ["m1", " m2", "m1"] = some ["m1", "m2"] := by decide +kernel
  refine (batch_delete_atomic newYear_lawful hids (fun _ => rfl) fun _ => rfl).mpr fun _ => Or.inl ?_
  intro id hid content hdoc
  have hcontent : content = teaCandidate := by
    rcases List.mem_cons.mp hid with rfl | hlater
    · exact (Option.some.inj (hdoc.symm.trans (by decide +kernel)))
    · rw [List.mem_singleton.mp hlater] at hdoc
      exact (Option.some.inj (hdoc.symm.trans (by decide +kernel)))
  rw [hcontent]
  exact ⟨fun _ => candidate_rewritable, by decide +kernel⟩

/-- The second candidate is refused when the first is deleted already. -/
theorem batch_cut_short : ¬ AllOrNothing plainRouter (pairStore teaCandidate pastCandidate) ["m1", "m2"] none := by
  intro hatomic
  have hrefused : (plainRouter.batchDeleteDocs (pairStore teaCandidate pastCandidate) ["m1", "m2"] none).2 =
      .error (.http 400 (.str "expires_at must be in the future")) := by decide +kernel
  have hchanged : (((plainRouter.batchDeleteDocs (pairStore teaCandidate pastCandidate) ["m1", "m2"] none).1.docs.get
      "m1").map (view plainRouter)).map (fun seen => seen.2.2) ≠
    (((pairStore teaCandidate pastCandidate).docs.get "m1").map (view plainRouter)).map (fun seen => seen.2.2) := by
    decide +kernel
  obtain ⟨⟨answer, hok⟩, -⟩ | ⟨-, hsame⟩ := hatomic
  · rw [hrefused] at hok
    cases hok
  · exact hchanged (congrArg (Option.map fun seen => seen.2.2) (hsame "m1").1)

end Memory
