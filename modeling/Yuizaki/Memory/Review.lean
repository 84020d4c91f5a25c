import Yuizaki.Lib.Run
import Yuizaki.Memory.Mirror
import Yuizaki.Memory.Removal
import Yuizaki.Memory.Requests

/- A review is final.

   A document that was rejected or deleted is `Sealed`: its marks are in memory and in the
   table, or it is in neither. The write helper carries the marks, the routes put the fields of
   the server back, and a create is refused under the id of a candidate. One route takes a mark
   away: an update whose role is `tool_permission` sets the review of the document to pending,
   and a candidate whose review is pending can be approved. `review_is_final` is about every
   run without such an update. -/
namespace Memory

open Fallible Transition

variable {τ : Type} [LinearOrder τ] {tools : MetadataTools τ} {env : Router τ} {m n : Metadata} {key id : String}
  {s s' : SqliteStore} {content existing : Content}

/-! ## Marks that are final -/

/-- The marks of a memory that was rejected or deleted. -/
def Final (m : Metadata) : Prop :=
  (m.value "candidate_deleted").truthy = true ∨ m.get "review_status" = some (.str "rejected") ∨
    m.get "review_status" = some (.str "deleted")

omit [LinearOrder τ] in
theorem Final.carried (hcarries : Carries m n) (h : Final m) : Final n := by
  obtain hdeleted | hrejected | hstatus := h
  · refine Or.inl ?_
    rw [value_congr (hcarries.plain "candidate_deleted" (by decide))]
    exact hdeleted
  · exact Or.inr (Or.inl (hcarries.status _ (by decide) hrejected))
  · exact Or.inr (Or.inr (hcarries.status _ (by decide) hstatus))

theorem Final.congr (hdeleted : n.get "candidate_deleted" = m.get "candidate_deleted")
    (hstatus : n.get "review_status" = m.get "review_status") (h : Final m) : Final n := by
  unfold Final
  rw [value_congr hdeleted, hstatus]
  exact h

theorem Final.not_recallable (h : Final m) (now : τ) : ¬ Recallable tools now m := by
  have hstatus {status : String} (hmem : status ∈ reviewOutcomes) (hget : m.get "review_status" = some (.str status)) :
      reviewStatus tools m = status := by
    rw [reviewStatus, value_eq hget]
    exact outcome_word hmem
  obtain hdeleted | hrejected | hdeletedStatus := h
  · exact deleted_not_recallable hdeleted
  · refine status_not_recallable ?_
    rw [hstatus (by decide) hrejected]
    decide
  · refine status_not_recallable ?_
    rw [hstatus (by decide) hdeletedStatus]
    decide

/-- A document that is in neither level. -/
def Absent (s : SqliteStore) (id : String) : Prop := s.docs.get id = none ∧ s.rows.get id = none

/-- A document that was rejected or deleted: it is absent, or marked in both levels. -/
def Sealed (s : SqliteStore) (id : String) : Prop :=
  Absent s id ∨ (∃ content, s.docs.get id = some content ∧ Final content.metadata) ∧
    ∀ row, s.rows.get id = some row → Final row.metadata

theorem Sealed.doc (h : Sealed s id) (hdoc : s.docs.get id = some content) : Final content.metadata := by
  obtain ⟨hnone, -⟩ | ⟨⟨content', hcontent, hfinal⟩, -⟩ := h
  · rw [hnone] at hdoc
    cases hdoc
  · rw [hcontent] at hdoc
    exact Option.some.inj hdoc ▸ hfinal

theorem Sealed.gone (h : Sealed s id) : Gone tools s id := by
  intro content hcontent now
  obtain ⟨hdoc, hrow⟩ | ⟨⟨content', hdoc, hfinal⟩, hrow⟩ := h
  · rw [hdoc, hrow] at hcontent
    rcases hcontent with hnone | hnone <;> cases hnone
  · rcases hcontent with hcontent | hcontent
    · rw [hdoc] at hcontent
      exact Option.some.inj hcontent ▸ hfinal.not_recallable now
    · exact (hrow content hcontent).not_recallable now

theorem Sealed.congr (hdoc : s'.docs.get id = s.docs.get id) (hrow : s'.rows.get id = s.rows.get id)
    (h : Sealed s id) : Sealed s' id := by
  unfold Sealed Absent
  rw [hdoc, hrow]
  exact h

theorem sealed_set (hfinal : Final n) {text : String} (hdoc : s'.docs = s.docs.set id ⟨text, n⟩)
    (hrow : s'.rows = s.rows.set id ⟨text, n⟩) : Sealed s' id := by
  refine Or.inr ⟨⟨⟨text, n⟩, ?_, hfinal⟩, fun row hget => ?_⟩
  · rw [hdoc]
    exact Dict.get_set_self
  · rw [hrow, Dict.get_set_self] at hget
    exact Option.some.inj hget ▸ hfinal

/-! ## Writes and deletions -/

theorem sealed_write {doc : Document} (h : Sealed s id)
    (hdoc : doc.id = id → s.docs.get id ≠ none ∧ Final doc.metadata) : Sealed (env.writeMemoryDocument s doc).1 id := by
  obtain ⟨hsame, -⟩ | ⟨prepared, n, hprepared, hpersisted, hrows, hdocs⟩ := write_cases (s := s) env doc
  · rw [hsame]
    exact h
  by_cases hid : doc.id = id
  · obtain ⟨hthere, hfinal⟩ := hdoc hid
    have hcarries : Carries doc.metadata n := (prepareWrite_carries hprepared).trans (persisted_carries hpersisted)
    have hwritten : Final n := hfinal.carried hcarries
    rw [hid] at hrows hdocs
    obtain ⟨-, hdocs, -⟩ | hdocs := hdocs
    · -- the embedding raised: the document in memory is the one that was there
      obtain ⟨content, hcontent⟩ := Option.ne_none_iff_exists'.mp hthere
      refine Or.inr ⟨⟨content, ?_, h.doc hcontent⟩, fun row hrow => ?_⟩
      · rw [hdocs]
        exact hcontent
      · rw [hrows, Dict.get_set_self] at hrow
        exact Option.some.inj hrow ▸ hwritten
    · exact sealed_set hwritten hdocs hrows
  · have hne : id ≠ doc.id := fun heq => hid heq.symm
    refine h.congr ?_ ?_
    · obtain ⟨-, hdocs, -⟩ | hdocs := hdocs
      · rw [hdocs]
      · rw [hdocs, Dict.get_set_of_ne hne]
    · rw [hrows, Dict.get_set_of_ne hne]

omit [LinearOrder τ] in
theorem sealed_deleteOne (documents : Dict String Content) (docId : String) (h : Sealed s id) :
    Sealed (env.deleteOne documents s docId).1 id := by
  have hdeleted : Sealed (stored (s.deleteDocument (env.faults docId) docId)).1 id := by
    unfold stored SqliteStore.deleteDocument
    split
    · exact h
    · by_cases hid : id = docId
      · refine Or.inl ⟨?_, ?_⟩
        · show (s.docs.erase docId).get id = none
          rw [Dict.get_erase, if_pos hid]
        · show (s.rows.erase docId).get id = none
          rw [Dict.get_erase, if_pos hid]
      · refine h.congr ?_ ?_
        · show (s.docs.erase docId).get id = _
          rw [Dict.get_erase, if_neg hid]
        · show (s.rows.erase docId).get id = _
          rw [Dict.get_erase, if_neg hid]
  exact andThen_keeps (P := (Sealed · id)) hdeleted fun _ _ => hdeleted

omit [LinearOrder τ] in
theorem tombstone_final {metadata : Metadata} (h : env.tombstone m = .ok metadata) : Final metadata := by
  have haudit : env.appendAudit (env.buried m) "delete_candidate" (some "candidate_deleted") = .ok metadata :=
    escaped_ok.mp h
  have hmark : metadata.get "candidate_deleted" = some (.bool true) := by
    rw [appendAudit_frame haudit (by decide)]
    exact Dict.get_set_self
  refine Or.inl ?_
  rw [value_eq hmark]
  rfl

omit [LinearOrder τ] in
theorem sealed_buryOne (e : String × Content) (h : Sealed s id) : Sealed (env.buryOne s e).1 id := by
  unfold Router.buryOne
  cases htombstone : env.tombstone e.2.metadata with
  | error error => exact h
  | ok metadata =>
    show Sealed (stored (s.addMetadataDocument env.tools env.now (env.faults e.1) _)).1 id
    unfold stored SqliteStore.addMetadataDocument
    cases hpersist : s.persist env.tools env.now (env.faults e.1) { id := e.1, text := e.2.text, metadata } with
    | error error => exact h
    | ok result =>
      obtain ⟨written, n⟩ := result
      obtain ⟨hn, -, rfl⟩ := SqliteStore.persist_ok hpersist
      have hfinal : Final n := (tombstone_final htombstone).carried (persisted_carries hn)
      by_cases hid : e.1 = id
      · rw [← hid]
        exact sealed_set hfinal rfl rfl
      · have hne : id ≠ e.1 := fun heq => hid heq.symm
        refine h.congr ?_ ?_
        · show (s.docs.set e.1 _).get id = _
          rw [Dict.get_set_of_ne hne]
        · show (s.rows.set e.1 _).get id = _
          rw [Dict.get_set_of_ne hne]

omit [LinearOrder τ] in
theorem sealed_deleteMemoryDocuments (docIds : List String) (h : Sealed s id) :
    Sealed (env.deleteMemoryDocuments s docIds).1 id := by
  have hdeleted : Sealed (eachOf (env.deleteOne s.docs) docIds s).1 id :=
    eachOf_keeps (P := (Sealed · id)) (fun _ docId _ hs => sealed_deleteOne s.docs docId hs) h
  exact andThen_keeps (P := (Sealed · id)) hdeleted fun _ _ => eachOf_keeps (P := (Sealed · id)) (fun _ e _ hs => sealed_buryOne e hs) hdeleted

/-! ## Edits -/

theorem sealed_editDoc {docId : String} {sessionId : Option String} {change : Content → Except RouteError Edit}
    (h : Sealed s id) (hchange : docId = id → ∀ existing answer content, s.docs.get id = some existing →
      Final existing.metadata → change existing = .ok ⟨answer, some content⟩ → Final content.metadata) :
    Sealed (env.editDoc s docId sessionId change).1 id := by
  unfold Router.editDoc
  split
  · exact h
  · rename_i existing hdoc
    split
    · exact h
    · exact h
    · rename_i answer content hedit
      obtain ⟨_, -, hedit⟩ := bind_ok.mp hedit
      refine andThen_keeps (P := (Sealed · id)) (sealed_write h fun hid => ?_) fun _ _ => sealed_write h fun hid => ?_
      all_goals
        have hdocId : docId = id := hid
        have hget : s.docs.get id = some existing := hdocId ▸ hdoc
        refine ⟨by rw [hget]; exact Option.some_ne_none existing, ?_⟩
        exact hchange hdocId existing answer content hget (h.doc hget) hedit

omit [LinearOrder τ] in
theorem audited_final {action : String} {reason : Option String} {before : Option Json}
    (h : env.appendAudit m action reason before = .ok n) (hfinal : Final m) : Final n :=
  hfinal.congr (appendAudit_frame h (by decide)) (appendAudit_frame h (by decide))

theorem editMetadata_ok {answer : List (String × Json)} {x : Except PyError Metadata} {edit : Json}
    (h : editMetadata existing answer x = .ok ⟨edit, some content⟩) :
    x = .ok content.metadata ∧ content.text = existing.text := by
  obtain ⟨metadata, hmetadata, h⟩ := bind_ok.mp h
  have hcontent : { existing with metadata } = content := by
    have hedit := pure_ok.mp h
    injection hedit with _ hsome
    exact Option.some.inj hsome
  rw [← hcontent]
  exact ⟨escaped_ok.mp hmetadata, rfl⟩

theorem sealed_softForgetDoc {docId : String} (payload : SoftForget) (h : Sealed s id) :
    Sealed (env.softForgetDoc s docId payload).1 id := by
  refine sealed_editDoc h fun _ existing answer content _ hfinal hchange => ?_
  obtain ⟨haudit, -⟩ := editMetadata_ok hchange
  refine audited_final haudit (hfinal.congr ?_ ?_)
  all_goals
    split
    · rw [Dict.get_set_of_ne (by decide), Dict.get_set_of_ne (by decide), Dict.get_set_of_ne (by decide)]
    · rw [Dict.get_set_of_ne (by decide), Dict.get_set_of_ne (by decide)]

theorem sealed_restoreDoc {docId : String} (payload : SoftForget) (h : Sealed s id) :
    Sealed (env.restoreDoc s docId payload).1 id := by
  refine sealed_editDoc h fun _ existing answer content _ hfinal hchange => ?_
  dsimp only at hchange
  split at hchange
  · obtain ⟨haudit, -⟩ := editMetadata_ok hchange
    refine audited_final haudit (hfinal.congr ?_ ?_)
    all_goals
      rw [Dict.get_erase, if_neg (by decide), Dict.get_erase, if_neg (by decide), Dict.get_erase, if_neg (by decide)]
  · cases hchange

theorem sealed_reviewDoc {docId : String} (review : Review) (h : Sealed s id) :
    Sealed (env.reviewDoc s docId review).1 id := by
  refine sealed_editDoc h fun _ existing answer content _ hfinal hchange => ?_
  obtain ⟨_, -, hchange⟩ := bind_ok.mp hchange
  obtain ⟨_, hundecided, -⟩ := bind_ok.mp hchange
  obtain ⟨hgone, hrejected⟩ := require_ok.mp hundecided
  have hread {status : String} (hmem : status ∈ reviewOutcomes)
      (hget : existing.metadata.get "review_status" = some (.str status)) :
      PyStr.lower env.tools.wide (env.tools.str ((existing.metadata.value "review_status").or (.str ""))) = status := by
    have htruthy : (Json.str status).truthy = true := decide_eq_true (outcome_spelled status hmem).1
    rw [value_eq hget, Json.or, if_pos htruthy]
    exact outcome_lower env.tools.wide hmem
  obtain hdeleted | hstatus | hstatus := hfinal
  · exact absurd (Or.inl hdeleted) hgone
  · exact absurd (hread (by decide) hstatus) hrejected
  · exact absurd (Or.inr (hread (by decide) hstatus)) hgone

omit [LinearOrder τ] in
theorem keepFields_some {fields : List String} {old new : Metadata} {v : Json} (hkey : key ∈ fields)
    (hget : old.get key = some v) : (keepFields fields old new).get key = some v := by
  rw [get_keepFields, if_pos hkey, hget]
  rfl

omit [LinearOrder τ] in
theorem restored_final {current : Metadata} {snapshot : Json} (hfinal : Final current) :
    Final (env.restoredMetadata current snapshot) := by
  have hstatus {status : String} (hmem : status = "rejected" ∨ status = "deleted")
      (hget : current.get "review_status" = some (.str status)) :
      (env.restoredMetadata current snapshot).get "review_status" = some (.str status) := by
    have houtcome : status ∈ reviewOutcomes := by rcases hmem with rfl | rfl <;> decide
    have hread : reviewStatus env.tools current = status := by
      rw [reviewStatus, value_eq hget]
      exact outcome_word houtcome
    unfold Router.restoredMetadata
    dsimp only
    rw [hread, if_pos hmem.symm, get_keepFields, if_neg (by decide)]
    exact Dict.get_set_self
  obtain hdeleted | hrejected | hdeletedStatus := hfinal
  · -- a mark that is truthy is there, and every field that is there is kept
    obtain ⟨v, hv⟩ : ∃ v, current.get "candidate_deleted" = some v := by
      cases hget : current.get "candidate_deleted" with
      | some v => exact ⟨v, rfl⟩
      | none =>
        rw [Metadata.value, hget] at hdeleted
        cases hdeleted
    have hkept : (env.restoredMetadata current snapshot).get "candidate_deleted" = some v := by
      unfold Router.restoredMetadata
      dsimp only
      split
      · rw [get_keepFields, if_neg (by decide), Dict.get_set_of_ne (by decide)]
        exact keepFields_some (by decide) hv
      · exact keepFields_some (by decide) hv
    refine Or.inl ?_
    rw [value_eq hkept, ← value_eq hv]
    exact hdeleted
  · exact Or.inr (Or.inl (hstatus (Or.inl rfl) hrejected))
  · exact Or.inr (Or.inr (hstatus (Or.inr rfl) hdeletedStatus))

theorem sealed_rollbackDoc {docId : String} (payload : Rollback) (h : Sealed s id) :
    Sealed (env.rollbackDoc s docId payload).1 id := by
  refine sealed_editDoc h fun _ existing answer content _ hfinal hchange => ?_
  obtain ⟨current, hcurrent, hchange⟩ := bind_ok.mp hchange
  dsimp only at hchange
  split at hchange
  · cases hchange
  · split at hchange
    · cases hchange
    · obtain ⟨_, -, hchange⟩ := bind_ok.mp hchange
      obtain ⟨content', hcontent, hchange⟩ := bind_ok.mp hchange
      have hsame : content' = content := by
        have hedit := pure_ok.mp hchange
        injection hedit with _ hsome
        exact Option.some.inj hsome
      subst hsame
      obtain ⟨_, -, hcontent⟩ := bind_ok.mp hcontent
      obtain ⟨metadata, hmetadata, hcontent⟩ := bind_ok.mp hcontent
      have hmetadata' : metadata = content'.metadata := congrArg Content.metadata (pure_ok.mp hcontent)
      rw [← hmetadata']
      exact audited_final (escaped_ok.mp hmetadata)
        (restored_final (hfinal.carried (normalize_carries (escaped_ok.mp hcurrent))))

/-! ## Updates and new documents -/

/-- An update that does not put a rejected document under review again: the document carries
the mark of a deletion, or the role of the update is not that of permission history. -/
def KeepsReview (env : Router τ) (s : SqliteStore) (id : String) (payload : Update) : Prop :=
  ∀ existing, s.docs.get id = some existing → (existing.metadata.value "candidate_deleted").truthy = true ∨
    env.resolveMemoryRole (env.updateRouting payload (updatedText payload existing)
      (payload.merged existing.metadata)) ≠ .ok "tool_permission"

omit [LinearOrder τ] in
theorem decided_role {routing : Routing} {decided : Decided} (h : env.decideUpdate routing = .ok decided) :
    env.resolveMemoryRole routing = .ok decided.role := by
  obtain ⟨role, hrole, h⟩ := bind_ok.mp h
  obtain ⟨workspace, -, h⟩ := bind_ok.mp h
  rw [← pure_ok.mp h]
  exact escaped_ok.mp hrole

theorem sealed_updateDocImpl {docId auditAction : String} {payload : Update} (h : Sealed s id)
    (hkeeps : docId = id → KeepsReview env s id payload) :
    Sealed (env.updateDocImpl s docId payload auditAction).1 id := by
  refine sealed_editDoc h fun hid existing answer content hdoc hfinal hchange => ?_
  obtain ⟨decided, hdecided, -, haudit⟩ := updateContent_ok hchange
  have hmerged (key : String) (hkey : key ∈ immutableFields) :
      (payload.merged existing.metadata).get key = existing.metadata.get key := by
    rw [Update.merged, get_keepImmutable, if_pos hkey]
  have hdeleted : content.metadata.get "candidate_deleted" = existing.metadata.get "candidate_deleted" := by
    rw [appendAudit_frame haudit (by decide), updated_frame (by decide) (fun _ => by decide)]
    exact hmerged _ (by decide)
  obtain hmark | hrole := hkeeps hid existing hdoc
  · refine Or.inl ?_
    rw [value_congr hdeleted]
    exact hmark
  · refine hfinal.congr hdeleted ?_
    have hplain : decided.role = "tool_permission" → "review_status" ∉ governanceKeys := fun hpermission =>
      absurd (hpermission ▸ decided_role hdecided) hrole
    rw [appendAudit_frame haudit (by decide), updated_frame (by decide) hplain]
    exact hmerged _ (by decide)

omit [LinearOrder τ] in
theorem held_of_final (h : Final m) : env.heldCandidate m = true := by
  have hstatus {status : String} (hmem : status = "rejected" ∨ status = "deleted")
      (hget : m.get "review_status" = some (.str status)) :
      reviewStatus env.tools m ∈ ["pending", "approved", "rejected", "deleted"] := by
    have houtcome : status ∈ reviewOutcomes := by rcases hmem with rfl | rfl <;> decide
    have hread : reviewStatus env.tools m = status := by
      rw [reviewStatus, value_eq hget]
      exact outcome_word houtcome
    rw [hread]
    rcases hmem with rfl | rfl <;> decide
  refine decide_eq_true ?_
  obtain hdeleted | hrejected | hdeletedStatus := h
  · exact Or.inr (Or.inl hdeleted)
  · exact Or.inr (Or.inr (Or.inr (Or.inr (hstatus (Or.inl rfl) hrejected))))
  · exact Or.inr (Or.inr (Or.inr (Or.inr (hstatus (Or.inr rfl) hdeletedStatus))))

/-- A new document is put under an id of its own, unless the client names the id of a document
that is there. -/
def OwnId (s : SqliteStore) (id : String) (payload : NewMemory) (fresh : String) : Prop :=
  payload.docId fresh = id → payload.id ≠ none ∧ s.docs.get id ≠ none

theorem sealed_addDoc {payload : NewMemory} {fresh : String} {similar : Except RouteError (List Json)}
    (h : Sealed s id) (hown : OwnId s id payload fresh) : Sealed (env.addDoc s payload fresh similar).1 id := by
  unfold Router.addDoc
  dsimp only
  split
  · exact h
  · rename_i document hprepared
    obtain ⟨_, -, hprepared⟩ := bind_ok.mp hprepared
    obtain ⟨_, hreplaceable, hprepared⟩ := bind_ok.mp hprepared
    have hid : document.id = payload.docId fresh := by
      obtain ⟨source, -, hprepared⟩ := bind_ok.mp hprepared
      obtain ⟨workspace, -, hprepared⟩ := bind_ok.mp hprepared
      obtain ⟨role, -, hprepared⟩ := bind_ok.mp hprepared
      obtain ⟨m, -, hprepared⟩ := bind_ok.mp hprepared
      obtain ⟨metadata, -, hprepared⟩ := bind_ok.mp hprepared
      rw [← pure_ok.mp hprepared]
    -- the document that is sealed is not the one that is created
    have hother : document.id ≠ id := by
      intro heq
      rw [hid] at heq
      obtain ⟨hgiven, hthere⟩ := hown heq
      obtain ⟨given, hgiven⟩ := Option.ne_none_iff_exists'.mp hgiven
      obtain ⟨existing, hdoc⟩ := Option.ne_none_iff_exists'.mp hthere
      unfold Router.ensureReplaceable at hreplaceable
      rw [heq, hgiven, hdoc] at hreplaceable
      obtain ⟨_, -, hheld⟩ := bind_ok.mp hreplaceable
      rw [require_ok, held_of_final (h.doc hdoc)] at hheld
      cases hheld
    split
    · exact h
    · exact h
    · have hwrite : Sealed (env.writeMemoryDocument s document).1 id :=
        sealed_write h fun heq => absurd heq hother
      exact andThen_keeps (P := (Sealed · id)) hwrite fun _ _ => hwrite

theorem sealed_addMemory {payload : NewMemory} {fresh : String} {similar : Except RouteError (List Json)}
    (h : Sealed s id) (hfresh : fresh ≠ id) : Sealed (env.addMemory s payload fresh similar).1 id := by
  unfold Router.addMemory
  dsimp only
  split
  · exact h
  · split
    · exact h
    · exact sealed_addDoc h fun heq => absurd heq hfresh

/-! ## The other requests -/

theorem sealed_deleteDoc {docId : String} {sessionId : Option String} (h : Sealed s id) :
    Sealed (env.deleteDoc s docId sessionId).1 id := by
  unfold Router.deleteDoc
  split
  · exact h
  · split
    · refine sealed_editDoc h fun _ existing answer content _ _ hchange => ?_
      obtain ⟨metadata, htombstone, hchange⟩ := bind_ok.mp hchange
      have hcontent : { existing with metadata } = content := by
        have hedit := pure_ok.mp hchange
        injection hedit with _ hsome
        exact Option.some.inj hsome
      rw [← hcontent]
      exact tombstone_final htombstone
    · split
      · exact h
      · exact andThen_keeps (P := (Sealed · id)) (sealed_deleteMemoryDocuments _ h) fun _ _ => sealed_deleteMemoryDocuments _ h

theorem sealed_buryCandidate {documents : Dict String Content} {docId : String} (h : Sealed s id)
    (hthere : docId = id → s.docs.get id ≠ none) : Sealed (env.buryCandidate documents s docId).1 id := by
  unfold Router.buryCandidate
  split
  · exact h
  · split
    · exact h
    · rename_i metadata htombstone
      exact sealed_write h fun hid => ⟨hthere hid, tombstone_final htombstone⟩

theorem write_there {doc : Document} (h : s.docs.get id ≠ none) :
    (env.writeMemoryDocument s doc).1.docs.get id ≠ none := by
  obtain ⟨hsame, -⟩ | ⟨prepared, n, -, -, -, ⟨-, hdocs, -⟩ | hdocs⟩ := write_cases (s := s) env doc
  · rw [hsame]
    exact h
  · rw [hdocs]
    exact h
  · rw [hdocs, Dict.get_set]
    split
    · exact Option.some_ne_none _
    · exact h

/-- A seal in a batch: a document that was read for it is there until it is deleted. -/
def SealedBatch (documents : Dict String Content) (id : String) (s : SqliteStore) : Prop :=
  Sealed s id ∧ (documents.get id ≠ none → s.docs.get id ≠ none)

theorem batch_candidate {documents : Dict String Content} (docId : String) (h : SealedBatch documents id s) :
    SealedBatch documents id (env.buryCandidate documents s docId).1 := by
  obtain ⟨hsealed, hthere⟩ := h
  cases hdoc : documents.get docId with
  | none =>
    unfold Router.buryCandidate
    rw [hdoc]
    exact ⟨hsealed, hthere⟩
  | some existing =>
    have hread : docId = id → documents.get id ≠ none := fun hid => by
      rw [← hid, hdoc]
      exact Option.some_ne_none existing
    refine ⟨sealed_buryCandidate hsealed fun heq => hthere (hread heq), fun hold => ?_⟩
    unfold Router.buryCandidate
    split
    · exact hthere hold
    · split
      · exact hthere hold
      · exact write_there (hthere hold)

theorem sealed_batchDeleteDocs {docIds : List String} {sessionId : Option String} (h : Sealed s id) :
    Sealed (env.batchDeleteDocs s docIds sessionId).1 id := by
  unfold Router.batchDeleteDocs
  dsimp only
  split
  · exact h
  · have hburied : ∀ candidates, Sealed (eachOf (env.buryCandidate s.docs) candidates s).1 id := fun candidates =>
      (eachOf_keeps (P := SealedBatch s.docs id) (fun _ docId _ hs => batch_candidate docId hs) ⟨h, fun hthere => hthere⟩).1
    refine andThen_keeps (P := (Sealed · id)) (hburied _) fun _ _ => ?_
    refine andThen_keeps (P := (Sealed · id)) ?_ fun _ _ => ?_
    all_goals
      split
      · exact hburied _
      · exact sealed_deleteMemoryDocuments _ (hburied _)

omit [LinearOrder τ] in
theorem sealed_putMetadata {docId : String} {revision : ℕ} (h : Sealed s id) (hfinal : docId = id → Final m) :
    Sealed { s with
      rows := SqliteStore.putMetadata s.rows docId m
      revision
      docs := SqliteStore.putMetadata s.docs docId m } id := by
  by_cases hid : docId = id
  · obtain ⟨hdoc, hrow⟩ | ⟨⟨content, hcontent, -⟩, -⟩ := h
    · refine Or.inl ⟨?_, ?_⟩
      · show (SqliteStore.putMetadata s.docs docId m).get id = none
        rw [get_putMetadata, if_pos hid.symm, hid, hdoc]
        rfl
      · show (SqliteStore.putMetadata s.rows docId m).get id = none
        rw [get_putMetadata, if_pos hid.symm, hid, hrow]
        rfl
    · refine Or.inr ⟨⟨{ content with metadata := m }, ?_, hfinal hid⟩, fun row hrow => ?_⟩
      · show (SqliteStore.putMetadata s.docs docId m).get id = _
        rw [get_putMetadata, if_pos hid.symm, hid, hcontent]
        rfl
      · have hput : (SqliteStore.putMetadata s.rows docId m).get id = some row := hrow
        rw [get_putMetadata, if_pos hid.symm] at hput
        obtain ⟨content', -, hcontent'⟩ := Option.map_eq_some_iff.mp hput
        rw [← hcontent']
        exact hfinal hid
  · have hne : id ≠ docId := fun heq => hid heq.symm
    refine h.congr ?_ ?_
    · show (SqliteStore.putMetadata s.docs docId m).get id = _
      rw [get_putMetadata, if_neg hne]
    · show (SqliteStore.putMetadata s.rows docId m).get id = _
      rw [get_putMetadata, if_neg hne]

omit [LinearOrder τ] in
theorem sealed_feedbackDoc {docId feedback : String} {sessionId : Option String} (h : Sealed s id) :
    Sealed (env.feedbackDoc s docId feedback sessionId).1 id := by
  unfold Router.feedbackDoc
  split
  · exact h
  · rename_i existing hdoc
    split
    · exact h
    · rename_i summary _
      have hupdated : Sealed (stored (s.updateMetadata env.tools env.now (env.faults docId) docId
          (existing.metadata.set "recall_feedback" summary))).1 id := by
        unfold stored SqliteStore.updateMetadata
        split
        · exact h
        · rename_i normalized hnormalized
          split
          · exact h
          · split
            · exact h
            · refine sealed_putMetadata h fun hid => ?_
              have hfinal : Final existing.metadata := h.doc (hid ▸ hdoc)
              have hnoted : Final (existing.metadata.set "recall_feedback" summary) :=
                hfinal.congr (Dict.get_set_of_ne (by decide)) (Dict.get_set_of_ne (by decide))
              exact hnoted.carried (normalize_carries hnormalized)
      exact andThen_keeps (P := (Sealed · id)) hupdated fun _ _ => hupdated

omit [LinearOrder τ] in
theorem sealed_reopen {now : τ} {faults : Faults} (h : Sealed s id) : Sealed (s.reopen tools now faults).1 id := by
  have hrows : ∀ row, s.rows.get id = some row → Final row.metadata := by
    obtain ⟨-, hnone⟩ | ⟨-, hrows⟩ := h
    · intro row hrow
      rw [hnone] at hrow
      cases hrow
    · exact hrows
  have hmigrated : ∀ row, (SqliteStore.migratedRows tools now s.rows).get id = some row → Final row.metadata := by
    intro row hrow
    unfold SqliteStore.migratedRows at hrow
    rw [Dict.get_mapValues] at hrow
    obtain ⟨old, hold, hnew⟩ := Option.map_eq_some_iff.mp hrow
    rw [← hnew]
    cases hmigrated : SqliteStore.migrated tools now old with
    | error e => exact hrows old hold
    | ok content =>
      show Final content.metadata
      obtain ⟨normalized, hnormalized, hcontent⟩ := bind_ok.mp hmigrated
      split at hcontent
      · rw [← pure_ok.mp hcontent]
        exact hrows old hold
      · rw [← pure_ok.mp hcontent]
        exact (hrows old hold).carried (normalize_carries hnormalized)
  have hloaded {rows : Dict String Content} (hfinal : ∀ row, rows.get id = some row → Final row.metadata)
      (heq : rows.get id = (SqliteStore.migratedRows tools now s.rows).get id) (revision : ℕ) :
      Sealed { s with rows, revision, docs := SqliteStore.migratedRows tools now s.rows } id := by
    cases hrow : (SqliteStore.migratedRows tools now s.rows).get id with
    | none => exact Or.inl ⟨hrow, heq.trans hrow⟩
    | some row => exact Or.inr ⟨⟨row, hrow, hmigrated row hrow⟩, hfinal⟩
  unfold SqliteStore.reopen
  split
  · exact h
  · dsimp only
    split
    · split
      · exact h
      · exact hloaded hmigrated rfl _
    · rename_i hnone
      refine hloaded hrows ?_ _
      rw [SqliteStore.migratedRows_of_none (Bool.eq_false_iff.mpr hnone)]

/-! ## Runs -/

/-- A request that leaves the review of a document as it is: it does not put the document under
review again, and it creates no other document in its place. -/
def LeavesReview (env : Router τ) (s : SqliteStore) (id : String) : Request → Prop
  | .create payload fresh _ => OwnId s id payload fresh
  | .add _ fresh _ => fresh ≠ id
  | .update docId payload => docId = id → KeepsReview env s id payload
  | .correct docId payload => docId = id → KeepsReview env s id payload.update
  | _ => True

theorem sealed_serve {request : Request} (h : Sealed s id) (hleaves : LeavesReview env s id request) :
    Sealed (env.serve s request).1 id := by
  cases request with
  | create payload fresh similar => exact sealed_addDoc h hleaves
  | add payload fresh similar => exact sealed_addMemory h hleaves
  | update docId payload => exact sealed_updateDocImpl h hleaves
  | correct docId payload => exact sealed_updateDocImpl h hleaves
  | review docId payload => exact sealed_reviewDoc payload h
  | forget docId payload => exact sealed_softForgetDoc payload h
  | restore docId payload => exact sealed_restoreDoc payload h
  | rollback docId payload => exact sealed_rollbackDoc payload h
  | delete docId sessionId => exact sealed_deleteDoc h
  | batchDelete docIds sessionId => exact sealed_batchDeleteDocs h
  | feedback docId feedback sessionId => exact sealed_feedbackDoc h
  | purge docIds => exact sealed_deleteMemoryDocuments docIds h
  | reopen => exact sealed_reopen h

/-- A step of the service that leaves the review of a document. -/
def ReviewStep (tools : MetadataTools τ) (id : String) (s : SqliteStore) (call : Call τ) (s' : SqliteStore) : Prop :=
  ServeStep tools s call s' ∧ LeavesReview call.env s id call.request

/-! ## Decisions -/

theorem edited_ok {docId : String} {sessionId : Option String} {change : Content → Except RouteError Edit}
    {answer : Json} (h : env.editDoc s docId sessionId change = (s', .ok answer)) :
    ∃ existing edit, change existing = .ok edit ∧ ∀ content, edit.content = some content →
      ∃ n, Carries content.metadata n ∧ s'.docs = s.docs.set docId ⟨content.text, n⟩ ∧
        s'.rows = s.rows.set docId ⟨content.text, n⟩ := by
  unfold Router.editDoc at h
  split at h
  · cases h
  · rename_i existing _
    split at h
    · cases h
    · rename_i answer' hedit
      obtain ⟨_, -, hedit⟩ := bind_ok.mp hedit
      exact ⟨existing, _, hedit, fun _ hnone => by cases hnone⟩
    · rename_i answer' content hedit
      obtain ⟨_, -, hedit⟩ := bind_ok.mp hedit
      refine ⟨existing, _, hedit, fun content' hcontent => ?_⟩
      obtain rfl := Option.some.inj hcontent
      obtain ⟨u, hwritten, hstate⟩ := andThen_ok.mp h
      have hs' : (env.writeMemoryDocument s { content with id := docId }).1 = s' := congrArg Prod.fst hstate
      exact write_accepted (Prod.ext hs' hwritten)

theorem sealed_rejected {review : Review} {answer : Json} (hreject : review.approve = false)
    (h : env.reviewDoc s id review = (s', .ok answer)) : Sealed s' id := by
  obtain ⟨existing, edit, hchange, hwritten⟩ := edited_ok h
  obtain ⟨_, -, hchange⟩ := bind_ok.mp hchange
  obtain ⟨_, -, hchange⟩ := bind_ok.mp hchange
  obtain ⟨metadata, hmetadata, hchange⟩ := bind_ok.mp hchange
  obtain rfl := pure_ok.mp hchange
  obtain ⟨n, hcarries, hdocs, hrows⟩ := hwritten _ rfl
  have hmark : metadata.get "review_status" = some (.str "rejected") := by
    rw [appendAudit_frame (escaped_ok.mp hmetadata) (by decide), Dict.get_set_of_ne (by decide),
      Dict.get_set_of_ne (by decide), Dict.get_set_self, hreject]
    rfl
  have hfinal : Final metadata := Or.inr (Or.inl hmark)
  exact sealed_set (hfinal.carried hcarries) hdocs hrows

omit [LinearOrder τ] in
theorem absent_deleteOne (documents : Dict String Content) {docId : String} (h : Absent s id ∨ docId = id)
    (hok : (env.deleteOne documents s docId).2 = .ok ()) : Absent (env.deleteOne documents s docId).1 id := by
  unfold Router.deleteOne at hok ⊢
  unfold SqliteStore.deleteDocument stored at hok ⊢
  split at hok
  · cases hok
  · rename_i hsql
    rw [if_neg hsql]
    refine ⟨?_, ?_⟩
    · show (s.docs.erase docId).get id = none
      rw [Dict.get_erase]
      split
      · rfl
      · rename_i hne
        exact (h.resolve_right fun heq => hne heq.symm).1
    · show (s.rows.erase docId).get id = none
      rw [Dict.get_erase]
      split
      · rfl
      · rename_i hne
        exact (h.resolve_right fun heq => hne heq.symm).2

omit [LinearOrder τ] in
theorem absent_deleteAll (documents : Dict String Content) {docIds : List String} (h : Absent s id ∨ id ∈ docIds)
    (hok : (eachOf (env.deleteOne documents) docIds s).2 = .ok ()) :
    Absent (eachOf (env.deleteOne documents) docIds s).1 id := by
  induction docIds generalizing s with
  | nil => exact h.resolve_right List.not_mem_nil
  | cons docId rest ih =>
    have hstep : eachOf (env.deleteOne documents) (docId :: rest) s =
        (env.deleteOne documents s docId).andThen fun s _ => eachOf (env.deleteOne documents) rest s := rfl
    rw [hstep] at hok ⊢
    cases hfirst : env.deleteOne documents s docId with
    | mk s₁ result =>
      rw [hfirst] at hok
      cases result with
      | error e => cases hok
      | ok u =>
        have hdone : (env.deleteOne documents s docId).2 = .ok () := by rw [hfirst]
        refine ih ?_ hok
        by_cases hid : docId = id
        · have habsent := absent_deleteOne documents (Or.inr hid) hdone
          rw [hfirst] at habsent
          exact Or.inl habsent
        · obtain hold | hmem := h
          · have habsent := absent_deleteOne documents (Or.inl hold) hdone
            rw [hfirst] at habsent
            exact Or.inl habsent
          · exact Or.inr ((List.mem_cons.mp hmem).resolve_left fun heq => hid heq.symm)

omit [LinearOrder τ] in
theorem sealed_purged {docIds : List String} {u : Unit} (hmem : id ∈ docIds)
    (h : env.deleteMemoryDocuments s docIds = (s', .ok u)) : Sealed s' id := by
  obtain ⟨_, hdeleted, hburied⟩ := andThen_ok.mp h
  have habsent := absent_deleteAll s.docs (Or.inr hmem) hdeleted
  have hsealed : Sealed (eachOf env.buryOne (s.docs.entries.filter fun e => e.1 ∈ docIds ∧ e.2.candidate = true)
      (eachOf (env.deleteOne s.docs) docIds s).1).1 id :=
    eachOf_keeps (P := (Sealed · id)) (fun _ e _ hs => sealed_buryOne e hs) (Or.inl habsent)
  rw [hburied] at hsealed
  exact hsealed

theorem sealed_deleted {sessionId : Option String} {answer : Json}
    (h : env.deleteDoc s id sessionId = (s', .ok answer)) : Sealed s' id := by
  unfold Router.deleteDoc at h
  split at h
  · cases h
  · split at h
    · obtain ⟨existing, edit, hchange, hwritten⟩ := edited_ok h
      obtain ⟨metadata, htombstone, hchange⟩ := bind_ok.mp hchange
      obtain rfl := pure_ok.mp hchange
      obtain ⟨n, hcarries, hdocs, hrows⟩ := hwritten _ rfl
      exact sealed_set ((tombstone_final htombstone).carried hcarries) hdocs hrows
    · split at h
      · cases h
      · obtain ⟨u, hdeleted, hstate⟩ := andThen_ok.mp h
        have hs' : (env.deleteMemoryDocuments s [id]).1 = s' := congrArg Prod.fst hstate
        exact sealed_purged (List.mem_singleton_self id) (Prod.ext hs' hdeleted)

theorem sealed_buried {documents : Dict String Content} {candidates : List String}
    (hthere : documents.get id ≠ none) (h : SealedBatch documents id s ∨ id ∈ candidates)
    (hok : (eachOf (env.buryCandidate documents) candidates s).2 = .ok ()) :
    Sealed (eachOf (env.buryCandidate documents) candidates s).1 id := by
  induction candidates generalizing s with
  | nil => exact (h.resolve_right List.not_mem_nil).1
  | cons docId rest ih =>
    have hstep : eachOf (env.buryCandidate documents) (docId :: rest) s =
        (env.buryCandidate documents s docId).andThen fun s _ => eachOf (env.buryCandidate documents) rest s := rfl
    rw [hstep] at hok ⊢
    cases hfirst : env.buryCandidate documents s docId with
    | mk s₁ result =>
      rw [hfirst] at hok
      cases result with
      | error e => cases hok
      | ok u =>
        refine ih ?_ hok
        obtain hold | hmem := h
        · have hkept : SealedBatch documents id (env.buryCandidate documents s docId).1 :=
            batch_candidate docId hold
          rw [hfirst] at hkept
          exact Or.inl hkept
        · obtain heq | hrest := List.mem_cons.mp hmem
          · obtain ⟨existing, hdoc⟩ := Option.ne_none_iff_exists'.mp hthere
            unfold Router.buryCandidate at hfirst
            rw [← heq, hdoc] at hfirst
            dsimp only at hfirst
            split at hfirst
            · cases hfirst
            · rename_i metadata htombstone
              obtain ⟨n, hcarries, hdocs, hrows⟩ := write_accepted hfirst
              refine Or.inl ⟨sealed_set ((tombstone_final htombstone).carried hcarries) hdocs hrows, fun _ => ?_⟩
              rw [hdocs, Dict.get_set_self]
              exact Option.some_ne_none _
          · exact Or.inr hrest

theorem sealed_batch {docIds : List String} {sessionId : Option String} {answer : Json} (hmem : id ∈ docIds)
    (h : env.batchDeleteDocs s docIds sessionId = (s', .ok answer)) : Sealed s' id := by
  unfold Router.batchDeleteDocs at h
  dsimp only at h
  split at h
  · cases h
  · rename_i hgate
    obtain ⟨_, hmissing, -⟩ := bind_ok.mp hgate
    have hthere : s.docs.get id ≠ none := fun hnone =>
      List.filter_eq_nil_iff.mp (require_ok.mp hmissing) id hmem (decide_eq_true hnone)
    obtain ⟨_, hburied, h⟩ := andThen_ok.mp h
    obtain ⟨_, hdeleted, h⟩ := andThen_ok.mp h
    have hs' := congrArg Prod.fst h
    dsimp only at hs'
    rw [← hs']
    by_cases hcandidate : id ∈ docIds.filter (isCandidate s.docs)
    · have hsealed := sealed_buried hthere (Or.inr hcandidate) hburied
      split
      · exact hsealed
      · exact sealed_deleteMemoryDocuments _ hsealed
    · have hother : id ∈ docIds.filter (fun docId => docId ∉ docIds.filter (isCandidate s.docs)) :=
        List.mem_filter.mpr ⟨hmem, decide_eq_true hcandidate⟩
      rw [if_neg (List.ne_nil_of_mem hother)] at hdeleted ⊢
      exact sealed_purged hother (Prod.ext rfl hdeleted)

/-- A request by which a document is rejected or deleted. -/
inductive Decides (id : String) : Request → Prop
  | reject {review : Review} : review.approve = false → Decides id (.review id review)
  | delete {sessionId : Option String} : Decides id (.delete id sessionId)
  | batchDelete {docIds : List String} {sessionId : Option String} : id ∈ docIds →
      Decides id (.batchDelete docIds sessionId)
  | purge {docIds : List String} : id ∈ docIds → Decides id (.purge docIds)

theorem decided_sealed {request : Request} {answer : Json} (hdecides : Decides id request)
    (h : env.serve s request = (s', .ok answer)) : Sealed s' id := by
  cases hdecides with
  | reject hreject => exact sealed_rejected hreject h
  | delete => exact sealed_deleted h
  | batchDelete hmem => exact sealed_batch hmem h
  | @purge docIds hmem =>
    have hdeleted : env.deleteMemoryDocuments s docIds = (s', .ok ()) := by
      cases hresult : env.deleteMemoryDocuments s docIds with
      | mk s₁ result =>
        have hsilent : (env.deleteMemoryDocuments s docIds).silent = (s', .ok answer) := h
        rw [hresult] at hsilent
        cases result with
        | error e => cases hsilent
        | ok u => rw [show s₁ = s' from congrArg Prod.fst hsilent]
    exact sealed_purged hmem hdeleted

/-- Review is final: after a request that rejects or deletes a document, in every run in which
no update puts the document under review again and none is created in its place, no copy of
it can be recalled, at any time. -/
theorem review_is_final {s₀ : SqliteStore} {request : Request} {calls : List (Call τ)} {answer : Json}
    (hdecides : Decides id request) (haccepted : env.serve s₀ request = (s, .ok answer))
    (hrun : Run (ReviewStep tools id) s calls s') : Gone tools s' id := by
  have hsealed : Sealed s' id := hrun.invariant (decided_sealed hdecides haccepted) fun s call s' h hstep => by
    obtain ⟨⟨-, hserved⟩, hleaves⟩ := hstep
    rw [hserved]
    exact sealed_serve h hleaves
  exact hsealed.gone

/-- A store whose candidate was rejected. -/
def rejectedStore : SqliteStore := (plainRouter.serve (noteStore teaCandidate) (.review "m1" ⟨false, none, none⟩)).1

theorem rejected_accepted : plainRouter.serve (noteStore teaCandidate) (.review "m1" ⟨false, none, none⟩) =
    (rejectedStore, .ok (.obj [("status", .str "rejected"), ("id", .str "m1")])) := by
  decide +kernel

/-- A candidate is rejected, and then there is an attempt to approve it. -/
theorem review_is_final_tea :
    Gone newYear (plainRouter.serve rejectedStore (.review "m1" ⟨true, none, none⟩)).1 "m1" := by
  have hstep : ReviewStep newYear "m1" rejectedStore ⟨plainRouter, .review "m1" ⟨true, none, none⟩⟩
      (plainRouter.serve rejectedStore (.review "m1" ⟨true, none, none⟩)).1 := ⟨⟨rfl, rfl⟩, trivial⟩
  exact review_is_final (.reject rfl) rejected_accepted (Run.next Run.start hstep)

/-- A rejected candidate that an update gives the role of permission history is approved. -/
theorem rejected_recalled :
    plainRouter.serve (noteStore teaCandidate) (.review "m1" ⟨false, none, none⟩) =
        (rejectedStore, .ok (.obj [("status", .str "rejected"), ("id", .str "m1")])) ∧
      ¬ Gone newYear (plainRouter.serve (plainRouter.serve rejectedStore
        (.update "m1" { memoryRole := some "tool_permission" })).1 (.review "m1" ⟨true, none, none⟩)).1 "m1" := by
  refine ⟨rejected_accepted, fun hgone => ?_⟩
  have hrecalled : ((plainRouter.serve (plainRouter.serve rejectedStore
      (.update "m1" { memoryRole := some "tool_permission" })).1 (.review "m1" ⟨true, none, none⟩)).1.docs.get "m1").map
        (fun content => isMetadataRecallable newYear false content.metadata) = some (.ok true) := by
    decide +kernel
  obtain ⟨content, hcontent, hrecallable⟩ := Option.map_eq_some_iff.mp hrecalled
  exact hgone content (Or.inl hcontent) false (recallable_iff.mp hrecallable)

end Memory
