import Yuizaki.Lib.Run
import Yuizaki.Memory.Recall
import Yuizaki.Memory.Removal
import Yuizaki.Memory.Requests
import Yuizaki.Memory.Stale

/- A rollback of a memory (`rollback_doc` in `modules/memory/routes.py`).

   The metadata of the snapshot is written again, with the lifecycle fields of the document as
   it is now laid over it where the document has them. A document that was forgotten and
   restored has none, so a snapshot from the time between brings its marks back
   (`rollback_forgets`); in the same way the review status and the dates of the snapshot come
   back. `rollback_keeps` says exactly which snapshots leave the lifecycle as it is. -/
namespace Memory

open Fallible Transition

variable {τ : Type} [LinearOrder τ] {tools : MetadataTools τ} {env : Router τ} {s s' : SqliteStore}

/-! ## What every request keeps -/

/-- A property of the store that each of its methods keeps, as the service calls them. -/
structure MethodsKeep (env : Router τ) (P : SqliteStore → Prop) : Prop where
  write : ∀ s doc, P s → P (env.writeMemoryDocument s doc).1
  delete : ∀ s docId, P s → P (s.deleteDocument (env.faults docId) docId).1
  bury : ∀ s doc, P s → P (s.addMetadataDocument env.tools env.now (env.faults doc.id) doc).1
  note : ∀ s docId m, P s → P (s.updateMetadata env.tools env.now (env.faults docId) docId m).1
  reopen : ∀ s, P s → P (s.reopen env.tools env.now (env.faults "")).1

namespace MethodsKeep

variable {P : SqliteStore → Prop}

theorem editDoc (h : MethodsKeep env P) {docId : String} {sessionId : Option String} {change : Content → Except RouteError Edit}
    (hs : P s) : P (env.editDoc s docId sessionId change).1 := by
  unfold Router.editDoc
  split
  · exact hs
  · split
    · exact hs
    · exact hs
    · exact andThen_keeps (h.write _ _ hs) fun _ _ => h.write _ _ hs

theorem deleteAll (h : MethodsKeep env P) {docIds : List String} (hs : P s) : P (env.deleteMemoryDocuments s docIds).1 := by
  unfold Router.deleteMemoryDocuments
  have hdeleted : P (eachOf (env.deleteOne s.docs) docIds s).1 := by
    refine eachOf_keeps (fun s docId _ hs => ?_) hs
    exact andThen_keeps (h.delete s docId hs) fun _ _ => h.delete s docId hs
  refine andThen_keeps hdeleted fun _ _ => eachOf_keeps (fun s e _ hs => ?_) hdeleted
  unfold Router.buryOne
  split
  · exact hs
  · exact h.bury _ _ hs

theorem addDoc (h : MethodsKeep env P) {payload : NewMemory} {fresh : String} {similar : Except RouteError (List Json)}
    (hs : P s) : P (env.addDoc s payload fresh similar).1 := by
  unfold Router.addDoc
  dsimp only
  split
  · exact hs
  · split
    · exact hs
    · exact hs
    · exact andThen_keeps (h.write _ _ hs) fun _ _ => h.write _ _ hs

theorem batchDelete (h : MethodsKeep env P) {docIds : List String} {sessionId : Option String} (hs : P s) :
    P (env.batchDeleteDocs s docIds sessionId).1 := by
  have hburied : ∀ candidates, P (eachOf (env.buryCandidate s.docs) candidates s).1 := fun candidates => by
    refine eachOf_keeps (fun s docId _ hs => ?_) hs
    unfold Router.buryCandidate
    split
    · exact hs
    · split
      · exact hs
      · exact h.write _ _ hs
  unfold Router.batchDeleteDocs
  dsimp only
  split
  · exact hs
  · refine andThen_keeps (hburied _) fun _ _ => andThen_keeps ?_ fun _ _ => ?_
    all_goals
      split
      · exact hburied _
      · exact h.deleteAll (hburied _)

theorem serve (h : MethodsKeep env P) (request : Request) (hs : P s) : P (env.serve s request).1 := by
  cases request with
  | create payload fresh similar => exact h.addDoc hs
  | add payload fresh similar =>
    show P (env.addMemory s payload fresh similar).1
    unfold Router.addMemory
    dsimp only
    split
    · exact hs
    · split
      · exact hs
      · exact h.addDoc hs
  | update docId payload => exact h.editDoc hs
  | correct docId payload => exact h.editDoc hs
  | review docId payload => exact h.editDoc hs
  | forget docId payload => exact h.editDoc hs
  | restore docId payload => exact h.editDoc hs
  | rollback docId payload => exact h.editDoc hs
  | delete docId sessionId =>
    show P (env.deleteDoc s docId sessionId).1
    unfold Router.deleteDoc
    split
    · exact hs
    · split
      · exact h.editDoc hs
      · split
        · exact hs
        · exact andThen_keeps (h.deleteAll hs) fun _ _ => h.deleteAll hs
  | batchDelete docIds sessionId => exact h.batchDelete hs
  | feedback docId feedback sessionId =>
    show P (env.feedbackDoc s docId feedback sessionId).1
    unfold Router.feedbackDoc
    split
    · exact hs
    · split
      · exact hs
      · exact andThen_keeps (h.note _ _ _ hs) fun _ _ => h.note _ _ _ hs
  | purge docIds => exact h.deleteAll hs
  | reopen => exact h.reopen _ hs

end MethodsKeep

/-! ## The row of a document -/

/-- The documents in memory are the rows. -/
def InStep (s : SqliteStore) : Prop := ∀ id, s.docs.get id = s.rows.get id

/-- A request during which no embedding raises after its row is written. -/
def SoundStep (tools : MetadataTools τ) (s : SqliteStore) (call : Call τ) (s' : SqliteStore) : Prop :=
  ServeStep tools s call s' ∧ ∀ docId, (call.env.faults docId).embedding = false

theorem inStep_methods (hsound : ∀ docId, (env.faults docId).embedding = false) : MethodsKeep env InStep where
  write s doc hs id := by
    obtain ⟨hsame, -⟩ | ⟨prepared, n, -, -, hrows, ⟨hembedding, -⟩ | hdocs⟩ := write_cases (s := s) env doc
    · rw [hsame]
      exact hs id
    · rw [hsound doc.id] at hembedding
      cases hembedding
    · rw [hrows, hdocs, Dict.get_set, Dict.get_set, hs id]
  delete s docId hs id := by
    unfold SqliteStore.deleteDocument
    split
    · exact hs id
    · show (s.docs.erase docId).get id = (s.rows.erase docId).get id
      rw [Dict.get_erase, Dict.get_erase, hs id]
  bury s doc hs id := by
    unfold SqliteStore.addMetadataDocument
    split
    · exact hs id
    · rename_i written metadata hpersist
      obtain ⟨-, -, rfl⟩ := SqliteStore.persist_ok hpersist
      show (s.docs.set doc.id _).get id = (s.rows.set doc.id _).get id
      rw [Dict.get_set, Dict.get_set, hs id]
  note s docId m hs id := by
    unfold SqliteStore.updateMetadata
    split
    · exact hs id
    · split
      · exact hs id
      · split
        · exact hs id
        · show (SqliteStore.putMetadata s.docs docId _).get id = (SqliteStore.putMetadata s.rows docId _).get id
          rw [get_putMetadata, get_putMetadata, hs id, hs docId]
  reopen s hs id := by
    unfold SqliteStore.reopen
    split
    · exact hs id
    · dsimp only
      split
      · split
        · exact hs id
        · rfl
      · rename_i hnone
        show (SqliteStore.migratedRows env.tools env.now s.rows).get id = s.rows.get id
        rw [SqliteStore.migratedRows_of_none (Bool.eq_false_iff.mpr hnone)]

theorem inStep_run {s₀ : SqliteStore} {calls : List (Call τ)} (hstart : InStep s₀)
    (hrun : Run (SoundStep tools) s₀ calls s) : InStep s :=
  hrun.invariant hstart fun _ _ _ h ⟨⟨_, hserved⟩, hsound⟩ => by
    rw [hserved]
    exact (inStep_methods hsound).serve _ h

/-! ## The metadata of a rollback -/

def snapshotMetadata (snapshot : Json) : Metadata := Metadata.ofEntries (entriesOf (snapshot.get "metadata"))

section Restored

variable {current : Metadata} {snapshot : Json} {key : String}

/-- A field of the metadata of a rollback: that of the document where a rollback keeps it, and
that of the snapshot elsewhere. -/
theorem get_restored (hkey : key ∉ ["version_history", "version_history_truncated", "review_status", "reviewed_at",
      "review_reason"]) : (env.restoredMetadata current snapshot).get key =
    if key ∈ rollbackHistories ++ rollbackLifecycle then (current.get key).or ((snapshotMetadata snapshot).get key)
    else (snapshotMetadata snapshot).get key := by
  simp only [List.mem_cons, List.not_mem_nil, or_false, not_or] at hkey
  obtain ⟨hhistory, htruncated, hstatus, hat, hreason⟩ := hkey
  have hreview : key ∉ ["reviewed_at", "review_reason"] := by
    simp only [List.mem_cons, List.not_mem_nil, or_false, not_or]
    exact ⟨hat, hreason⟩
  have hbase : (if (current.value "version_history_truncated").truthy then
      ((snapshotMetadata snapshot).set "version_history" (.arr (listItems (current.value "version_history")))).set
        "version_history_truncated" (current.value "version_history_truncated")
      else (snapshotMetadata snapshot).set "version_history" (.arr (listItems (current.value "version_history")))).get key =
        (snapshotMetadata snapshot).get key := by
    split
    · rw [Dict.get_set_of_ne htruncated, Dict.get_set_of_ne hhistory]
    · rw [Dict.get_set_of_ne hhistory]
  unfold Router.restoredMetadata
  dsimp only
  split
  · rw [get_keepFields, if_neg hreview, Dict.get_set_of_ne hstatus, get_keepFields]
    exact if_congr Iff.rfl (congrArg _ hbase) hbase
  · rw [get_keepFields]
    exact if_congr Iff.rfl (congrArg _ hbase) hbase

theorem restored_versions : listItems ((env.restoredMetadata current snapshot).value "version_history") =
    listItems (current.value "version_history") := by
  have hget : (env.restoredMetadata current snapshot).get "version_history" =
      some (.arr (listItems (current.value "version_history"))) := by
    unfold Router.restoredMetadata
    dsimp only
    split
    · rw [get_keepFields, if_neg (by decide), Dict.get_set_of_ne (by decide), get_keepFields, if_neg (by decide)]
      split
      · rw [Dict.get_set_of_ne (by decide), Dict.get_set_self]
      · rw [Dict.get_set_self]
    · rw [get_keepFields, if_neg (by decide)]
      split
      · rw [Dict.get_set_of_ne (by decide), Dict.get_set_self]
      · rw [Dict.get_set_self]
  rw [value_eq hget]
  rfl

theorem restored_status : (env.restoredMetadata current snapshot).get "review_status" =
    if reviewStatus env.tools current ∈ ["deleted", "rejected"] then some (.str (reviewStatus env.tools current))
    else (snapshotMetadata snapshot).get "review_status" := by
  have hmem : reviewStatus env.tools current ∈ ["deleted", "rejected"] ↔
      reviewStatus env.tools current = "deleted" ∨ reviewStatus env.tools current = "rejected" := by
    simp only [List.mem_cons, List.not_mem_nil, or_false]
  unfold Router.restoredMetadata
  dsimp only
  by_cases hstatus : reviewStatus env.tools current = "deleted" ∨ reviewStatus env.tools current = "rejected"
  · rw [if_pos hstatus, if_pos (hmem.mpr hstatus), get_keepFields, if_neg (by decide), Dict.get_set_self]
  · rw [if_neg hstatus, if_neg (hmem.not.mpr hstatus), get_keepFields, if_neg (by decide)]
    split
    · rw [Dict.get_set_of_ne (by decide), Dict.get_set_of_ne (by decide)]
      rfl
    · rw [Dict.get_set_of_ne (by decide)]
      rfl

end Restored

/-! ## The lifecycle -/

/-- The lifecycle of a memory is as it was, and so is its recall at every instant. -/
structure KeepsLifecycle (tools : MetadataTools τ) (m n : Metadata) : Prop where
  forgotten : Forgotten n ↔ Forgotten m
  superseded : Superseded n ↔ Superseded m
  deleted : (n.value "candidate_deleted").truthy = (m.value "candidate_deleted").truthy
  status : reviewStatus tools n = reviewStatus tools m
  recallable : ∀ t, Recallable tools t n ↔ Recallable tools t m

/-- A snapshot that agrees with the lifecycle of the document: it is forgotten or deleted only
where the document says itself whether it is, its review status is that of the document unless
the document is deleted or rejected, and it is open when the document is, unless the document
is withheld anyway. -/
structure SnapshotAgrees (tools : MetadataTools τ) (existing : Content) (snapshot : Metadata) : Prop where
  forgotten : existing.metadata.get "soft_forgotten" = none → ¬ Forgotten snapshot
  deleted : existing.metadata.get "candidate_deleted" = none → (snapshot.value "candidate_deleted").truthy = false
  status : reviewStatus tools existing.metadata ∈ ["deleted", "rejected"] ∨
    settledStatus tools snapshot = reviewStatus tools existing.metadata
  openness : Withheld tools existing.metadata ∨
    ∀ t, Open tools t (carriedOver tools existing snapshot) ↔ Open tools t existing.metadata

/-- The revision is the present one, or its newest snapshot agrees with the document. -/
def RevisionAgrees (tools : MetadataTools τ) (existing : Content) (revision : ℤ) : Prop :=
  revision = normalizedRevision tools existing.metadata ∨
    ∀ snapshot, snapshotOf (listItems (existing.metadata.value "version_history")) revision = some snapshot →
      SnapshotAgrees tools existing (snapshotMetadata snapshot)

theorem rollback_ok {docId : String} {payload : Rollback} {existing : Content} {answer : Json}
    (hdoc : s.docs.get docId = some existing) (h : env.rollbackDoc s docId payload = (s', .ok answer)) :
    payload.revision = normalizedRevision env.tools existing.metadata ∧ s' = s ∨
      payload.revision ≠ normalizedRevision env.tools existing.metadata ∧
      ∃ (current : Metadata) (snapshot : Json) (action : String) (reason : Option String) (before : Option Json) (text : String)
        (m prepared n : Metadata), normalizeMemoryMetadata env.tools env.now existing.metadata = .ok current ∧
        snapshotOf (listItems (current.value "version_history")) payload.revision = some snapshot ∧
        env.appendAudit (env.restoredMetadata current snapshot) action reason before = .ok m ∧
        env.prepareWrite (some existing) { id := docId, text, metadata := m } = .ok prepared ∧
        persistedMetadata env.tools env.now (s.rows.get docId) { id := docId, text, metadata := prepared } = .ok n ∧
        s'.docs.get docId = some ⟨text, n⟩ := by
  unfold Router.rollbackDoc Router.editDoc at h
  rw [hdoc] at h
  dsimp only at h
  split at h
  · cases h
  · rename_i answer' hedit
    obtain ⟨_, -, hedit⟩ := bind_ok.mp hedit
    obtain ⟨current, hcurrent, hedit⟩ := bind_ok.mp hedit
    split at hedit
    · rename_i hrevision
      exact Or.inl ⟨hrevision, (congrArg Prod.fst h).symm⟩
    · split at hedit
      · cases hedit
      · obtain ⟨_, -, hedit⟩ := bind_ok.mp hedit
        obtain ⟨content, -, hedit⟩ := bind_ok.mp hedit
        cases hedit
  · rename_i answer' content hedit
    obtain ⟨_, -, hedit⟩ := bind_ok.mp hedit
    obtain ⟨current, hcurrent, hedit⟩ := bind_ok.mp hedit
    split at hedit
    · cases hedit
    · rename_i hrevision
      split at hedit
      · cases hedit
      · rename_i snapshot hsnapshot
        obtain ⟨_, -, hedit⟩ := bind_ok.mp hedit
        obtain ⟨content', hcontent, hedit⟩ := bind_ok.mp hedit
        have hsame : content' = content := by
          have hfields := pure_ok.mp hedit
          injection hfields with _ hsome
          exact Option.some.inj hsome
        subst hsame
        obtain ⟨_, -, hcontent⟩ := bind_ok.mp hcontent
        obtain ⟨m, haudit, hcontent⟩ := bind_ok.mp hcontent
        have hmetadata : m = content'.metadata := congrArg Content.metadata (pure_ok.mp hcontent)
        obtain ⟨u, hwritten, hstate⟩ := andThen_ok.mp h
        have hs' : (env.writeMemoryDocument s { content' with id := docId }).1 = s' := congrArg Prod.fst hstate
        have hnot {e : RouteError} (he : (env.writeMemoryDocument s { content' with id := docId }).2 = .error e) :
            False := by
          rw [hwritten] at he
          cases he
        obtain ⟨-, e, he⟩ | ⟨prepared, n, hprepared, hpersisted, -, ⟨-, -, e, he⟩ | hdocs⟩ :=
          write_cases (s := s) env { content' with id := docId }
        · exact (hnot he).elim
        · exact (hnot he).elim
        · refine Or.inr ⟨hrevision, current, snapshot, _, _, _, content'.text, m, prepared, n, escaped_ok.mp hcurrent, hsnapshot,
            escaped_ok.mp haudit, ?_, hpersisted, ?_⟩
          · rw [hmetadata, ← hdoc]
            exact hprepared
          · rw [← hs', hdocs, Dict.get_set_self]

section Written

variable {m n old snapshot : Metadata} {key : String}

omit [LinearOrder τ] in
theorem mark_kept (h : n.get key = (old.get key).or (snapshot.get key)) :
    (n.value key).truthy = (old.value key).truthy ↔ (old.get key = none → (snapshot.value key).truthy = false) := by
  cases hold : old.get key with
  | some v =>
    rw [hold, Option.some_or] at h
    rw [value_eq h, value_eq hold]
    exact ⟨fun _ hnone => (nomatch hnone), fun _ => rfl⟩
  | none =>
    rw [hold, Option.none_or] at h
    have hplain : (old.value key).truthy = false := by
      unfold Metadata.value
      rw [hold]
      rfl
    rw [value_congr h, hplain]
    exact ⟨fun heq _ => heq, fun heq => heq rfl⟩

omit [LinearOrder τ] in
theorem forgotten_iff : (Forgotten n ↔ Forgotten m) ↔ (n.value "soft_forgotten").truthy = (m.value "soft_forgotten").truthy := by
  unfold Forgotten
  exact Bool.eq_iff_iff.symm

theorem open_congr {t : τ}
    (hfields : ∀ key ∈ ["candidate", "sensitive_category", "sensitivity", "source_kind", "event_kind"], n.get key = m.get key)
    (hstatus : settledStatus tools n = settledStatus tools m) (hdates : SameDates tools m n) :
    Open tools t n ↔ Open tools t m := by
  have hwaiting (k : Metadata) : reviewStatus tools k ∈ ["", "unreviewed", "pending", "review"] ↔
      settledStatus tools k ∈ ["unreviewed", "pending", "review"] := by
    unfold settledStatus
    split
    · rename_i hblank
      rw [hblank]
      exact ⟨fun _ => by decide, fun _ => by decide⟩
    · rename_i hne
      rw [List.mem_cons]
      exact or_iff_right hne
  have hvalue {key : String} (hkey : key ∈ ["candidate", "sensitive_category", "sensitivity", "source_kind", "event_kind"]) :
      n.value key = m.value key := value_congr (hfields key hkey)
  have hawaits : awaitsReview tools n = awaitsReview tools m := by
    unfold awaitsReview isAutoAdmittedCandidate
    simp only [hwaiting]
    rw [hstatus, hvalue (by decide), hvalue (by decide), hvalue (by decide), hvalue (by decide), hvalue (by decide)]
  unfold Open
  rw [hawaits, hdates.state]

end Written

/-- What a rollback writes, beside what the document had and what the snapshot has. -/
structure RolledBack (tools : MetadataTools τ) (existing : Content) (snapshot n : Metadata) : Prop where
  mark : ∀ key ∈ ["soft_forgotten", "candidate_deleted"], n.get key = (existing.metadata.get key).or (snapshot.get key)
  superseded : n.value "superseded_by" = existing.metadata.value "superseded_by"
  status : reviewStatus tools n =
    if reviewStatus tools existing.metadata ∈ ["deleted", "rejected"] then reviewStatus tools existing.metadata
    else settledStatus tools snapshot
  openness : reviewStatus tools existing.metadata ∉ ["deleted", "rejected"] →
    ∀ t, Open tools t n ↔ Open tools t (carriedOver tools existing snapshot)

theorem get_carriedOver {existing : Content} {m : Metadata} {key : String} (hkey : key ∉ provenanceFields) :
    (carriedOver tools existing m).get key = m.get key := by
  unfold carriedOver
  split
  · rfl
  · rw [get_keepFields, if_neg hkey]

theorem final_status (lawful : tools.Lawful) {now : τ} {m current : Metadata}
    (h : normalizeMemoryMetadata tools now m = .ok current) :
    (reviewStatus tools current ∈ ["deleted", "rejected"] ↔ reviewStatus tools m ∈ ["deleted", "rejected"]) ∧
      (reviewStatus tools m ∈ ["deleted", "rejected"] → reviewStatus tools current = reviewStatus tools m) := by
  rw [normalized_status lawful h]
  cases htruthy : (m.value "review_status").truthy with
  | true =>
    rw [if_pos rfl]
    exact ⟨Iff.rfl, fun _ => rfl⟩
  | false =>
    rw [if_neg Bool.false_ne_true, status_falsy htruthy]
    exact ⟨⟨fun h => absurd h (by decide), fun h => absurd h (by decide)⟩, fun h => absurd h (by decide)⟩

theorem rolledBack (lawful : env.tools.Lawful) {existing : Content} {current m n : Metadata} {snapshot : Json}
    {action : String} {reason : Option String} {before : Option Json}
    (hcurrent : normalizeMemoryMetadata env.tools env.now existing.metadata = .ok current)
    (haudit : env.appendAudit (env.restoredMetadata current snapshot) action reason before = .ok m)
    (hover : WrittenOver env.tools existing m n) :
    RolledBack env.tools existing (snapshotMetadata snapshot) n := by
  obtain ⟨stamps, -, hnormalized⟩ := normalize_spec hcurrent
  obtain ⟨hfinal, hsame⟩ := final_status lawful hcurrent
  have hkept {key : String} (hkey : key ∉ auditKeys) : m.get key = (env.restoredMetadata current snapshot).get key :=
    appendAudit_frame haudit hkey
  have hmark {key : String} (hkey : key ∈ ["soft_forgotten", "candidate_deleted"]) :
      m.get key = (existing.metadata.get key).or ((snapshotMetadata snapshot).get key) := by
    simp only [List.mem_cons, List.not_mem_nil, or_false] at hkey
    obtain rfl | rfl := hkey
    all_goals
      rw [hkept (by decide), get_restored (by decide), if_pos (by decide), hnormalized.others _ (by decide)]
  have hsnapshot {key : String} (hkey : key ∉ auditKeys) (hplain : key ∉ ["version_history", "version_history_truncated",
      "review_status", "reviewed_at", "review_reason"]) (hother : key ∉ rollbackHistories ++ rollbackLifecycle) :
      m.get key = (snapshotMetadata snapshot).get key := by
    rw [hkept hkey, get_restored hplain, if_neg hother]
  have hstatus : m.get "review_status" =
      if reviewStatus env.tools existing.metadata ∈ ["deleted", "rejected"] then
        some (.str (reviewStatus env.tools existing.metadata))
      else (snapshotMetadata snapshot).get "review_status" := by
    rw [hkept (by decide), restored_status]
    by_cases hended : reviewStatus env.tools existing.metadata ∈ ["deleted", "rejected"]
    · rw [if_pos hended, if_pos (hfinal.mpr hended), hsame hended]
    · rw [if_neg hended, if_neg (hfinal.not.mpr hended)]
  refine ⟨fun key hkey => ?_, ?_, ?_, fun hended t => ?_⟩
  · simp only [List.mem_cons, List.not_mem_nil, or_false] at hkey
    obtain rfl | rfl := hkey
    · obtain hforgotten | ⟨hnone, hforgotten⟩ := hover.forgotten
      · rw [hforgotten, hmark (by decide)]
      · have hmissing := hnone
        rw [hmark (by decide), Option.or_eq_none_iff] at hmissing
        rw [hforgotten, hmissing.1, hmissing.2]
        rfl
    · rw [hover.plain _ (by decide), hmark (by decide)]
  · have hget : m.get "superseded_by" = some (existing.metadata.value "superseded_by") := by
      rw [hkept (by decide), get_restored (by decide), if_pos (by decide), hnormalized.supersededBy]
      rfl
    exact value_eq (hover.superseded _ hget)
  · rw [hover.status]
    by_cases hended : reviewStatus env.tools existing.metadata ∈ ["deleted", "rejected"]
    · have houtcome : reviewStatus env.tools existing.metadata ∈ reviewOutcomes := by
        simp only [List.mem_cons, List.not_mem_nil, or_false] at hended
        obtain heq | heq := hended
        · rw [heq]
          decide
        · rw [heq]
          decide
      rw [if_pos hended] at hstatus ⊢
      have hread : reviewStatus env.tools m = reviewStatus env.tools existing.metadata := by
        unfold reviewStatus at hstatus ⊢
        rw [value_eq hstatus]
        exact outcome_word houtcome
      rw [settled_eq (by rw [hread]; exact (outcome_spelled _ houtcome).1), hread]
    · rw [if_neg hended] at hstatus ⊢
      exact settled_congr hstatus
  · rw [if_neg hended] at hstatus
    refine open_congr (fun key hkey => ?_) ?_ ?_
    · simp only [List.mem_cons, List.not_mem_nil, or_false] at hkey
      obtain rfl | rfl | rfl | rfl | rfl := hkey
      · rw [hover.plain _ (by decide), get_carriedOver (by decide), hsnapshot (by decide) (by decide) (by decide)]
      · rw [hover.plain _ (by decide), get_carriedOver (by decide), hsnapshot (by decide) (by decide) (by decide)]
      · rw [hover.plain _ (by decide), get_carriedOver (by decide), hsnapshot (by decide) (by decide) (by decide)]
      · have hsource : m.get "source_kind" = (snapshotMetadata snapshot).get "source_kind" :=
          hsnapshot (by decide) (by decide) (by decide)
        rw [hover.source]
        unfold carriedOver
        split
        · exact hsource
        · rw [get_keepFields, get_keepFields, if_pos (by decide), if_pos (by decide), hsource]
      · rw [hover.plain _ (by decide), get_carriedOver (by decide), hsnapshot (by decide) (by decide) (by decide)]
    · have hne : reviewStatus env.tools n ≠ "" := by
        rw [hover.status]
        unfold settledStatus
        split
        · decide
        · assumption
      rw [settled_eq hne, hover.status, settled_congr hstatus, settled_congr (get_carriedOver (by decide))]
    · have hdates : SameDates env.tools (carriedOver env.tools existing (snapshotMetadata snapshot)) m := .of_get fun key hkey => by
        simp only [List.mem_cons, List.not_mem_nil, or_false] at hkey
        obtain rfl | rfl | rfl := hkey
        all_goals
          rw [get_carriedOver (by decide)]
          exact hsnapshot (by decide) (by decide) (by decide)
      exact hdates.trans hover.dates

theorem rolledBack_keeps {existing : Content} {snapshot n : Metadata} (h : RolledBack tools existing snapshot n) :
    KeepsLifecycle tools existing.metadata n ↔ SnapshotAgrees tools existing snapshot := by
  have hforgotten : (Forgotten n ↔ Forgotten existing.metadata) ↔
      (existing.metadata.get "soft_forgotten" = none → ¬ Forgotten snapshot) := by
    rw [forgotten_iff, mark_kept (h.mark _ (by decide))]
    unfold Forgotten
    exact imp_congr Iff.rfl Bool.eq_false_iff
  have hdeleted := mark_kept (h.mark "candidate_deleted" (by decide))
  have hsuperseded : Superseded n ↔ Superseded existing.metadata := by
    unfold Superseded
    rw [h.superseded]
  have hstatus : reviewStatus tools n = reviewStatus tools existing.metadata ↔
      reviewStatus tools existing.metadata ∈ ["deleted", "rejected"] ∨
        settledStatus tools snapshot = reviewStatus tools existing.metadata := by
    rw [h.status]
    by_cases hended : reviewStatus tools existing.metadata ∈ ["deleted", "rejected"]
    · rw [if_pos hended]
      exact ⟨fun _ => Or.inl hended, fun _ => rfl⟩
    · rw [if_neg hended]
      exact (or_iff_right hended).symm
  -- what withholds the memory is read from these four
  have hwithheld (hf : Forgotten n ↔ Forgotten existing.metadata)
      (hd : (n.value "candidate_deleted").truthy = (existing.metadata.value "candidate_deleted").truthy)
      (hs : reviewStatus tools n = reviewStatus tools existing.metadata) :
      Withheld tools n ↔ Withheld tools existing.metadata := by
    unfold Withheld
    rw [hd, hs]
    exact or_congr Iff.rfl (or_congr hf (or_congr Iff.rfl hsuperseded))
  have hundecided (hfree : ¬ Withheld tools existing.metadata) :
      reviewStatus tools existing.metadata ∉ ["deleted", "rejected"] := by
    intro hended
    refine hfree (Or.inr (Or.inr (Or.inl ?_)))
    simp only [List.mem_cons, List.not_mem_nil, or_false] at hended
    obtain heq | heq := hended
    · rw [heq]
      decide
    · rw [heq]
      decide
  constructor
  · intro hkeeps
    refine ⟨hforgotten.mp hkeeps.forgotten, hdeleted.mp hkeeps.deleted, hstatus.mp hkeeps.status, ?_⟩
    by_cases hheld : Withheld tools existing.metadata
    · exact Or.inl hheld
    · refine Or.inr fun t => ?_
      have hfree : ¬ Withheld tools n := (hwithheld hkeeps.forgotten hkeeps.deleted hkeeps.status).not.mpr hheld
      have hrecall := hkeeps.recallable t
      rw [recallable_split, recallable_split, and_iff_right hfree, and_iff_right hheld] at hrecall
      rw [← h.openness (hundecided hheld) t]
      exact hrecall
  · intro hagrees
    have hf := hforgotten.mpr hagrees.forgotten
    have hd := hdeleted.mpr hagrees.deleted
    have hs := hstatus.mpr hagrees.status
    refine ⟨hf, hsuperseded, hd, hs, fun t => ?_⟩
    have hsame := hwithheld hf hd hs
    rw [recallable_split, recallable_split, hsame]
    obtain hheld | hopen := hagrees.openness
    · exact ⟨fun h => absurd hheld h.1, fun h => absurd hheld h.1⟩
    · refine and_congr_right fun hfree => ?_
      rw [h.openness (hundecided hfree) t]
      exact hopen t

/-- In every run in which no embedding raises, a rollback that is accepted leaves the lifecycle
and the recall of the document exactly where the snapshot agrees with them. -/
theorem rollback_keeps {tools : MetadataTools τ} {env : Router τ} {s₀ s s' : SqliteStore} {calls : List (Call τ)}
    {docId : String} {payload : Rollback} {existing content : Content} {answer : Json} (lawful : tools.Lawful)
    (hutc : ∀ t, utcRfc3339.fullMatch (tools.isoformat t) = true) (hstart : InStep s₀)
    (hrun : Run (SoundStep tools) s₀ calls s) (htools : env.tools = tools) (hdoc : s.docs.get docId = some existing)
    (hserve : env.serve s (.rollback docId payload) = (s', .ok answer)) (hcontent : s'.docs.get docId = some content) :
    KeepsLifecycle tools existing.metadata content.metadata ↔ RevisionAgrees tools existing payload.revision := by
  subst htools
  obtain ⟨hpresent, hsame⟩ | ⟨hrevision, current, snapshot, action, reason, before, text, m, prepared, n, hcurrent,
    hsnapshot, haudit, hprepared, hpersisted, hstored⟩ := rollback_ok hdoc hserve
  · rw [hsame, hdoc] at hcontent
    rw [← Option.some.inj hcontent]
    exact ⟨fun _ => Or.inl hpresent, fun _ => ⟨Iff.rfl, Iff.rfl, rfl, rfl, fun _ => Iff.rfl⟩⟩
  · obtain rfl : ⟨text, n⟩ = content := Option.some.inj (hstored.symm.trans hcontent)
    obtain ⟨stamps, -, hnormalized⟩ := normalize_spec hcurrent
    have hversions : current.value "version_history" = existing.metadata.value "version_history" :=
      value_congr (hnormalized.others _ (by decide))
    have hhistory : listItems (m.value "version_history") = listItems (existing.metadata.value "version_history") := by
      rw [value_congr (appendAudit_frame haudit (by decide)), restored_versions, hversions]
    rw [← inStep_run hstart hrun docId, hdoc] at hpersisted
    have hover := write_over lawful hutc hhistory hprepared hpersisted
    rw [rolledBack_keeps (rolledBack lawful hcurrent haudit hover)]
    rw [hversions] at hsnapshot
    constructor
    · intro hagrees
      refine Or.inr fun snapshot' hsnapshot' => ?_
      rw [← Option.some.inj (hsnapshot.symm.trans hsnapshot')]
      exact hagrees
    · rintro (hpresent | hall)
      · exact absurd hpresent hrevision
      · exact hall snapshot hsnapshot

/-! ## Forgetting, restoring and going back -/

/-- A note, and the request to forget or to restore it. -/
def teaStore : SqliteStore := noteStore ⟨"The user likes tea.", Dict.empty⟩

def plainForget : SoftForget := ⟨none, none, none⟩

def forgottenTea : SqliteStore := (plainRouter.serve teaStore (.forget "m1" plainForget)).1

/-- The note when it is forgotten and restored. -/
def restoredTea : SqliteStore := (plainRouter.serve forgottenTea (.restore "m1" plainForget)).1

def rollbackTo (s : SqliteStore) (revision : ℤ) : Handled Json := plainRouter.serve s (.rollback "m1" ⟨revision, none, none⟩)

theorem run_forgotten : Run (SoundStep newYear) teaStore [⟨plainRouter, .forget "m1" plainForget⟩] forgottenTea :=
  Run.next Run.start ⟨⟨rfl, rfl⟩, fun _ => rfl⟩

theorem run_restored : Run (SoundStep newYear) teaStore
    [⟨plainRouter, .restore "m1" plainForget⟩, ⟨plainRouter, .forget "m1" plainForget⟩] restoredTea :=
  Run.next run_forgotten ⟨⟨rfl, rfl⟩, fun _ => rfl⟩

/-- What the newest snapshot of a revision has of the lifecycle, beside the document. -/
def snapshotLifecycle (c : Content) (revision : ℤ) : Option (Bool × Bool) :=
  (snapshotOf (listItems (c.metadata.value "version_history")) revision).map fun snapshot =>
    (((snapshotMetadata snapshot).value "candidate_deleted").truthy,
      settledStatus newYear (snapshotMetadata snapshot) = reviewStatus newYear c.metadata)

/-- A note that is forgotten stays so when it goes back to the revision before. -/
theorem rollback_keeps_forgotten : ∃ existing content, forgottenTea.docs.get "m1" = some existing ∧
    (rollbackTo forgottenTea 1).1.docs.get "m1" = some content ∧ Forgotten existing.metadata ∧
      KeepsLifecycle newYear existing.metadata content.metadata := by
  have hbefore : (forgottenTea.docs.get "m1").map (fun c => ((c.metadata.value "soft_forgotten").truthy,
      (c.metadata.get "soft_forgotten").isSome, snapshotLifecycle c 1)) = some (true, true, some (false, true)) := by
    decide +kernel
  have hok : (rollbackTo forgottenTea 1).2.isOk = true := by decide +kernel
  have hafter : ((rollbackTo forgottenTea 1).1.docs.get "m1").isSome = true := by decide +kernel
  obtain ⟨existing, hdoc, hexisting⟩ := Option.map_eq_some_iff.mp hbefore
  obtain ⟨content, hcontent⟩ := Option.isSome_iff_exists.mp hafter
  obtain ⟨hforgotten, hgiven, hsnapshot⟩ : (existing.metadata.value "soft_forgotten").truthy = true ∧
      (existing.metadata.get "soft_forgotten").isSome = true ∧ snapshotLifecycle existing 1 = some (false, true) := by
    simpa using hexisting
  cases hserve : rollbackTo forgottenTea 1 with
  | mk s' result =>
    rw [hserve] at hok hcontent
    cases result with
    | error e => cases hok
    | ok answer =>
      refine ⟨existing, content, hdoc, hcontent, hforgotten, ?_⟩
      refine (rollback_keeps newYear_lawful (fun t => ?_) (fun _ => rfl) run_forgotten rfl hdoc hserve hcontent).mpr ?_
      · cases t
        · decide +kernel
        · decide +kernel
      · refine Or.inr fun snapshot hfound => ?_
        unfold snapshotLifecycle at hsnapshot
        have hfound' : snapshotOf (listItems (existing.metadata.value "version_history")) 1 = some snapshot := hfound
        rw [hfound', Option.map_some] at hsnapshot
        obtain ⟨hdeleted, hstatus⟩ := Prod.mk.inj (Option.some.inj hsnapshot)
        refine ⟨fun hnone => ?_, fun _ => hdeleted, Or.inr (of_decide_eq_true hstatus), Or.inl (Or.inr (Or.inl hforgotten))⟩
        rw [hnone] at hgiven
        cases hgiven

/-- A note that was forgotten and restored is forgotten again when it goes back to the revision
between. -/
theorem rollback_forgets : ¬ ∀ (s₀ s s' : SqliteStore) (calls : List (Call Bool)) (docId : String) (payload : Rollback)
    (existing content : Content) (answer : Json), InStep s₀ → Run (SoundStep newYear) s₀ calls s →
      s.docs.get docId = some existing → plainRouter.serve s (.rollback docId payload) = (s', .ok answer) →
      s'.docs.get docId = some content → KeepsLifecycle newYear existing.metadata content.metadata := by
  intro hclaim
  have hbefore : (restoredTea.docs.get "m1").map (fun c => (c.metadata.value "soft_forgotten").truthy) = some false := by
    decide +kernel
  have hafter : ((rollbackTo restoredTea 2).1.docs.get "m1").map (fun c => (c.metadata.value "soft_forgotten").truthy) =
      some true := by
    decide +kernel
  have hok : (rollbackTo restoredTea 2).2.isOk = true := by decide +kernel
  obtain ⟨existing, hdoc, hexisting⟩ := Option.map_eq_some_iff.mp hbefore
  obtain ⟨content, hcontent, hforgotten⟩ := Option.map_eq_some_iff.mp hafter
  cases hserve : rollbackTo restoredTea 2 with
  | mk s' result =>
    rw [hserve] at hok hcontent
    cases result with
    | error e => cases hok
    | ok answer =>
      have hkeeps := hclaim teaStore restoredTea s' _ "m1" ⟨2, none, none⟩ existing content answer (fun _ => rfl) run_restored
        hdoc hserve hcontent
      have hback : Forgotten existing.metadata := hkeeps.forgotten.mp hforgotten
      unfold Forgotten at hback
      rw [hexisting] at hback
      cases hback

end Memory
