import Yuizaki.Memory.Rewrite
import Yuizaki.Memory.Routes

/- Getting rid of a memory (`delete_doc`, `soft_forget_doc` and `review_doc`).

   A candidate that is deleted, a memory that is forgotten and a candidate that is rejected are
   marked and written again; any other document is taken out of the store. The marks survive
   the write (`Carries`), and each of them keeps the memory from recall. What can be refused is
   the write, for what the metadata already held (`Rewritable`), and a review of a document
   that is no candidate or is decided. -/
namespace Memory

open Fallible

variable {τ : Type} {tools : MetadataTools τ} {m n m' : Metadata} {key : String}

/-! ## Marks -/

def auditKeys : List String := ["audit", "audit_truncated"]

section Audit

variable {env : Router τ} {action : String} {reason : Option String} {before : Option Json}

theorem appendAudit_frame (h : env.appendAudit m action reason before = .ok n) (hkey : key ∉ auditKeys) :
    n.get key = m.get key := by
  simp only [auditKeys, List.mem_cons, List.not_mem_nil, or_false, not_or] at hkey
  obtain ⟨truncated, -, h⟩ := bind_ok.mp h
  rw [← pure_ok.mp h, get_putCount, if_neg hkey.2, Dict.get_set_of_ne hkey.1]

theorem appendAudit_gives :
    Gives (env.appendAudit m action reason before) ↔ Gives (countOf env.tools m "audit_truncated") := by
  unfold Router.appendAudit
  dsimp only
  rw [gives_bind]
  exact ⟨fun ⟨c, hc, _⟩ => ⟨c, hc⟩, fun ⟨c, hc⟩ => ⟨c, hc, gives_pure _⟩⟩

theorem putCount_gives (tools : MetadataTools τ) (c : ℤ) : Gives (countOf tools (putCount m key c) key) := by
  have hint (a : ℤ) : Gives (tools.toInt (.int a)) := ⟨a, rfl⟩
  have hread : Gives (tools.toInt (Json.or (((putCount m key c).get key).getD (.int 0)) (.int 0))) := by
    rw [get_putCount, if_pos rfl, Json.or]
    split
    · split
      · exact hint c
      · exact hint 0
    · exact hint 0
  obtain ⟨a, ha⟩ := hread
  unfold countOf
  rw [ha]
  exact ⟨_, rfl⟩

theorem appendAudit_count (h : env.appendAudit m action reason before = .ok n) :
    Gives (countOf env.tools n "audit_truncated") := by
  obtain ⟨truncated, -, h⟩ := bind_ok.mp h
  rw [← pure_ok.mp h]
  exact putCount_gives env.tools _

/-- The fields that the lifecycle routes set. -/
def markKeys : List String :=
  ["review_status", "candidate_deleted_at", "candidate_deleted", "soft_forgotten", "soft_forgotten_at",
    "soft_forget_turn_id", "reviewed_at", "review_reason"]

theorem marked_retouched {marked : Metadata} (hmarked : ∀ key, key ∉ markKeys → marked.get key = m.get key)
    (h : env.appendAudit marked action reason before = .ok m') : Retouched env.tools m m' := by
  refine ⟨fun key hkey => ?_, appendAudit_count h⟩
  have hfree : ∀ key ∈ checkedKeys, key ∉ markKeys ∧ key ∉ auditKeys := by decide
  rw [appendAudit_frame h (hfree key hkey).2, hmarked key (hfree key hkey).1]

theorem marked_gives {marked : Metadata} (hmarked : ∀ key, key ∉ markKeys → marked.get key = m.get key) :
    Gives (env.appendAudit marked action reason before) ↔ Gives (countOf env.tools m "audit_truncated") := by
  rw [appendAudit_gives, countOf, countOf, hmarked "audit_truncated" (by decide)]

end Audit

/-! ## Marks of one document -/

variable {env : Router τ} {s : SqliteStore} {docId : String} {existing : Content} {sessionId : Option String}

/-- A route that marks a document and audits the mark. -/
structure Marking (env : Router τ) (existing : Content) (change : Content → Except RouteError Edit)
    (marked : Metadata) : Prop where
  frame : ∀ key, key ∉ markKeys → marked.get key = existing.metadata.get key
  change : ∃ action reason before answer, change existing =
    (escaped (env.appendAudit marked action reason before)).map
      fun metadata => { answer, content := some { existing with metadata } }

theorem set_frame {marked : Metadata} {v : Json} (hmarked : ∀ key, key ∉ markKeys → marked.get key = m.get key)
    {mark : String} (hmark : mark ∈ markKeys) : ∀ key, key ∉ markKeys → (marked.set mark v).get key = m.get key := by
  intro key hkey
  have hne : key ≠ mark := fun heq => hkey (heq ▸ hmark)
  rw [Dict.get_set_of_ne hne]
  exact hmarked key hkey

/-- The metadata of a candidate that is deleted, before its audit. -/
def Router.buried (env : Router τ) (m : Metadata) : Metadata :=
  m.set "review_status" (.str "deleted")
    |>.set "candidate_deleted_at" (.str env.utcNow)
    |>.set "candidate_deleted" (.bool true)

theorem buried_frame : ∀ key, key ∉ markKeys → (env.buried m).get key = m.get key :=
  set_frame (set_frame (set_frame (fun _ _ => rfl) (by decide)) (by decide)) (by decide)

theorem editMetadata_map (answer : List (String × Json)) (x : Except PyError Metadata) :
    editMetadata existing answer x =
      (escaped x).map fun metadata => { answer := .obj answer, content := some { existing with metadata } } := by
  unfold editMetadata
  cases escaped x <;> rfl

theorem delete_marking (answer : Json) : Marking env existing (fun existing => do
    let metadata ← env.tombstone existing.metadata
    return { answer, content := some { existing with metadata } }) (env.buried existing.metadata) := by
  refine ⟨buried_frame, "delete_candidate", some "candidate_deleted", none, answer, ?_⟩
  show (escaped (env.appendAudit (env.buried existing.metadata) _ _) >>= fun metadata => pure _) = _
  cases escaped (env.appendAudit (env.buried existing.metadata) "delete_candidate" (some "candidate_deleted")) <;> rfl

/-- The metadata of a memory that is forgotten, before its audit. -/
def Router.forgotten (env : Router τ) (payload : SoftForget) (m : Metadata) : Metadata :=
  let m := m.set "soft_forgotten" (.bool true) |>.set "soft_forgotten_at" (.str env.localNow)
  if (optionJson payload.turnId).truthy then m.set "soft_forget_turn_id" (optionJson payload.turnId) else m

theorem forgotten_frame (payload : SoftForget) :
    ∀ key, key ∉ markKeys → (env.forgotten payload m).get key = m.get key := by
  unfold Router.forgotten
  dsimp only
  split
  · exact set_frame (set_frame (set_frame (fun _ _ => rfl) (by decide)) (by decide)) (by decide)
  · exact set_frame (set_frame (fun _ _ => rfl) (by decide)) (by decide)

theorem forgotten_mark (payload : SoftForget) : (env.forgotten payload m).get "soft_forgotten" = some (.bool true) := by
  unfold Router.forgotten
  dsimp only
  split
  · rw [Dict.get_set_of_ne (by decide), Dict.get_set_of_ne (by decide), Dict.get_set_self]
  · rw [Dict.get_set_of_ne (by decide), Dict.get_set_self]

/-- The metadata of a candidate that is reviewed, before its audit. -/
def Router.reviewed (env : Router τ) (review : Review) (m : Metadata) : Metadata :=
  m.set "review_status" (.str (if review.approve then "approved" else "rejected"))
    |>.set "reviewed_at" (.str env.utcNow)
    |>.set "review_reason" (optionJson review.reason)

theorem reviewed_frame (review : Review) :
    ∀ key, key ∉ markKeys → (env.reviewed review m).get key = m.get key :=
  set_frame (set_frame (set_frame (fun _ _ => rfl) (by decide)) (by decide)) (by decide)

/-- A candidate that a review finds undecided. The status is read as it is stored. -/
def Undecided (tools : MetadataTools τ) (m : Metadata) : Prop :=
  let status := PyStr.lower tools.wide (tools.str ((m.value "review_status").or (.str "")))
  ¬ ((m.value "candidate_deleted").truthy = true ∨ status = "deleted") ∧ status ≠ "rejected"

theorem marks_carried {marked : Metadata} {action : String} {reason : Option String} {before : Option Json}
    (hm' : env.appendAudit marked action reason before = .ok m') (hcarries : Carries m' n) :
    ∀ key ∈ markKeys, ∀ v, marked.get key = some v → (key = "review_status" → ∃ status ∈ reviewOutcomes,
      v = .str status) → n.get key = some v := by
  intro key hkey v hv hstatus
  have hfree : ∀ key ∈ markKeys, key ∉ auditKeys := by decide
  have hm'v : m'.get key = some v := by
    rw [appendAudit_frame hm' (hfree key hkey)]
    exact hv
  by_cases hreview : key = "review_status"
  · obtain ⟨status, hmem, rfl⟩ := hstatus hreview
    rw [hreview] at hm'v ⊢
    exact hcarries.status status hmem hm'v
  · by_cases hforgotten : key ∈ forgottenKeys
    · exact hcarries.forgotten key hforgotten v hm'v
    · have hplain : ∀ key ∈ markKeys, key ≠ "review_status" → key ∉ forgottenKeys → key ∉ writtenKeys := by
        decide
      rw [hcarries.plain key (hplain key hkey hreview hforgotten)]
      exact hm'v

/-! ## What a removal leaves -/

/-- A stored document that the caller may have, under an id that is no blank text. -/
structure Accessible (env : Router τ) (s : SqliteStore) (docId : String) (sessionId : Option String)
    (existing : Content) : Prop extends Stored env s docId existing where
  access : env.ensureDocScopeAccess existing.metadata sessionId = .ok ()
  named : PyStr.strip docId ≠ ""

theorem access_active (h : env.ensureDocScopeAccess m sessionId = .ok ()) :
    env.ensureDocInActiveWorkspace m = .ok () := by
  obtain ⟨_, hactive, -⟩ := bind_ok.mp h
  exact hactive

theorem deleteOne_ok (hanswers : env.faults docId = {}) (hnamed : PyStr.strip docId ≠ "") (documents : Dict String Content) :
    ∃ s', env.deleteOne documents s docId = (s', .ok ()) ∧ s'.docs = s.docs.erase docId ∧
      s'.rows = s.rows.erase docId := by
  unfold Router.deleteOne SqliteStore.deleteDocument stored
  rw [hanswers]
  refine ⟨{ s with
    rows := s.rows.erase docId
    revision := if (s.rows.get docId).isSome then s.revision + 1 else s.revision
    docs := s.docs.erase docId }, ?_, rfl, rfl⟩
  have hrecorded : recordOperation docId = .ok () := require_ok.mpr hnamed
  show (_, if (documents.get docId).isSome then recordOperation docId else .ok ()) = _
  rw [hrecorded, ite_self]
  rfl

theorem deleteAll_ok {docIds : List String} (hanswers : ∀ id ∈ docIds, env.faults id = {})
    (hnamed : ∀ id ∈ docIds, PyStr.strip id ≠ "") (documents : Dict String Content) (s : SqliteStore) :
    ∃ s', eachOf (env.deleteOne documents) docIds s = (s', .ok ()) ∧ s'.docs = docIds.foldl Dict.erase s.docs ∧
      s'.rows = docIds.foldl Dict.erase s.rows := by
  induction docIds generalizing s with
  | nil => exact ⟨s, rfl, rfl, rfl⟩
  | cons id rest ih =>
    have hanswersId : env.faults id = {} := hanswers id List.mem_cons_self
    obtain ⟨s₁, hone, hdocs, hrows⟩ := deleteOne_ok hanswersId (hnamed id List.mem_cons_self) documents
    obtain ⟨s₂, hrest, hdocs₂, hrows₂⟩ := ih (fun id' h => hanswers id' (List.mem_cons_of_mem _ h))
      (fun id' h => hnamed id' (List.mem_cons_of_mem _ h)) s₁
    refine ⟨s₂, ?_, ?_, ?_⟩
    · show (env.deleteOne documents s id).andThen _ = _
      rw [hone]
      exact hrest
    · rw [hdocs₂, hdocs]
      rfl
    · rw [hrows₂, hrows]
      rfl

theorem deleteMemoryDocuments_ok {docIds : List String} (hanswers : ∀ id ∈ docIds, env.faults id = {})
    (hnamed : ∀ id ∈ docIds, PyStr.strip id ≠ "")
    (hplain : ∀ id ∈ docIds, ∀ content, s.docs.get id = some content → content.candidate = false) :
    ∃ s', env.deleteMemoryDocuments s docIds = (s', .ok ()) ∧ s'.docs = docIds.foldl Dict.erase s.docs ∧
      s'.rows = docIds.foldl Dict.erase s.rows := by
  obtain ⟨s', hdeleted, hdocs, hrows⟩ := deleteAll_ok hanswers hnamed s.docs s
  have hnone : s.docs.entries.filter (fun e => e.1 ∈ docIds ∧ e.2.candidate = true) = [] := by
    rw [List.filter_eq_nil_iff]
    intro e he hcandidate
    obtain ⟨hmem, htrue⟩ := of_decide_eq_true hcandidate
    rw [hplain e.1 hmem e.2 (Dict.get_eq_some.mpr he)] at htrue
    cases htrue
  refine ⟨s', ?_, hdocs, hrows⟩
  unfold Router.deleteMemoryDocuments
  dsimp only
  rw [hdeleted, hnone]
  rfl

variable [LinearOrder τ]

theorem editDoc_marks (lawful : env.tools.Lawful) (h : Accessible env s docId sessionId existing)
    (hrewritable : Rewritable env existing) {change : Content → Except RouteError Edit} {marked : Metadata}
    (hmarking : Marking env existing change marked) :
    ∃ n answer, env.editDoc s docId sessionId change = (s.written docId ⟨existing.text, n⟩, .ok answer) ∧
      ∀ key ∈ markKeys, ∀ v, marked.get key = some v → (key = "review_status" → ∃ status ∈ reviewOutcomes,
        v = .str status) → n.get key = some v := by
  obtain ⟨action, reason, before, answer, hchange⟩ := hmarking.change
  obtain ⟨m', hm'⟩ := (marked_gives hmarking.frame).mpr hrewritable.audit
  have hretouched := marked_retouched hmarking.frame hm'
  obtain ⟨n, hwrite, hwritten⟩ := write_retouched lawful h.toStored (access_active h.access) hrewritable hretouched
    existing.text
  refine ⟨n, answer, ?_, marks_carried hm' hwritten.carries⟩
  unfold Router.editDoc
  rw [h.doc]
  dsimp only
  rw [h.access, hchange, hm']
  show (env.writeMemoryDocument s { id := docId, text := existing.text, metadata := m' }).andThen _ = _
  rw [hwrite]
  have hrecorded : recordOperation docId = .ok () := require_ok.mpr h.named
  rw [hrecorded]
  rfl

/-- Where no copy of a document can be recalled, at any time. -/
def Gone (tools : MetadataTools τ) (s : SqliteStore) (docId : String) : Prop :=
  ∀ content, s.docs.get docId = some content ∨ s.rows.get docId = some content →
    ∀ now, ¬ Recallable tools now content.metadata

/-- A request that is accepted and after which a document is gone. -/
def RidOf (tools : MetadataTools τ) (docId : String) (handled : Handled Json) : Prop :=
  (∃ answer, handled.2 = .ok answer) ∧ Gone tools handled.1 docId

theorem gone_written {content : Content} (h : ∀ now, ¬ Recallable tools now content.metadata) :
    Gone tools (s.written docId content) docId := by
  intro stored hstored
  have hcontent : content = stored := by
    rcases hstored with hdoc | hrow
    · have hget : (s.docs.set docId content).get docId = some stored := hdoc
      rw [Dict.get_set_self] at hget
      exact Option.some.inj hget
    · have hget : (s.rows.set docId content).get docId = some stored := hrow
      rw [Dict.get_set_self] at hget
      exact Option.some.inj hget
  rw [← hcontent]
  exact h

/-! ## The routes -/

theorem delete_rid (lawful : env.tools.Lawful) (h : Accessible env s docId sessionId existing)
    (hdelete : existing.candidate = false ∨ Rewritable env existing) :
    RidOf env.tools docId (env.deleteDoc s docId sessionId) := by
  unfold Router.deleteDoc
  rw [h.doc]
  dsimp only
  split
  · rename_i hcandidate
    have hrewritable : Rewritable env existing := hdelete.resolve_left (by rw [hcandidate]; decide)
    obtain ⟨n, answer, hedit, hmarks⟩ := editDoc_marks lawful h hrewritable
      (delete_marking (.obj [("status", .str "deleted"), ("id", .str docId), ("tombstone", .bool true)]))
    rw [hedit]
    refine ⟨⟨answer, rfl⟩, gone_written fun now => deleted_not_recallable ?_⟩
    have hdeleted : n.get "candidate_deleted" = some (.bool true) :=
      hmarks _ (by decide) _ Dict.get_set_self fun heq => absurd heq (by decide)
    rw [value_eq hdeleted]
    rfl
  · rename_i hplain
    rw [h.access]
    have hids (id : String) (hid : id ∈ [docId]) : id = docId := List.mem_singleton.mp hid
    have hanswers : ∀ id ∈ [docId], env.faults id = {} := fun id hid => hids id hid ▸ h.answers
    have hcandidates : ∀ id ∈ [docId], ∀ content, s.docs.get id = some content → content.candidate = false := by
      intro id hid content hget
      rw [hids id hid, h.doc] at hget
      rw [← Option.some.inj hget]
      exact Bool.eq_false_iff.mpr hplain
    obtain ⟨s', hdeleted, hdocs, hrows⟩ := deleteMemoryDocuments_ok hanswers
      (fun id hid => hids id hid ▸ h.named) hcandidates
    dsimp only
    rw [hdeleted]
    refine ⟨⟨_, rfl⟩, fun content hcontent => ?_⟩
    have hgone : (s.docs.erase docId).get docId = some content ∨ (s.rows.erase docId).get docId = some content := by
      rw [← show s'.docs = s.docs.erase docId from hdocs, ← show s'.rows = s.rows.erase docId from hrows]
      exact hcontent
    rw [Dict.get_erase, Dict.get_erase, if_pos rfl, if_pos rfl] at hgone
    rcases hgone with hnone | hnone <;> cases hnone

theorem softForget_rid (lawful : env.tools.Lawful) (payload : SoftForget)
    (h : Accessible env s docId payload.sessionId existing) (hrewritable : Rewritable env existing) :
    RidOf env.tools docId (env.softForgetDoc s docId payload) := by
  let change (existing : Content) : Except RouteError Edit :=
    editMetadata existing [("status", .str "soft_forgotten"), ("id", .str docId), ("action", .str "soft_forget")]
      (env.appendAudit (env.forgotten payload existing.metadata) "soft_forget"
        (some (textOr payload.reason "conversational_soft_forget")) (some (.obj [("text", .str existing.text)])))
  have hroute : env.softForgetDoc s docId payload = env.editDoc s docId payload.sessionId change := rfl
  have hmarking : Marking env existing change (env.forgotten payload existing.metadata) :=
    ⟨forgotten_frame payload, _, _, _, _, editMetadata_map _ _⟩
  obtain ⟨n, answer, hedit, hmarks⟩ := editDoc_marks lawful h hrewritable hmarking
  rw [hroute, hedit]
  refine ⟨⟨answer, rfl⟩, gone_written fun now => forgotten_not_recallable ?_⟩
  have hforgotten : n.get "soft_forgotten" = some (.bool true) :=
    hmarks _ (by decide) _ (forgotten_mark payload) fun heq => absurd heq (by decide)
  rw [value_eq hforgotten]
  rfl

theorem reject_rid (lawful : env.tools.Lawful) (reason : Option String)
    (h : Accessible env s docId sessionId existing) (hrewritable : Rewritable env existing)
    (hcandidate : existing.candidate = true) (hundecided : Undecided env.tools existing.metadata) :
    RidOf env.tools docId (env.reviewDoc s docId ⟨false, reason, sessionId⟩) := by
  let review : Review := ⟨false, reason, sessionId⟩
  let change (existing : Content) : Except RouteError Edit := do
    let m := existing.metadata
    require (.http 409 (.str "memory document is not a review candidate")) ((m.value "candidate").truthy = true)
    let status := PyStr.lower env.tools.wide (env.tools.str ((m.value "review_status").or (.str "")))
    let gone := (m.value "candidate_deleted").truthy ∨ status = "deleted"
    require (reviewRefused gone) (¬ gone ∧ status ≠ "rejected")
    editMetadata existing [("status", .str "rejected"), ("id", .str docId)]
      (env.appendAudit (env.reviewed review m) "review_reject" reason)
  have hroute : env.reviewDoc s docId review = env.editDoc s docId sessionId change := rfl
  have hmarking : Marking env existing change (env.reviewed review existing.metadata) := by
    refine ⟨reviewed_frame review, "review_reject", reason, none, .obj [("status", .str "rejected"), ("id", .str docId)],
      ?_⟩
    have hfirst : require (RouteError.http 409 (.str "memory document is not a review candidate"))
        ((existing.metadata.value "candidate").truthy = true) = .ok () := require_ok.mpr hcandidate
    have hsecond (e : RouteError) : require e (¬ ((existing.metadata.value "candidate_deleted").truthy = true ∨
        PyStr.lower env.tools.wide (env.tools.str ((existing.metadata.value "review_status").or (.str ""))) = "deleted") ∧
      PyStr.lower env.tools.wide (env.tools.str ((existing.metadata.value "review_status").or (.str ""))) ≠ "rejected") =
        .ok () := require_ok.mpr hundecided
    rw [← editMetadata_map]
    show (require _ _ >>= fun _ => require _ _ >>= fun _ => _) = _
    rw [hfirst]
    show (require _ _ >>= fun _ => _) = _
    rw [hsecond]
    rfl
  obtain ⟨n, answer, hedit, hmarks⟩ := editDoc_marks lawful h hrewritable hmarking
  rw [hroute, hedit]
  refine ⟨⟨answer, rfl⟩, gone_written fun now => status_not_recallable ?_⟩
  have hrejected : n.get "review_status" = some (.str "rejected") := by
    refine hmarks _ (by decide) _ ?_ fun _ => ⟨"rejected", by decide, rfl⟩
    unfold Router.reviewed
    rw [Dict.get_set_of_ne (by decide), Dict.get_set_of_ne (by decide), Dict.get_set_self]
    rfl
  have hstatus : reviewStatus env.tools n = "rejected" := by
    rw [reviewStatus, value_eq hrejected]
    exact outcome_word (by decide)
  rw [hstatus]
  decide

/-- A caller gets rid of a memory. For every document that is stored and that the caller may
have, deleting it is accepted if it is no candidate, whatever its metadata. Where its metadata
passes the checks of a write, deleting and forgetting are accepted, and so is rejecting a
candidate that is undecided. After each of them no copy of the document can be recalled, at
any time. -/
theorem memory_removal (lawful : env.tools.Lawful) (reason turnId : Option String)
    (h : Accessible env s docId sessionId existing) :
    (existing.candidate = false → RidOf env.tools docId (env.deleteDoc s docId sessionId)) ∧
      (Rewritable env existing →
        RidOf env.tools docId (env.deleteDoc s docId sessionId) ∧
        RidOf env.tools docId (env.softForgetDoc s docId ⟨reason, turnId, sessionId⟩) ∧
        (existing.candidate = true → Undecided env.tools existing.metadata →
          RidOf env.tools docId (env.reviewDoc s docId ⟨false, reason, sessionId⟩))) := by
  refine ⟨fun hplain => delete_rid lawful h (Or.inl hplain), fun hrewritable => ⟨?_, ?_, ?_⟩⟩
  · exact delete_rid lawful h (Or.inr hrewritable)
  · exact softForget_rid lawful ⟨reason, turnId, sessionId⟩ h hrewritable
  · exact reject_rid lawful reason h hrewritable

/-- A service on the last day of the year. -/
def plainRouter : Router Bool where
  tools := newYear
  now := false
  localNow := "2025-12-31T00:00:00"
  utcNow := "2025-12-31T00:00:00+00:00"
  float _ := none
  active := none
  faults _ := {}

def noteStore (content : Content) : SqliteStore where
  rows := Dict.empty.set "m1" content
  docs := Dict.empty.set "m1" content

/-- A candidate that waits for its review. -/
def teaCandidate : Content where
  text := "The user likes tea."
  metadata := Dict.empty.set "candidate" (.bool true) |>.set "review_status" (.str "pending")

def teaMemory : Content where
  text := "The user likes tea."
  metadata := Dict.empty

theorem note_accessible (content : Content)
    (hopen : plainRouter.ensureDocScopeAccess content.metadata none = .ok ()) :
    Accessible plainRouter (noteStore content) "m1" none content where
  doc := Dict.get_set_self
  row := Dict.get_set_self
  answers := rfl
  access := hopen
  named := by decide +kernel

theorem candidate_rewritable : Rewritable plainRouter teaCandidate where
  dates := by decide +kernel
  retired := by decide +kernel
  stamps := by decide +kernel
  audit := by decide +kernel
  versions := by decide +kernel

/-- The candidate is got rid of in each of the three ways. -/
theorem memory_removal_candidate :
    RidOf newYear "m1" (plainRouter.deleteDoc (noteStore teaCandidate) "m1" none) ∧
      RidOf newYear "m1" (plainRouter.softForgetDoc (noteStore teaCandidate) "m1" ⟨none, none, none⟩) ∧
      RidOf newYear "m1" (plainRouter.reviewDoc (noteStore teaCandidate) "m1" ⟨false, none, none⟩) := by
  have hopen : plainRouter.ensureDocScopeAccess teaCandidate.metadata none = .ok () := by decide +kernel
  have haccessible := note_accessible teaCandidate hopen
  have hundecided : Undecided newYear teaCandidate.metadata := by
    unfold Undecided
    decide +kernel
  obtain ⟨-, hrewritten⟩ := memory_removal newYear_lawful none none haccessible
  obtain ⟨hdelete, hforget, hreject⟩ := hrewritten candidate_rewritable
  exact ⟨hdelete, hforget, hreject rfl hundecided⟩

/-- A memory that was admitted cannot be rejected, and is recalled as before. -/
theorem reject_refused : Accessible plainRouter (noteStore teaMemory) "m1" none teaMemory ∧
    plainRouter.reviewDoc (noteStore teaMemory) "m1" ⟨false, none, none⟩ =
      (noteStore teaMemory, .error (.http 409 (.str "memory document is not a review candidate"))) ∧
    Recallable newYear false teaMemory.metadata ∧
    ¬ RidOf newYear "m1" (plainRouter.reviewDoc (noteStore teaMemory) "m1" ⟨false, none, none⟩) := by
  have hopen : plainRouter.ensureDocScopeAccess teaMemory.metadata none = .ok () := by decide +kernel
  have hrefused : plainRouter.reviewDoc (noteStore teaMemory) "m1" ⟨false, none, none⟩ =
      (noteStore teaMemory, .error (.http 409 (.str "memory document is not a review candidate"))) := by
    decide +kernel
  have hrecallable : Recallable newYear false teaMemory.metadata := recallable_iff.mp (by decide +kernel)
  refine ⟨note_accessible teaMemory hopen, hrefused, hrecallable, fun hrid => ?_⟩
  obtain ⟨⟨answer, haccepted⟩, -⟩ := hrid
  rw [hrefused] at haccepted
  cases haccepted

end Memory
