import Yuizaki.Memory.Mirror

/- A write from a copy that is not up to date (`_persist` in `modules/memory/sqlite_store.py`).

   The store keeps a lifecycle field of the row where the metadata it is given lacks it. The
   normalizer has run before and has put `superseded_by: None` there, so that field never
   lacks, and a field that is there with another value is not kept either. `marks_kept` says
   which copies leave the marks of the row. -/
namespace Memory

variable {τ : Type} {tools : MetadataTools τ} {now : τ} {m n : Metadata} {row : Content} {doc : Document}

/-! ## Marks -/

def Forgotten (m : Metadata) : Prop := (m.value "soft_forgotten").truthy = true

/-- A memory that another one has taken the place of. -/
def Superseded (m : Metadata) : Prop := (m.value "superseded_by").truthy = true

def actionOf : Option Json → Json
  | some (.obj kvs) => (Json.obj kvs).get "action"
  | _ => .null

theorem latestAction_eq (m : Metadata) : latestAction m = actionOf (listItems (m.value "audit")).getLast? := rfl

/-- The newest action of the audit of a row and of what metadata adds to it. -/
def newestAction (row m : Metadata) : Json :=
  actionOf (mergeItems (listItems (row.value "audit")) (listItems (m.value "audit"))).getLast?

theorem lastItems_getLast {limit : ℕ} (hlimit : 0 < limit) (xs : List Json) :
    (lastItems limit xs).getLast? = xs.getLast? := by
  unfold lastItems
  rw [List.getLast?_drop]
  cases xs with
  | nil => rfl
  | cons x xs =>
    have hshort : ¬ (x :: xs).length ≤ (x :: xs).length - limit := by
      rw [List.length_cons]
      omega
    rw [if_neg hshort]

theorem audit_mergeAppendOnly {current incoming : Metadata}
    (h : mergeAppendOnlyMetadata tools current incoming = .ok n) : n.get "audit" =
      some (.arr (lastItems 100 (mergeItems (listItems (current.value "audit")) (listItems (incoming.value "audit"))))) := by
  simp only [mergeAppendOnlyMetadata, appendOnlyHistoryLimits, List.foldlM_cons, List.foldlM_nil] at h
  obtain ⟨first, hfirst, h⟩ := Fallible.bind_ok.mp h
  obtain ⟨second, hsecond, h⟩ := Fallible.bind_ok.mp h
  obtain ⟨third, hthird, h⟩ := Fallible.bind_ok.mp h
  rw [← Fallible.pure_ok.mp h, get_mergeHistory hthird (by decide) (by decide),
    get_mergeHistory hsecond (by decide) (by decide)]
  unfold mergeHistory at hfirst
  dsimp only at hfirst
  rw [if_pos rfl] at hfirst
  obtain ⟨before, -, hfirst⟩ := Fallible.bind_ok.mp hfirst
  obtain ⟨after, -, hfirst⟩ := Fallible.bind_ok.mp hfirst
  rw [← Fallible.pure_ok.mp hfirst, get_putCount, if_neg (by decide), Dict.get_set_self]

/-! ## What a write makes of the lifecycle -/

theorem normalized_lifecycle {key : String} (hkey : key ∈ lifecycleFields)
    (h : normalizeMemoryMetadata tools now m = .ok n) (hgiven : key = "superseded_by" → ∃ v, m.get key = some v) :
    n.get key = m.get key := by
  obtain ⟨stamps, -, hnormalized⟩ := normalize_spec h
  by_cases hsuperseded : key = "superseded_by"
  · obtain ⟨v, hv⟩ := hgiven hsuperseded
    rw [hsuperseded] at hv ⊢
    rw [hnormalized.supersededBy, value_eq hv, hv]
  · refine hnormalized.others key ?_
    simp only [lifecycleFields, List.mem_cons, List.not_mem_nil, or_false] at hkey
    obtain rfl | rfl | rfl | rfl := hkey
    · decide
    · decide
    · decide
    · exact absurd rfl hsuperseded

theorem get_lifecycle {metadata : Metadata} {docId : String} (key : String) (hkey : key ∈ lifecycleFields)
    (hnormal : normalizeMemoryMetadata tools now m = .ok metadata)
    (h : replacingMetadata tools now row docId metadata = .ok n) :
    n.get key = if newestAction row.metadata m = .str "restore" then metadata.get key
      else (metadata.get key).or (row.metadata.get key) := by
  obtain ⟨histories, hhistories, hrest⟩ := Fallible.bind_ok.mp h
  obtain ⟨old, hold, hrest⟩ := Fallible.bind_ok.mp hrest
  obtain ⟨stamps, -, hnormalized⟩ := normalize_spec hnormal
  have hkeys : key ∉ historyKeys ∧ key ∉ provenanceFields ∧ key ∉ ["created_at", "revision", "updated_at",
      "version_history", "version_history_truncated"] := by
    simp only [lifecycleFields, List.mem_cons, List.not_mem_nil, or_false] at hkey
    obtain rfl | rfl | rfl | rfl := hkey
    · decide
    · decide
    · decide
    · decide
  -- the newest action is read from the merged audit
  have haction : latestAction histories = newestAction row.metadata m := by
    have haudit : metadata.value "audit" = m.value "audit" := by
      unfold Metadata.value
      rw [hnormalized.others "audit" (by decide)]
    rw [latestAction_eq, value_eq (audit_mergeAppendOnly hhistories), haudit]
    exact congrArg actionOf (lastItems_getLast (by decide) _)
  have hmerged : (withLifecycle row.metadata histories).get key =
      if newestAction row.metadata m = .str "restore" then metadata.get key
        else (metadata.get key).or (row.metadata.get key) := by
    unfold withLifecycle
    rw [haction]
    split
    · exact get_mergeAppendOnly hhistories hkeys.1
    · rw [get_keepLifecycle, if_pos hkey, get_mergeAppendOnly hhistories hkeys.1]
  split at hrest
  · rw [← Fallible.pure_ok.mp hrest]
    exact hmerged
  · obtain ⟨old', new, -, hnew, happended⟩ := append_ok hrest
    rw [happended.others key hkeys.2.1 hkeys.2.2, ← hmerged]
    refine normalized_lifecycle hkey hnew fun heq => ?_
    rw [hmerged, heq, hnormalized.supersededBy]
    split
    · exact ⟨_, rfl⟩
    · exact ⟨_, rfl⟩

/-! ## The marks of the row -/

/-- The marks of a row are set in what is stored, unless the metadata ends with a restore. -/
def KeepsMarks (row : Content) (doc : Document) (stored : Content) : Prop :=
  latestAction doc.metadata = .str "restore" ∨
    (Forgotten row.metadata → Forgotten stored.metadata) ∧ (Superseded row.metadata → Superseded stored.metadata)

/-- The metadata carries the marks of a row itself; only the mark of a memory that is forgotten
may lack, where the newest action restores nothing. -/
def CarriesMarks (row : Content) (doc : Document) : Prop :=
  latestAction doc.metadata = .str "restore" ∨
    (Forgotten row.metadata → Forgotten doc.metadata ∨
      doc.metadata.get "soft_forgotten" = none ∧ newestAction row.metadata doc.metadata ≠ .str "restore") ∧
    (Superseded row.metadata → Superseded doc.metadata)

theorem superseded_stored {metadata : Metadata} {docId : String}
    (hnormal : normalizeMemoryMetadata tools now m = .ok metadata)
    (h : replacingMetadata tools now row docId metadata = .ok n) : Superseded n ↔ Superseded m := by
  obtain ⟨stamps, -, hnormalized⟩ := normalize_spec hnormal
  have hget := get_lifecycle "superseded_by" (by decide) hnormal h
  rw [hnormalized.supersededBy] at hget
  have hvalue : n.value "superseded_by" = m.value "superseded_by" := by
    refine value_eq ?_
    rw [hget]
    split
    · rfl
    · rfl
  unfold Superseded
  rw [hvalue]

theorem forgotten_stored {metadata : Metadata} {docId : String} (hrow : Forgotten row.metadata)
    (hnormal : normalizeMemoryMetadata tools now m = .ok metadata)
    (h : replacingMetadata tools now row docId metadata = .ok n) :
    Forgotten n ↔ Forgotten m ∨ m.get "soft_forgotten" = none ∧ newestAction row.metadata m ≠ .str "restore" := by
  obtain ⟨stamps, -, hnormalized⟩ := normalize_spec hnormal
  have hget := get_lifecycle "soft_forgotten" (by decide) hnormal h
  rw [hnormalized.others "soft_forgotten" (by decide)] at hget
  have hnull : (Json.null).truthy = false := rfl
  unfold Forgotten at hrow ⊢
  cases hm : m.get "soft_forgotten" with
  | some v =>
    have hn : n.value "soft_forgotten" = m.value "soft_forgotten" := by
      rw [value_eq hm]
      refine value_eq ?_
      rw [hget, hm]
      split
      · rfl
      · rfl
    rw [hn]
    refine ⟨Or.inl, fun h => h.elim id fun h => ?_⟩
    cases h.1
  | none =>
    have hm' : (m.value "soft_forgotten").truthy = false := by
      unfold Metadata.value
      rw [hm]
      exact hnull
    rw [hm, Option.none_or] at hget
    rw [hm']
    by_cases haction : newestAction row.metadata m = .str "restore"
    · rw [if_pos haction] at hget
      have hn : (n.value "soft_forgotten").truthy = false := by
        unfold Metadata.value
        rw [hget]
        exact hnull
      rw [hn]
      exact ⟨fun h => absurd h Bool.false_ne_true, fun h => h.elim (fun h => h) fun h => absurd haction h.2⟩
    · rw [if_neg haction] at hget
      have hn : n.value "soft_forgotten" = row.metadata.value "soft_forgotten" := by
        unfold Metadata.value
        rw [hget]
      rw [hn]
      exact ⟨fun _ => Or.inr ⟨rfl, haction⟩, fun _ => hrow⟩

/-- A write over a row leaves the marks of the row, exactly where the metadata carries them or
ends with a restore. -/
theorem marks_kept {s s' : SqliteStore} {faults : Faults} {written : Metadata} (hrow : s.rows.get doc.id = some row)
    (h : s.persist tools now faults doc = .ok (s', written)) :
    (∃ stored, s'.rows.get doc.id = some stored ∧ KeepsMarks row doc stored) ↔ CarriesMarks row doc := by
  obtain ⟨hpersisted, -, rfl⟩ := SqliteStore.persist_ok h
  rw [hrow] at hpersisted
  obtain ⟨metadata, hnormal, hreplacing⟩ := persisted_ok hpersisted
  have hstored : (s.rows.set doc.id ⟨doc.text, written⟩).get doc.id = some ⟨doc.text, written⟩ := Dict.get_set_self
  have hmarks : KeepsMarks row doc ⟨doc.text, written⟩ ↔ CarriesMarks row doc := by
    refine or_congr Iff.rfl (and_congr ?_ ?_)
    · exact forall_congr' fun hforgotten => forgotten_stored hforgotten hnormal hreplacing
    · exact imp_congr Iff.rfl (superseded_stored hnormal hreplacing)
  rw [← hmarks]
  constructor
  · rintro ⟨stored, hget, hkeeps⟩
    have heq : some (⟨doc.text, written⟩ : Content) = some stored := hstored.symm.trans hget
    rw [Option.some.inj heq]
    exact hkeeps
  · intro hkeeps
    exact ⟨_, hstored, hkeeps⟩

def storeOf (m : Metadata) : SqliteStore := { rows := Dict.empty.set "m1" ⟨"The user likes tea.", m⟩ }

/-- The note as it was before it was forgotten or superseded. -/
def oldCopy : Document := { id := "m1", text := "The user likes tea.", metadata := Dict.empty }

/-- What is stored after a write, if the write succeeds. -/
def storedAfter (s : SqliteStore) (doc : Document) : Option Content :=
  match s.persist newYear false {} doc with
  | .ok (s', _) => s'.rows.get doc.id
  | .error _ => none

/-- A note that is forgotten stays so when an old copy of it is written. -/
theorem marks_kept_forgotten : ∃ s' written stored,
    (storeOf (Dict.empty.set "soft_forgotten" (.bool true))).persist newYear false {} oldCopy = .ok (s', written) ∧
      s'.rows.get "m1" = some stored ∧ Forgotten stored.metadata := by
  have hok : ((storeOf (Dict.empty.set "soft_forgotten" (.bool true))).persist newYear false {} oldCopy).isOk = true := by
    decide +kernel
  cases hpersist : (storeOf (Dict.empty.set "soft_forgotten" (.bool true))).persist newYear false {} oldCopy with
  | error e =>
    rw [hpersist] at hok
    cases hok
  | ok result =>
    obtain ⟨s', written⟩ := result
    have hcarries : CarriesMarks ⟨"The user likes tea.", Dict.empty.set "soft_forgotten" (.bool true)⟩ oldCopy := by
      refine Or.inr ⟨fun _ => Or.inr ⟨by decide, by decide +kernel⟩, fun h => ?_⟩
      exact absurd h (by unfold Superseded; decide)
    have hrow : (storeOf (Dict.empty.set "soft_forgotten" (.bool true))).rows.get oldCopy.id =
        some ⟨"The user likes tea.", Dict.empty.set "soft_forgotten" (.bool true)⟩ := rfl
    obtain ⟨stored, hstored, hrestore | hkeeps⟩ := (marks_kept hrow hpersist).mpr hcarries
    · exact absurd hrestore (by decide +kernel)
    · exact ⟨s', written, stored, rfl, hstored, hkeeps.1 (by unfold Forgotten; decide)⟩

/-- An old copy of a note that was superseded takes the mark away. -/
theorem superseded_mark_lost :
    ¬ ∀ (s s' : SqliteStore) (row : Content) (doc : Document) (written : Metadata), s.rows.get doc.id = some row →
      s.persist newYear false {} doc = .ok (s', written) →
      ∃ stored, s'.rows.get doc.id = some stored ∧ KeepsMarks row doc stored := by
  intro hclaim
  let s := storeOf (Dict.empty.set "superseded_by" (.str "m2"))
  have hlost : (storedAfter s oldCopy).map (fun c => (c.metadata.value "superseded_by").truthy) = some false := by
    decide +kernel
  unfold storedAfter at hlost
  cases hpersist : s.persist newYear false {} oldCopy with
  | error e =>
    rw [hpersist] at hlost
    cases hlost
  | ok result =>
    obtain ⟨s', written⟩ := result
    rw [hpersist] at hlost
    obtain ⟨stored, hstored, hrestore | hkeeps⟩ := hclaim s s' _ oldCopy written rfl hpersist
    · exact absurd hrestore (by decide +kernel)
    · have hmark : (stored.metadata.value "superseded_by").truthy = true := hkeeps.2 (by unfold Superseded; decide)
      have hget : s'.rows.get oldCopy.id = some stored := hstored
      simp only [hget, Option.map_some] at hlost
      rw [hmark] at hlost
      cases hlost

end Memory
