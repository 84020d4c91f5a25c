import Yuizaki.Memory.Normal
import Yuizaki.Memory.Sqlite

/- What one write of a document makes of its metadata.

   `_persist` normalizes the metadata, lays the histories of the stored row under it, keeps
   the lifecycle fields it lacks and, unless the caller has done so, appends the stored
   version to the history. Each part has a lemma about `get`, and `replacing_ok` puts them
   together. -/
namespace Memory

variable {τ : Type} {tools : MetadataTools τ} {now : τ} {m n old new : Metadata} {k key : String}

theorem get_putCount (c : ℤ) : (putCount m key c).get k =
    if k = key then (if c ≠ 0 then some (.int c) else none) else m.get k := by
  unfold putCount
  split
  · exact Dict.get_set
  · exact Dict.get_erase

theorem get_keepField : (keepField old new key).get k =
    if k = key then (old.get k).or (new.get k) else new.get k := by
  unfold keepField
  cases hold : old.get key with
  | some v =>
    show (new.set key v).get k = _
    rw [Dict.get_set]
    by_cases hk : k = key
    · rw [if_pos hk, if_pos hk, hk, hold]
      rfl
    · rw [if_neg hk, if_neg hk]
  | none =>
    show new.get k = _
    by_cases hk : k = key
    · rw [if_pos hk, hk, hold]
      rfl
    · rw [if_neg hk]

theorem get_keepFields (fields : List String) : (keepFields fields old new).get k =
    if k ∈ fields then (old.get k).or (new.get k) else new.get k := by
  unfold keepFields
  induction fields generalizing new with
  | nil => rw [if_neg List.not_mem_nil]; rfl
  | cons f rest ih =>
    rw [List.foldl_cons, ih, get_keepField]
    by_cases hk : k = f
    · rw [if_pos hk, if_pos (List.mem_cons.mpr (Or.inl hk))]
      split
      · cases old.get k <;> rfl
      · rfl
    · rw [if_neg hk]
      have hmem : k ∈ f :: rest ↔ k ∈ rest := List.mem_cons.trans (or_iff_right hk)
      exact if_congr hmem.symm rfl rfl

theorem get_keepMissing : (keepMissing old m key).get k =
    if k = key then (m.get k).or (old.get k) else m.get k := by
  unfold keepMissing
  cases hold : old.get key with
  | some v =>
    show (m.setDefault key v).get k = _
    rw [get_setDefault]
    by_cases hk : k = key
    · rw [if_pos hk, if_pos hk, hk, hold]
      cases m.get key <;> rfl
    · rw [if_neg hk, if_neg hk]
  | none =>
    show m.get k = _
    by_cases hk : k = key
    · rw [if_pos hk, hk, hold]
      cases m.get key <;> rfl
    · rw [if_neg hk]

theorem get_keepLifecycle : (keepLifecycle old m).get k =
    if k ∈ lifecycleFields then (m.get k).or (old.get k) else m.get k := by
  unfold keepLifecycle
  induction lifecycleFields generalizing m with
  | nil => rw [if_neg List.not_mem_nil]; rfl
  | cons f rest ih =>
    rw [List.foldl_cons, ih, get_keepMissing]
    by_cases hk : k = f
    · rw [if_pos hk, if_pos (List.mem_cons.mpr (Or.inl hk))]
      split
      · cases m.get k <;> cases old.get k <;> rfl
      · rfl
    · rw [if_neg hk]
      have hmem : k ∈ f :: rest ↔ k ∈ rest := List.mem_cons.trans (or_iff_right hk)
      exact if_congr hmem.symm rfl rfl

/-! ## Histories -/

/-- The keys that the merge of the histories writes. -/
def historyKeys : List String :=
  ["audit", "confidence_history", "correction_history", "audit_truncated"]

theorem get_mergeHistory {current incoming merged : Metadata} {limit : ℕ}
    (h : mergeHistory tools current incoming merged key limit = .ok n) (hk : k ≠ key)
    (hcount : k ≠ "audit_truncated") : n.get k = merged.get k := by
  unfold mergeHistory at h
  dsimp only at h
  split at h
  · obtain ⟨before, -, h⟩ := Fallible.bind_ok.mp h
    obtain ⟨after, -, h⟩ := Fallible.bind_ok.mp h
    rw [← Fallible.pure_ok.mp h, get_putCount, if_neg hcount, Dict.get_set_of_ne hk]
  · rw [← Fallible.pure_ok.mp h, Dict.get_set_of_ne hk]

theorem get_mergeAppendOnly {current incoming : Metadata}
    (h : mergeAppendOnlyMetadata tools current incoming = .ok n) (hk : k ∉ historyKeys) :
    n.get k = incoming.get k := by
  simp only [historyKeys, List.mem_cons, List.not_mem_nil, or_false, not_or] at hk
  obtain ⟨haudit, hconfidence, hcorrection, hcount⟩ := hk
  simp only [mergeAppendOnlyMetadata, appendOnlyHistoryLimits, List.foldlM_cons,
    List.foldlM_nil] at h
  obtain ⟨first, hfirst, h⟩ := Fallible.bind_ok.mp h
  obtain ⟨second, hsecond, h⟩ := Fallible.bind_ok.mp h
  obtain ⟨third, hthird, h⟩ := Fallible.bind_ok.mp h
  rw [← Fallible.pure_ok.mp h, get_mergeHistory hthird hcorrection hcount,
    get_mergeHistory hsecond hconfidence hcount, get_mergeHistory hfirst haudit hcount]

/-! ## Versions -/

/-- What appending a version leaves: the fields of the new metadata, but for those that the
    old one decides. -/
structure Appended (tools : MetadataTools τ) (now : τ) (docId oldText : String)
    (old new n : Metadata) : Prop where
  createdAt : n.get "created_at" = some (old.value "created_at")
  revision : n.get "revision" = some (.int (normalizedRevision tools old + 1))
  updatedAt : n.get "updated_at" = some (.str (tools.isoformat now))
  history : n.get "version_history" = some (.arr (lastItems memoryVersionHistoryLimit
    (listItems (old.value "version_history") ++ [versionSnapshot docId oldText old])))
  truncated : ∃ c, countOf tools old "version_history_truncated" = .ok c ∧
    n.value "version_history_truncated" =
      (let total := c + (((listItems (old.value "version_history")).length + 1 -
        memoryVersionHistoryLimit : ℕ) : ℤ)
      if total ≠ 0 then .int total else .null)
  provenance : ∀ k ∈ provenanceFields, n.get k = (old.get k).or (new.get k)
  others : ∀ k, k ∉ provenanceFields → k ∉ ["created_at", "revision", "updated_at",
    "version_history", "version_history_truncated"] → n.get k = new.get k

theorem normalizedRevision_normalize (h : normalizeMemoryMetadata tools now m = .ok n) :
    normalizedRevision tools n = normalizedRevision tools m := by
  obtain ⟨stamps, -, hn⟩ := normalize_spec h
  have hpos : 1 ≤ normalizedRevision tools m := normalizedRevision_pos
  have hread : normalizedRevision tools n = max 1 (normalizedRevision tools m) := by
    rw [normalizedRevision, hn.revision]
    rfl
  rw [hread]
  omega

theorem append_ok {docId oldText : String} {oldMetadata newMetadata : Metadata}
    (h : appendMemoryVersion tools now docId oldText oldMetadata newMetadata = .ok n) :
    ∃ old new, normalizeMemoryMetadata tools now oldMetadata = .ok old ∧
      normalizeMemoryMetadata tools now newMetadata = .ok new ∧
      Appended tools now docId oldText old new n := by
  unfold appendMemoryVersion at h
  obtain ⟨old, hold, h⟩ := Fallible.bind_ok.mp h
  obtain ⟨new, hnew, h⟩ := Fallible.bind_ok.mp h
  obtain ⟨count, hcount, h⟩ := Fallible.bind_ok.mp h
  have hn := Fallible.pure_ok.mp h
  refine ⟨old, new, hold, hnew, ?_⟩
  rw [← normalizedRevision_normalize hold] at hn
  subst hn
  have hget (k : String) := @get_putCount (keepFields provenanceFields old new
    |>.set "created_at" (old.value "created_at")
    |>.set "revision" (.int (normalizedRevision tools old + 1))
    |>.set "updated_at" (.str (tools.isoformat now))
    |>.set "version_history" (.arr (lastItems memoryVersionHistoryLimit
      (listItems (old.value "version_history") ++ [versionSnapshot docId oldText old]))))
    k "version_history_truncated"
    (count + (((listItems (old.value "version_history") ++
      [versionSnapshot docId oldText old]).length - memoryVersionHistoryLimit : ℕ) : ℤ))
  constructor
  case truncated =>
    refine ⟨count, hcount, ?_⟩
    rw [Metadata.value, hget, if_pos rfl, List.length_append]
    dsimp only [List.length_singleton]
    split <;> rfl
  case provenance =>
    intro k hk
    have hne : k ≠ "version_history_truncated" ∧ k ≠ "version_history" ∧ k ≠ "updated_at" ∧
        k ≠ "revision" ∧ k ≠ "created_at" := by
      simp only [provenanceFields, List.mem_cons, List.not_mem_nil, or_false] at hk
      rcases hk with rfl | rfl | rfl | rfl | rfl <;> decide
    obtain ⟨h1, h2, h3, h4, h5⟩ := hne
    rw [hget, if_neg h1, Dict.get_set_of_ne h2, Dict.get_set_of_ne h3, Dict.get_set_of_ne h4,
      Dict.get_set_of_ne h5, get_keepFields, if_pos hk]
  case others =>
    intro k hprovenance hk
    simp only [List.mem_cons, List.not_mem_nil, or_false, not_or] at hk
    obtain ⟨h1, h2, h3, h4, h5⟩ := hk
    rw [hget, if_neg h5, Dict.get_set_of_ne h4, Dict.get_set_of_ne h3, Dict.get_set_of_ne h2,
      Dict.get_set_of_ne h1, get_keepFields, if_neg hprovenance]
  all_goals
    rw [hget]
    simp [Dict.get_set]

theorem hasPrior_congr {revision : ℤ} {text : String}
    (h : m.get "version_history" = n.get "version_history") :
    hasPriorVersionSnapshot m revision text = hasPriorVersionSnapshot n revision text := by
  unfold hasPriorVersionSnapshot
  rw [Metadata.value, Metadata.value, h]

/-- Metadata laid over a row, before the version of the row is appended: the keys that
    neither the merge nor the lifecycle touches are as they came. -/
structure Merged (row : Content) (m n : Metadata) : Prop where
  lifecycle : ∀ k ∈ lifecycleFields, n.get k = m.get k ∨
    m.get k = none ∧ n.get k = row.metadata.get k
  others : ∀ k, k ∉ historyKeys → k ∉ lifecycleFields → n.get k = m.get k

theorem merged_ok {row : Content} {histories : Metadata}
    (h : mergeAppendOnlyMetadata tools row.metadata m = .ok histories) :
    Merged row m (withLifecycle row.metadata histories) := by
  unfold withLifecycle
  refine ⟨fun k hk => ?_, fun k hhistory hlifecycle => ?_⟩
  · have hkey : k ∉ historyKeys := by
      simp only [lifecycleFields, List.mem_cons, List.not_mem_nil, or_false] at hk
      rcases hk with rfl | rfl | rfl | rfl <;> decide
    have hincoming := get_mergeAppendOnly h hkey
    split
    · exact Or.inl hincoming
    · rw [get_keepLifecycle, if_pos hk, hincoming]
      cases hget : m.get k with
      | some v => exact Or.inl rfl
      | none => exact Or.inr ⟨rfl, rfl⟩
  · have hincoming := get_mergeAppendOnly h hhistory
    split
    · exact hincoming
    · rw [get_keepLifecycle, if_neg hlifecycle, hincoming]

/-- What `_persist` writes over a row: the merged metadata where the caller has kept the
    version of the row, and the merged metadata with that version appended elsewhere. -/
theorem replacing_ok {row : Content} {docId : String}
    (h : replacingMetadata tools now row docId m = .ok n) : ∃ merged, Merged row m merged ∧
      (hasPriorVersionSnapshot m (normalizedRevision tools row.metadata) row.text = true ∧
          n = merged ∨
        hasPriorVersionSnapshot m (normalizedRevision tools row.metadata) row.text = false ∧
          appendMemoryVersion tools now docId row.text row.metadata merged = .ok n) := by
  unfold replacingMetadata at h
  obtain ⟨histories, hhistories, h⟩ := Fallible.bind_ok.mp h
  obtain ⟨old, hold, h⟩ := Fallible.bind_ok.mp h
  have hmerged := merged_ok hhistories
  refine ⟨withLifecycle row.metadata histories, hmerged, ?_⟩
  have hversions : (withLifecycle row.metadata histories).get "version_history" =
      m.get "version_history" := hmerged.others _ (by decide) (by decide)
  rw [normalizedRevision_normalize hold, hasPrior_congr hversions] at h
  cases hprior : hasPriorVersionSnapshot m (normalizedRevision tools row.metadata) row.text with
  | true =>
    rw [hprior, if_pos rfl] at h
    exact Or.inl ⟨rfl, (Fallible.pure_ok.mp h).symm⟩
  | false =>
    rw [hprior, if_neg Bool.false_ne_true] at h
    exact Or.inr ⟨rfl, h⟩

theorem persisted_ok {existing : Option Content} {doc : Document}
    (h : persistedMetadata tools now existing doc = .ok n) :
    ∃ metadata, normalizeMemoryMetadata tools now doc.metadata = .ok metadata ∧
      match existing with
      | none => n = metadata
      | some row => replacingMetadata tools now row doc.id metadata = .ok n := by
  unfold persistedMetadata at h
  obtain ⟨metadata, hmetadata, h⟩ := Fallible.bind_ok.mp h
  refine ⟨metadata, hmetadata, ?_⟩
  cases existing with
  | none => exact (Fallible.pure_ok.mp h).symm
  | some row => exact h

end Memory
