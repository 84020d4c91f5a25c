import Yuizaki.Lib.Fallible
import Yuizaki.Memory.Metadata

/- What normalization does to metadata, and what it leaves alone.

   `normalize_memory_metadata` writes twelve keys and no other. Metadata that it would not
   change is `Normal`; what it returns is normal when the standard library keeps its own
   spellings (`MetadataTools.Lawful`) and the review status is no blank text. A blank status
   is the one field that takes two rounds: it becomes the empty text, and the empty text
   becomes `unreviewed`. -/
namespace Memory

variable {τ : Type} {tools : MetadataTools τ} {now : τ} {m n : Metadata} {k key : String}

/-! ## Reading the fields -/

theorem get_putTimestamp (v : Option String) :
    (putTimestamp m key v).get k = if k = key then v.map .str else m.get k := by
  cases v with
  | none => exact Dict.get_erase
  | some s => exact Dict.get_set

theorem get_setDefault (v : Json) :
    (m.setDefault key v).get k = if k = key then some ((m.get key).getD v) else m.get k := by
  unfold Metadata.setDefault
  split
  · rename_i hsome
    obtain ⟨w, hw⟩ := Option.isSome_iff_exists.mp hsome
    by_cases hk : k = key
    · rw [if_pos hk, hk, hw]
      rfl
    · rw [if_neg hk]
  · rename_i hnone
    rw [Dict.get_set, Option.not_isSome_iff_eq_none.mp hnone]
    rfl

theorem value_eq {v : Json} (h : m.get key = some v) : m.value key = v := by
  rw [Metadata.value, h]
  rfl

def normalizedKeys : List String :=
  ["schema_version", "revision", "created_at", "updated_at", "occurred_at", "ingested_at",
    "review_status", "valid_from", "valid_to", "source_ids", "supersedes", "superseded_by"]

theorem normalize_ok : normalizeMemoryMetadata tools now m = .ok n ↔
    ∃ stamps, normalizedTimestamps tools now m = .ok stamps ∧
      n = normalizedFields tools m stamps := by
  unfold normalizeMemoryMetadata
  rw [Fallible.bind_ok]
  refine exists_congr (fun stamps => and_congr_right (fun _ => ?_))
  rw [Fallible.pure_ok]
  exact eq_comm

theorem get_normalizedFields_of_not_mem {stamps : Timestamps} (h : k ∉ normalizedKeys) :
    (normalizedFields tools m stamps).get k = m.get k := by
  simp only [normalizedKeys, List.mem_cons, List.not_mem_nil, or_false, not_or] at h
  obtain ⟨h1, h2, h3, h4, h5, h6, h7, h8, h9, h10, h11, h12⟩ := h
  simp only [normalizedFields, get_setDefault, get_putTimestamp, Dict.get_set, h1, h2, h3, h4, h5,
    h6, h7, h8, h9, h10, h11, h12, if_false]

/-- What normalization leaves under its keys. -/
structure Normalized (tools : MetadataTools τ) (m n : Metadata) (stamps : Timestamps) : Prop where
  schema : n.get "schema_version" = some (.int 1)
  revision : n.get "revision" = some (.int (normalizedRevision tools m))
  createdAt : n.get "created_at" = some (.str stamps.createdAt)
  updatedAt : n.get "updated_at" = some (.str stamps.updatedAt)
  occurredAt : n.get "occurred_at" = some (.str stamps.occurredAt)
  ingestedAt : n.get "ingested_at" = some (.str stamps.ingestedAt)
  review : n.get "review_status" = some (.str (normalizedReviewStatus tools m))
  validFrom : n.get "valid_from" = stamps.validFrom.map .str
  validTo : n.get "valid_to" = stamps.validTo.map .str
  sources : n.get "source_ids" = some (.arr ((normalizedSources tools m).map .str))
  supersedes : n.get "supersedes" = some (m.value "supersedes")
  supersededBy : n.get "superseded_by" = some (m.value "superseded_by")
  others : ∀ k, k ∉ normalizedKeys → n.get k = m.get k

theorem normalized_fields (stamps : Timestamps) :
    Normalized tools m (normalizedFields tools m stamps) stamps := by
  constructor
  case others => exact fun k hk => get_normalizedFields_of_not_mem hk
  all_goals
    simp [normalizedFields, get_setDefault, get_putTimestamp, Dict.get_set, Metadata.value]

theorem normalize_spec (h : normalizeMemoryMetadata tools now m = .ok n) :
    ∃ stamps, normalizedTimestamps tools now m = .ok stamps ∧ Normalized tools m n stamps := by
  obtain ⟨stamps, hstamps, rfl⟩ := normalize_ok.mp h
  exact ⟨stamps, hstamps, normalized_fields stamps⟩

theorem normalizedRevision_pos : 1 ≤ normalizedRevision tools m := by
  unfold normalizedRevision
  split
  · omega
  · omega

/-! ## Metadata that normalization leaves as it is -/

/-- The laws of the standard library that keep its own spellings: the text of an instant is
    read back as that instant, and lower case text is left alone by `strip` and `lower`. -/
structure MetadataTools.Lawful (tools : MetadataTools τ) : Prop where
  parse_isoformat : ∀ t, tools.parseDate (tools.isoformat t) = .date t
  strip_isoformat : ∀ t, PyStr.strip (tools.isoformat t) = tools.isoformat t
  isoformat_ne : ∀ t, tools.isoformat t ≠ ""
  lower_lower : ∀ s, PyStr.lower tools.wide (PyStr.lower tools.wide s) = PyStr.lower tools.wide s
  strip_lower : ∀ s, PyStr.strip (PyStr.lower tools.wide (PyStr.strip s)) =
    PyStr.lower tools.wide (PyStr.strip s)
  lower_ne : ∀ s, s ≠ "" → PyStr.lower tools.wide s ≠ ""

def newYear : MetadataTools Bool where
  repr _ := ""
  int _ := none
  wide := id
  parseDate s :=
    if s = "2025-12-31T00:00:00Z" then .date false
    else if s = "2026-01-01T00:00:00Z" then .date true
    else .invalid
  isoformat day := if day then "2026-01-01T00:00:00Z" else "2025-12-31T00:00:00Z"

theorem newYear_lawful : newYear.Lawful where
  parse_isoformat t := by cases t <;> rfl
  strip_isoformat t := by cases t <;> decide +kernel
  isoformat_ne t := by cases t <;> decide
  lower_lower := PyStr.lower_lower
  strip_lower := PyStr.strip_lower
  lower_ne _ h := PyStr.lower_ne h

/-- A timestamp in the spelling of the module. -/
def Canonical (tools : MetadataTools τ) (s : String) : Prop :=
  canonicalTimestamp tools (.str s) = .ok (some s)

def Stamped (tools : MetadataTools τ) (m : Metadata) (key : String) : Prop :=
  ∃ s, m.get key = some (.str s) ∧ Canonical tools s

/-- A review status that is no blank text. -/
def ReviewNamed (tools : MetadataTools τ) (m : Metadata) : Prop :=
  (m.value "review_status").truthy = true → PyStr.strip (tools.str (m.value "review_status")) ≠ ""

/-- Metadata with every field in one spelling. -/
structure Normal (tools : MetadataTools τ) (m : Metadata) : Prop where
  schema : m.get "schema_version" = some (.int 1)
  revision : ∃ r : ℤ, 1 ≤ r ∧ m.get "revision" = some (.int r)
  timestamp : ∃ t, canonicalTimestamp tools (m.value "timestamp") = .ok t
  createdAt : Stamped tools m "created_at"
  updatedAt : Stamped tools m "updated_at"
  occurredAt : Stamped tools m "occurred_at"
  ingestedAt : Stamped tools m "ingested_at"
  validFrom : m.get "valid_from" = none ∨ Stamped tools m "valid_from"
  validTo : m.get "valid_to" = none ∨ Stamped tools m "valid_to"
  review : ∃ s, m.get "review_status" = some (.str s) ∧ s ≠ "" ∧
    PyStr.lower tools.wide (PyStr.strip s) = s
  sources : m.get "source_ids" = some (.arr ((normalizedSources tools m).map .str))
  supersedes : m.get "supersedes" = some (m.value "supersedes")
  supersededBy : m.get "superseded_by" = some (m.value "superseded_by")

theorem Stamped.read (h : Stamped tools m key) :
    ∃ s, m.get key = some (.str s) ∧ canonicalTimestamp tools (m.value key) = .ok (some s) := by
  obtain ⟨s, hget, hcanonical⟩ := h
  refine ⟨s, hget, ?_⟩
  rw [value_eq hget]
  exact hcanonical

theorem putTimestamp_self {v : Option String} (h : m.get key = v.map .str) :
    putTimestamp m key v = m := by
  cases v with
  | none => exact Dict.erase_self h
  | some s => exact Dict.set_self h

theorem setDefault_self {v : Json} (h : (m.get key).isSome) : m.setDefault key v = m := if_pos h

theorem stamped_or_none (h : m.get key = none ∨ Stamped tools m key) :
    ∃ v : Option String, canonicalTimestamp tools (m.value key) = .ok v ∧
      m.get key = v.map .str := by
  rcases h with hnone | hstamped
  · refine ⟨none, ?_, hnone⟩
    rw [Metadata.value, hnone]
    rfl
  · obtain ⟨s, hget, hread⟩ := hstamped.read
    exact ⟨some s, hread, hget⟩

theorem Normal.timestamps (h : Normal tools m) : ∃ stamps,
    normalizedTimestamps tools now m = .ok stamps ∧
      m.get "created_at" = some (.str stamps.createdAt) ∧
      m.get "updated_at" = some (.str stamps.updatedAt) ∧
      m.get "occurred_at" = some (.str stamps.occurredAt) ∧
      m.get "ingested_at" = some (.str stamps.ingestedAt) ∧
      m.get "valid_from" = stamps.validFrom.map .str ∧
      m.get "valid_to" = stamps.validTo.map .str := by
  obtain ⟨t, htimestamp⟩ := h.timestamp
  obtain ⟨created, hcreated, hcreatedRead⟩ := h.createdAt.read
  obtain ⟨updated, hupdated, hupdatedRead⟩ := h.updatedAt.read
  obtain ⟨occurred, hoccurred, hoccurredRead⟩ := h.occurredAt.read
  obtain ⟨ingested, hingested, hingestedRead⟩ := h.ingestedAt.read
  obtain ⟨validFrom, hfromRead, hfrom⟩ := stamped_or_none h.validFrom
  obtain ⟨validTo, htoRead, hto⟩ := stamped_or_none h.validTo
  refine ⟨⟨created, updated, occurred, ingested, validFrom, validTo⟩, ?_, hcreated, hupdated,
    hoccurred, hingested, hfrom, hto⟩
  simp only [normalizedTimestamps, htimestamp, hcreatedRead, hupdatedRead, hoccurredRead,
    hingestedRead, hfromRead, htoRead, bind, Except.bind]
  rfl

theorem Normal.reviewStatus (h : Normal tools m) :
    m.get "review_status" = some (.str (normalizedReviewStatus tools m)) := by
  obtain ⟨s, hget, hne, hfixed⟩ := h.review
  have hvalue := value_eq hget
  have htruthy : (Json.str s).truthy = true := by
    rw [Json.truthy]
    exact decide_eq_true hne
  rw [hget, normalizedReviewStatus, hvalue, Json.or, if_pos htruthy, MetadataTools.str, hfixed]

theorem Normal.normalizedRevision (h : Normal tools m) :
    m.get "revision" = some (.int (Memory.normalizedRevision tools m)) := by
  obtain ⟨r, hle, hget⟩ := h.revision
  have hread : Memory.normalizedRevision tools m = r := by
    rw [Memory.normalizedRevision, hget]
    show max 1 r = r
    omega
  rw [hread, hget]

theorem Normal.normalize (h : Normal tools m) : normalizeMemoryMetadata tools now m = .ok m := by
  obtain ⟨stamps, hstamps, hcreated, hupdated, hoccurred, hingested, hfrom, hto⟩ :=
    @Normal.timestamps _ tools now _ h
  refine normalize_ok.mpr ⟨stamps, hstamps, ?_⟩
  have hsupersedes : (m.get "supersedes").isSome := by rw [h.supersedes]; rfl
  have hsuperseded : (m.get "superseded_by").isSome := by rw [h.supersededBy]; rfl
  unfold normalizedFields
  rw [Dict.set_self h.schema, Dict.set_self h.normalizedRevision, Dict.set_self hcreated,
    Dict.set_self hupdated, Dict.set_self hoccurred, Dict.set_self hingested,
    Dict.set_self h.reviewStatus]
  dsimp only
  rw [putTimestamp_self hfrom, putTimestamp_self hto, Dict.set_self h.sources,
    setDefault_self hsupersedes, setDefault_self hsuperseded]

/-! ## What normalization returns is normal -/

theorem canonical_isoformat (lawful : tools.Lawful) (t : τ) : Canonical tools (tools.isoformat t) := by
  unfold Canonical canonicalTimestamp
  dsimp only
  rw [lawful.strip_isoformat, if_neg (lawful.isoformat_ne t), lawful.parse_isoformat]

theorem canonical_read (lawful : tools.Lawful) {v : Json} {s : String}
    (h : canonicalTimestamp tools v = .ok (some s)) : Canonical tools s := by
  unfold canonicalTimestamp at h
  split at h
  · rename_i raw
    dsimp only at h
    split at h
    · cases h
    · rename_i hblank
      split at h
      · rename_i t _
        cases h
        exact canonical_isoformat lawful t
      · -- a text that is no date is kept stripped
        rename_i hparse
        cases h
        unfold Canonical canonicalTimestamp
        dsimp only
        rw [PyStr.strip_strip, if_neg hblank, hparse]
      · cases h
  · cases h

theorem canonical_getD {v : Option String} {d : String} (hv : ∀ s, v = some s → Canonical tools s)
    (hd : Canonical tools d) : Canonical tools (v.getD d) := by
  cases v with
  | none => exact hd
  | some s => exact hv s rfl

theorem canonical_or {v w : Option String} (hv : ∀ s, v = some s → Canonical tools s)
    (hw : ∀ s, w = some s → Canonical tools s) : ∀ s, v.or w = some s → Canonical tools s := by
  cases v with
  | none => exact hw
  | some a => exact hv

/-- The timestamps of normalized metadata are canonical. -/
structure Timestamps.Canonical (tools : MetadataTools τ) (stamps : Timestamps) : Prop where
  createdAt : Memory.Canonical tools stamps.createdAt
  updatedAt : Memory.Canonical tools stamps.updatedAt
  occurredAt : Memory.Canonical tools stamps.occurredAt
  ingestedAt : Memory.Canonical tools stamps.ingestedAt
  validFrom : ∀ s, stamps.validFrom = some s → Memory.Canonical tools s
  validTo : ∀ s, stamps.validTo = some s → Memory.Canonical tools s

theorem canonical_timestamps (lawful : tools.Lawful) {stamps : Timestamps}
    (h : normalizedTimestamps tools now m = .ok stamps) :
    (∃ t, canonicalTimestamp tools (m.value "timestamp") = .ok t) ∧ stamps.Canonical tools := by
  simp only [normalizedTimestamps, Fallible.bind_ok, Fallible.pure_ok] at h
  obtain ⟨legacy, hlegacy, created, hcreated, updated, hupdated, occurred, hoccurred, ingested,
    hingested, validFrom, hfrom, validTo, hto, rfl⟩ := h
  have hread {v : Json} {w : Option String} (h : canonicalTimestamp tools v = .ok w) :
      ∀ s, w = some s → Canonical tools s := fun s hs => canonical_read lawful (hs ▸ h)
  have hcreatedAt := canonical_getD (canonical_or (hread hcreated) (hread hlegacy))
    (canonical_isoformat lawful now)
  refine ⟨⟨legacy, hlegacy⟩, ⟨hcreatedAt, ?_, ?_, ?_, hread hfrom, hread hto⟩⟩
  · exact canonical_getD (hread hupdated) hcreatedAt
  · exact canonical_getD (canonical_or (hread hoccurred) (hread hlegacy)) hcreatedAt
  · exact canonical_getD (hread hingested) hcreatedAt

theorem stamped_bound {v : Option String} (h : m.get key = v.map .str)
    (hv : ∀ s, v = some s → Canonical tools s) : m.get key = none ∨ Stamped tools m key := by
  cases v with
  | none => exact Or.inl h
  | some s => exact Or.inr ⟨s, h, hv s rfl⟩

theorem listedSources_map {sources : List String} (h : ∀ s ∈ sources, PyStr.strip s ≠ "")
    (hget : m.get "source_ids" = some (.arr (sources.map .str))) :
    listedSources tools m = sources := by
  rw [listedSources, value_eq hget]
  dsimp only
  rw [List.map_map]
  have hstr : tools.str ∘ Json.str = id := rfl
  rw [hstr, List.map_id, List.filter_eq_self]
  exact fun s hs => decide_eq_true (h s hs)

theorem listedSources_ne : ∀ s ∈ listedSources tools m, PyStr.strip s ≠ "" :=
  fun _ hs => of_decide_eq_true (List.mem_filter.mp hs).2

theorem normalizedSources_ne : ∀ s ∈ normalizedSources tools m, PyStr.strip s ≠ "" := by
  unfold normalizedSources
  dsimp only
  split
  · exact listedSources_ne
  · split
    · rename_i hnew
      intro s hs
      rcases List.mem_append.mp hs with hs | hs
      · exact listedSources_ne s hs
      · rw [List.mem_singleton.mp hs]
        exact hnew.1
    · exact listedSources_ne

/-- The source that normalization would add to a list of sources: one that is there, is no
    blank and is not in the list. -/
def NewSource (tools : MetadataTools τ) (v : Json) (sources : List String) : Prop :=
  v ≠ .null ∧ PyStr.strip (tools.str v) ≠ "" ∧ tools.str v ∉ sources

theorem normalizedSources_of_not_new
    (h : ¬ NewSource tools (m.value "source_id") (listedSources tools m)) :
    normalizedSources tools m = listedSources tools m := by
  unfold normalizedSources
  dsimp only
  split
  · rfl
  · rename_i hnull
    refine if_neg (fun hnew => h ⟨?_, hnew⟩)
    exact fun heq => hnull heq

theorem not_new_normalizedSources :
    ¬ NewSource tools (m.value "source_id") (normalizedSources tools m) := by
  intro h
  obtain ⟨hnull, hblank, hnew⟩ := h
  unfold normalizedSources at hnew
  dsimp only at hnew
  split at hnew
  · rename_i heq
    exact hnull heq
  · split at hnew
    · exact hnew (List.mem_append_right _ (List.mem_singleton_self _))
    · rename_i hold
      exact hold ⟨hblank, hnew⟩

theorem sources_self {sources : List String} (hne : ∀ s ∈ sources, PyStr.strip s ≠ "")
    (hget : m.get "source_ids" = some (.arr (sources.map .str)))
    (hold : ¬ NewSource tools (m.value "source_id") sources) :
    m.get "source_ids" = some (.arr ((normalizedSources tools m).map .str)) := by
  have hlisted := @listedSources_map _ tools _ _ hne hget
  rw [normalizedSources_of_not_new (by rw [hlisted]; exact hold), hlisted]
  exact hget

theorem reviewStatus_fixed (lawful : tools.Lawful) (h : ReviewNamed tools m) :
    normalizedReviewStatus tools m ≠ "" ∧
      PyStr.lower tools.wide (PyStr.strip (normalizedReviewStatus tools m)) =
        normalizedReviewStatus tools m := by
  have hne : PyStr.strip (tools.str ((m.value "review_status").or (.str "unreviewed"))) ≠ "" := by
    rw [Json.or]
    split
    · rename_i htruthy
      exact h htruthy
    · show PyStr.strip "unreviewed" ≠ ""
      decide
  refine ⟨lawful.lower_ne _ hne, ?_⟩
  unfold normalizedReviewStatus
  rw [lawful.strip_lower, lawful.lower_lower]

theorem normal_normalize (lawful : tools.Lawful) (h : normalizeMemoryMetadata tools now m = .ok n)
    (hreview : ReviewNamed tools m) : Normal tools n := by
  obtain ⟨stamps, hstamps, hn⟩ := normalize_spec h
  obtain ⟨htimestamp, hcanonical⟩ := canonical_timestamps lawful hstamps
  have hkeep : ∀ k, k ∉ normalizedKeys → n.value k = m.value k := fun k hk => by
    rw [Metadata.value, Metadata.value, hn.others k hk]
  exact {
    schema := hn.schema
    revision := ⟨_, normalizedRevision_pos, hn.revision⟩
    timestamp := by
      rw [hkeep "timestamp" (by decide)]
      exact htimestamp
    createdAt := ⟨_, hn.createdAt, hcanonical.createdAt⟩
    updatedAt := ⟨_, hn.updatedAt, hcanonical.updatedAt⟩
    occurredAt := ⟨_, hn.occurredAt, hcanonical.occurredAt⟩
    ingestedAt := ⟨_, hn.ingestedAt, hcanonical.ingestedAt⟩
    validFrom := stamped_bound hn.validFrom hcanonical.validFrom
    validTo := stamped_bound hn.validTo hcanonical.validTo
    review := ⟨_, hn.review, reviewStatus_fixed lawful hreview⟩
    sources := by
      refine sources_self normalizedSources_ne hn.sources ?_
      rw [hkeep "source_id" (by decide)]
      exact not_new_normalizedSources
    supersedes := by rw [Metadata.value, hn.supersedes]; rfl
    supersededBy := by rw [Metadata.value, hn.supersededBy]; rfl }

end Memory
