import Yuizaki.Memory.Written

/- Which documents the write helper writes again.

   The lifecycle routes set a few fields of a stored document and hand it to the helper that
   checks every write. What can stop them is all in the stored metadata: dates that do not
   pass for new input, retired fields, timestamps that cannot be read and counts that are no
   numbers. `Rewritable` says that none of them does. Then the helper writes the document
   (`write_retouched`), and it refuses every other (`write_refused`). -/
namespace Memory

open Fallible

variable {τ : Type} {tools : MetadataTools τ} {now : τ} {m n m' : Metadata} {key : String}

/-! ## What the helper checks -/

/-- The keys of the dates that a write checks. -/
def dateKeys : List String := ["expires_at", "valid_from", "valid_to"]

/-- The keys of the timestamps that normalization reads. -/
def stampKeys : List String :=
  ["timestamp", "created_at", "updated_at", "occurred_at", "ingested_at", "valid_from", "valid_to"]

/-- The keys that decide whether a document is written again. -/
def checkedKeys : List String := dateKeys ++ stampKeys ++ retiredFields ++ ["version_history", "revision"]

/-- Metadata that a route has changed where the helper does not look. -/
structure Retouched (tools : MetadataTools τ) (m m' : Metadata) : Prop where
  same : ∀ key ∈ checkedKeys, m'.get key = m.get key
  audit : Gives (countOf tools m' "audit_truncated")

/-- A stored document that the helper writes again. -/
structure Rewritable [LinearOrder τ] (env : Router τ) (existing : Content) : Prop where
  dates : Gives (env.normalizeExpiryForWrite existing.metadata)
  retired : rejectedFields existing.metadata = []
  stamps : Gives (normalizeMemoryMetadata env.tools env.now existing.metadata)
  audit : Gives (countOf env.tools existing.metadata "audit_truncated")
  versions : hasPriorVersionSnapshot existing.metadata (normalizedRevision env.tools existing.metadata)
      existing.text = true ∨ Gives (countOf env.tools existing.metadata "version_history_truncated")

/-! ## Timestamps -/

theorem value_congr (h : m'.get key = m.get key) : m'.value key = m.value key := by
  rw [Metadata.value, Metadata.value, h]

theorem stamps_give : Gives (normalizeMemoryMetadata tools now m) ↔
    ∀ key ∈ stampKeys, Gives (canonicalTimestamp tools (m.value key)) := by
  have hstamps : Gives (normalizeMemoryMetadata tools now m) ↔ Gives (normalizedTimestamps tools now m) := by
    unfold normalizeMemoryMetadata
    rw [gives_bind]
    exact ⟨fun ⟨stamps, hstamps, _⟩ => ⟨stamps, hstamps⟩, fun ⟨stamps, hstamps⟩ => ⟨stamps, hstamps, gives_pure _⟩⟩
  rw [hstamps]
  simp only [stampKeys, List.forall_mem_cons, List.not_mem_nil, false_implies, implies_true, and_true]
  unfold normalizedTimestamps
  simp only [gives_bind]
  constructor
  · intro h
    obtain ⟨a, ha, b, hb, c, hc, d, hd, e, he, f, hf, g, hg, -⟩ := h
    exact ⟨⟨a, ha⟩, ⟨b, hb⟩, ⟨c, hc⟩, ⟨d, hd⟩, ⟨e, he⟩, ⟨f, hf⟩, ⟨g, hg⟩⟩
  · intro h
    obtain ⟨⟨a, ha⟩, ⟨b, hb⟩, ⟨c, hc⟩, ⟨d, hd⟩, ⟨e, he⟩, ⟨f, hf⟩, ⟨g, hg⟩⟩ := h
    exact ⟨a, ha, b, hb, c, hc, d, hd, e, he, f, hf, g, hg, gives_pure _⟩

theorem normalized_again (lawful : tools.Lawful) (h : normalizeMemoryMetadata tools now m = .ok n) :
    Gives (normalizeMemoryMetadata tools now n) := by
  obtain ⟨stamps, hstamps, hn⟩ := normalize_spec h
  obtain ⟨⟨t, htimestamp⟩, hcanonical⟩ := canonical_timestamps lawful hstamps
  have hread {key s : String} (hget : n.get key = some (.str s)) (hs : Canonical tools s) :
      Gives (canonicalTimestamp tools (n.value key)) := by
    rw [value_eq hget]
    exact ⟨some s, hs⟩
  have hbound {key : String} {v : Option String} (hget : n.get key = v.map .str)
      (hv : ∀ s, v = some s → Canonical tools s) : Gives (canonicalTimestamp tools (n.value key)) := by
    cases v with
    | some s => exact hread hget (hv s rfl)
    | none =>
      have hnone : n.get key = none := hget
      rw [Metadata.value, hnone]
      exact ⟨none, rfl⟩
  refine stamps_give.mpr ?_
  simp only [stampKeys, List.forall_mem_cons, List.not_mem_nil, false_implies, implies_true, and_true]
  refine ⟨⟨t, ?_⟩, hread hn.createdAt hcanonical.createdAt, hread hn.updatedAt hcanonical.updatedAt,
    hread hn.occurredAt hcanonical.occurredAt, hread hn.ingestedAt hcanonical.ingestedAt,
    hbound hn.validFrom hcanonical.validFrom, hbound hn.validTo hcanonical.validTo⟩
  rw [value_congr (hn.others "timestamp" (by decide))]
  exact htimestamp

/-! ## Dates -/

theorem bound_congr {instant : Option τ} (hsame : m'.value key = m.value key)
    (h : normalizeBound tools m key = .ok (n, instant)) : ∃ n', normalizeBound tools m' key = .ok (n', instant) := by
  unfold normalizeBound at h ⊢
  rw [hsame]
  split at h
  · rename_i hunset
    rw [if_pos hunset]
    obtain ⟨-, rfl⟩ := Prod.mk.inj (Except.ok.inj h)
    exact ⟨_, rfl⟩
  · rename_i hset
    rw [if_neg hset]
    split at h
    · cases h
    · cases h
    · split at h
      · cases h
      · cases h
      · obtain ⟨-, rfl⟩ := Prod.mk.inj (Except.ok.inj h)
        exact ⟨_, rfl⟩

theorem bound_read {instant : Option τ} (h : normalizeBound tools m key = .ok (n, instant)) :
    Gives (canonicalTimestamp tools (n.value key)) := by
  unfold normalizeBound at h
  split at h
  · obtain ⟨rfl, -⟩ := Prod.mk.inj (Except.ok.inj h)
    have hnone : (m.erase key).get key = none := by rw [Dict.get_erase, if_pos rfl]
    rw [Metadata.value, hnone]
    exact ⟨none, rfl⟩
  · split at h
    · cases h
    · cases h
    · rename_i canonical _
      split at h
      · cases h
      · cases h
      · rename_i t ht
        obtain ⟨rfl, -⟩ := Prod.mk.inj (Except.ok.inj h)
        rw [value_eq Dict.get_set_self]
        unfold parseInstant at ht
        unfold canonicalTimestamp
        dsimp only at ht ⊢
        split at ht
        · cases ht
        · rename_i hne
          rw [if_neg hne]
          cases hparse : tools.parseDate (PyStr.strip canonical) with
          | date t' => exact ⟨_, rfl⟩
          | invalid =>
            rw [hparse] at ht
            cases ht
          | outOfRange =>
            rw [hparse] at ht
            cases ht

section Dates

variable [LinearOrder τ]

theorem expiry_congr (hsame : m'.value "expires_at" = m.value "expires_at")
    (h : Gives (normalizeMemoryExpiry tools now m)) : Gives (normalizeMemoryExpiry tools now m') := by
  obtain ⟨n, hn⟩ := h
  unfold normalizeMemoryExpiry at hn ⊢
  rw [hsame]
  split at hn
  · cases hn
  · exact ⟨_, rfl⟩
  · split at hn
    · cases hn
    · rename_i hlater
      rw [if_neg hlater]
      exact ⟨_, rfl⟩

theorem expiryForWrite_congr {env : Router τ} (hsame : ∀ key ∈ dateKeys, m'.get key = m.get key)
    (h : Gives (env.normalizeExpiryForWrite m)) : Gives (env.normalizeExpiryForWrite m') := by
  obtain ⟨n, hn⟩ := h
  obtain ⟨n₁, hn₁, hvalid⟩ := bind_ok.mp (badRequest_ok.mp hn)
  unfold normalizeMemoryValidity at hvalid
  obtain ⟨⟨n₂, validFrom⟩, hn₂, hvalid⟩ := bind_ok.mp hvalid
  obtain ⟨⟨n₃, validTo⟩, hn₃, hvalid⟩ := bind_ok.mp hvalid
  obtain ⟨u, horder, -⟩ := bind_ok.mp hvalid
  have hexpiry : m'.value "expires_at" = m.value "expires_at" := value_congr (hsame _ (by decide))
  obtain ⟨k₁, hk₁⟩ := expiry_congr hexpiry ⟨n₁, hn₁⟩
  have hfrom : k₁.value "valid_from" = n₁.value "valid_from" := value_congr (by
    rw [expiry_frame hk₁ (by decide), expiry_frame hn₁ (by decide)]
    exact hsame _ (by decide))
  obtain ⟨k₂, hk₂⟩ := bound_congr hfrom hn₂
  have hto : k₂.value "valid_to" = n₂.value "valid_to" := value_congr (by
    rw [bound_frame hk₂ (by decide), bound_frame hn₂ (by decide), expiry_frame hk₁ (by decide),
      expiry_frame hn₁ (by decide)]
    exact hsame _ (by decide))
  obtain ⟨k₃, hk₃⟩ := bound_congr hto hn₃
  refine ⟨k₃, badRequest_ok.mpr (bind_ok.mpr ⟨k₁, hk₁, ?_⟩)⟩
  unfold normalizeMemoryValidity
  exact bind_ok.mpr ⟨_, hk₂, bind_ok.mpr ⟨_, hk₃, bind_ok.mpr ⟨u, horder, rfl⟩⟩⟩

theorem expiryForWrite_stamps {env : Router τ} (h : env.normalizeExpiryForWrite m = .ok n)
    (hstamps : Gives (normalizeMemoryMetadata env.tools env.now m)) :
    Gives (normalizeMemoryMetadata env.tools env.now n) := by
  obtain ⟨n₁, hn₁, hvalid⟩ := bind_ok.mp (badRequest_ok.mp h)
  unfold normalizeMemoryValidity at hvalid
  obtain ⟨⟨n₂, validFrom⟩, hn₂, hvalid⟩ := bind_ok.mp hvalid
  obtain ⟨⟨n₃, validTo⟩, hn₃, hvalid⟩ := bind_ok.mp hvalid
  obtain ⟨_, -, hvalid⟩ := bind_ok.mp hvalid
  have hn : n₃ = n := pure_ok.mp hvalid
  subst hn
  have hread := stamps_give.mp hstamps
  refine stamps_give.mpr fun key hkey => ?_
  by_cases hto : key = "valid_to"
  · rw [hto]
    exact bound_read hn₃
  · by_cases hfrom : key = "valid_from"
    · rw [hfrom, value_congr (bound_frame hn₃ (by decide))]
      exact bound_read hn₂
    · have hdate : key ∉ dateKeys := by
        simp only [stampKeys, List.mem_cons, List.not_mem_nil, or_false] at hkey
        rcases hkey with rfl | rfl | rfl | rfl | rfl | rfl | rfl
        · decide
        · decide
        · decide
        · decide
        · decide
        · exact absurd rfl hfrom
        · exact absurd rfl hto
      rw [value_congr (expiryForWrite_frame h hdate)]
      exact hread key hkey

end Dates

/-! ## Versions -/

theorem revision_congr (h : m'.get "revision" = m.get "revision") :
    normalizedRevision tools m' = normalizedRevision tools m := by
  rw [normalizedRevision, normalizedRevision, h]

theorem revision_eq {r : ℤ} (hget : m.get "revision" = some (.int r)) (hpos : 1 ≤ r) :
    normalizedRevision tools m = r := by
  rw [normalizedRevision, hget]
  show max 1 r = r
  omega

theorem appended_prior {docId text : String} {old₀ old new : Metadata}
    (hold : normalizeMemoryMetadata tools now old₀ = .ok old) (h : Appended tools now docId text old new n) :
    hasPriorVersionSnapshot n (normalizedRevision tools old₀) text = true := by
  obtain ⟨stamps, -, hn⟩ := normalize_spec hold
  have hlast : (listItems (n.value "version_history")).getLast? = some (versionSnapshot docId text old) := by
    rw [value_eq h.history]
    show (List.drop _ (_ ++ [_])).getLast? = _
    rw [List.getLast?_drop, if_neg, List.getLast?_concat]
    rw [List.length_append, List.length_singleton, memoryVersionHistoryLimit]
    omega
  have hrevision : (Json.obj [("id", .str docId), ("revision", old.value "revision"), ("text", .str text),
      ("metadata", Metadata.toJson (old.erase "version_history"))]).get "revision" = old.value "revision" := rfl
  have htext : (Json.obj [("id", .str docId), ("revision", old.value "revision"), ("text", .str text),
      ("metadata", Metadata.toJson (old.erase "version_history"))]).get "text" = .str text := rfl
  unfold hasPriorVersionSnapshot
  rw [hlast]
  show (Json.same _ _ && Json.same _ _ && true) = true
  rw [hrevision, htext, value_eq hn.revision, Json.same, Json.same]
  simp [Json.number]

theorem appended_again (lawful : tools.Lawful) {docId text : String} {old₀ old new₀ new : Metadata}
    (hold : normalizeMemoryMetadata tools now old₀ = .ok old)
    (hnew : normalizeMemoryMetadata tools now new₀ = .ok new) (h : Appended tools now docId text old new n) :
    Gives (normalizeMemoryMetadata tools now n) := by
  obtain ⟨stamps, hstamps, hn⟩ := normalize_spec hold
  obtain ⟨-, hcanonical⟩ := canonical_timestamps lawful hstamps
  have hread := stamps_give.mp (normalized_again lawful hnew)
  refine stamps_give.mpr fun key hkey => ?_
  by_cases hcreated : key = "created_at"
  · have hget := h.createdAt
    rw [value_eq hn.createdAt] at hget
    rw [hcreated, value_eq hget]
    exact ⟨_, hcanonical.createdAt⟩
  · by_cases hupdated : key = "updated_at"
    · rw [hupdated, value_eq h.updatedAt]
      exact ⟨_, canonical_isoformat lawful now⟩
    · have hother : key ∉ provenanceFields ∧ key ∉ ["created_at", "revision", "updated_at", "version_history",
          "version_history_truncated"] := by
        simp only [stampKeys, List.mem_cons, List.not_mem_nil, or_false] at hkey
        rcases hkey with rfl | rfl | rfl | rfl | rfl | rfl | rfl
        · decide
        · exact absurd rfl hcreated
        · exact absurd rfl hupdated
        all_goals decide
      rw [value_congr (h.others key hother.1 hother.2)]
      exact hread key hkey

theorem append_gives (lawful : tools.Lawful) {docId text : String} {old new₀ new : Metadata}
    (hnew : normalizeMemoryMetadata tools now new₀ = .ok new)
    (hstamps : Gives (normalizeMemoryMetadata tools now old)) :
    Gives (appendMemoryVersion tools now docId text old new) ↔
      Gives (countOf tools old "version_history_truncated") := by
  obtain ⟨old', hold⟩ := hstamps
  obtain ⟨new', hnew'⟩ := normalized_again lawful hnew
  obtain ⟨stamps, -, hn⟩ := normalize_spec hold
  have hcount : countOf tools old' "version_history_truncated" = countOf tools old "version_history_truncated" := by
    rw [countOf, countOf, hn.others "version_history_truncated" (by decide)]
  rw [← hcount]
  unfold appendMemoryVersion
  rw [hold, hnew']
  simp only [gives_bind]
  refine ⟨fun ⟨_, ho, _, _, h⟩ => ?_, fun ⟨c, hc⟩ => ⟨_, rfl, _, rfl, c, hc, gives_pure _⟩⟩
  obtain ⟨c, hc, -⟩ := h
  rw [← Except.ok.inj ho] at hc
  exact ⟨c, hc⟩

/-! ## Histories -/

theorem countOf_gives : Gives (countOf tools m "audit_truncated") ↔ Gives (auditTruncated tools m) := by
  unfold countOf auditTruncated
  cases tools.toInt (Json.or ((m.get "audit_truncated").getD (.int 0)) (.int 0)) with
  | ok c => exact ⟨fun _ => ⟨c, rfl⟩, fun _ => ⟨_, rfl⟩⟩
  | error e => exact ⟨fun h => absurd h (not_gives_error e), fun h => absurd h (not_gives_error e)⟩

theorem merge_gives {current incoming : Metadata} (hcurrent : Gives (countOf tools current "audit_truncated"))
    (hincoming : Gives (countOf tools incoming "audit_truncated")) :
    Gives (mergeAppendOnlyMetadata tools current incoming) := by
  obtain ⟨before, hbefore⟩ := countOf_gives.mp hcurrent
  obtain ⟨after, hafter⟩ := countOf_gives.mp hincoming
  simp only [mergeAppendOnlyMetadata, appendOnlyHistoryLimits, List.foldlM_cons, List.foldlM_nil, gives_bind]
  have haudit : Gives (mergeHistory tools current incoming incoming "audit" 100) := by
    unfold mergeHistory
    rw [if_pos rfl, hbefore, hafter]
    exact ⟨_, rfl⟩
  obtain ⟨merged, hmerged⟩ := haudit
  exact ⟨merged, hmerged, _, rfl, _, rfl, gives_pure _⟩

theorem replacing_gives {row : Content} {docId : String}
    (hprior : hasPriorVersionSnapshot m (normalizedRevision tools row.metadata) row.text = true)
    (hstamps : Gives (normalizeMemoryMetadata tools now row.metadata))
    (hrow : Gives (countOf tools row.metadata "audit_truncated"))
    (hm : Gives (countOf tools m "audit_truncated")) : ∃ merged, Merged row m merged ∧
      replacingMetadata tools now row docId m = .ok merged := by
  obtain ⟨histories, hhistories⟩ := merge_gives hrow hm
  obtain ⟨old, hold⟩ := hstamps
  have hmerged := merged_ok hhistories
  have hversions : (withLifecycle row.metadata histories).get "version_history" = m.get "version_history" :=
    hmerged.others _ (by decide) (by decide)
  refine ⟨_, hmerged, ?_⟩
  unfold replacingMetadata
  rw [hhistories]
  refine bind_ok.mpr ⟨_, rfl, bind_ok.mpr ⟨old, hold, ?_⟩⟩
  rw [normalizedRevision_normalize hold, hasPrior_congr hversions, hprior]
  rfl

/-! ## The helper -/

section Helper

variable {env : Router τ} {docId text : String} {existing : Content}

/-- What keeping the version of a document leaves: its version is the last of the history. -/
structure VersionKept (tools : MetadataTools τ) (now : τ) (existing : Content) (m n : Metadata) : Prop where
  prior : hasPriorVersionSnapshot n (normalizedRevision tools existing.metadata) existing.text = true
  again : Gives (normalizeMemoryMetadata tools now n)
  audit : n.get "audit_truncated" = m.get "audit_truncated"
  revision : n.get "revision" =
    if hasPriorVersionSnapshot m (normalizedRevision tools existing.metadata) existing.text = true then
      m.get "revision"
    else some (.int (normalizedRevision tools existing.metadata + 1))

theorem keepVersion_ok (lawful : env.tools.Lawful) {m₀ : Metadata}
    (hm : normalizeMemoryMetadata env.tools env.now m₀ = .ok m) (h : env.keepVersion docId existing m = .ok n) :
    VersionKept env.tools env.now existing m n := by
  obtain ⟨old, hold, h⟩ := bind_ok.mp h
  rw [normalizedRevision_normalize (escaped_ok.mp hold)] at h
  split at h
  · rename_i hprior
    have hn : m = n := pure_ok.mp h
    subst hn
    exact ⟨hprior, normalized_again lawful hm, rfl, (if_pos hprior).symm⟩
  · rename_i hprior
    obtain ⟨old', new, hold', hnew, happended⟩ := append_ok (escaped_ok.mp h)
    obtain ⟨stamps, -, hnormalized⟩ := normalize_spec hnew
    refine ⟨appended_prior hold' happended, appended_again lawful hold' hnew happended, ?_, ?_⟩
    · rw [happended.others _ (by decide) (by decide), hnormalized.others _ (by decide)]
    · rw [if_neg hprior, happended.revision, normalizedRevision_normalize hold']

theorem keepVersion_gives (lawful : env.tools.Lawful) {m₀ : Metadata}
    (hm : normalizeMemoryMetadata env.tools env.now m₀ = .ok m)
    (hstamps : Gives (normalizeMemoryMetadata env.tools env.now existing.metadata)) :
    Gives (env.keepVersion docId existing m) ↔
      hasPriorVersionSnapshot m (normalizedRevision env.tools existing.metadata) existing.text = true ∨
        Gives (countOf env.tools existing.metadata "version_history_truncated") := by
  obtain ⟨old, hold⟩ := hstamps
  have happend := @append_gives _ _ _ lawful docId existing.text _ _ _ hm ⟨old, hold⟩
  unfold Router.keepVersion
  rw [gives_bind]
  refine ⟨fun ⟨old', hold', h⟩ => ?_, fun h => ⟨old, escaped_ok.mpr hold, ?_⟩⟩
  · rw [normalizedRevision_normalize (escaped_ok.mp hold')] at h
    split at h
    · rename_i hprior
      exact Or.inl hprior
    · obtain ⟨n, hn⟩ := h
      exact Or.inr (happend.mp ⟨n, escaped_ok.mp hn⟩)
  · rw [normalizedRevision_normalize hold]
    split
    · exact gives_pure _
    · rename_i hprior
      obtain ⟨n, hn⟩ := happend.mpr (h.resolve_left hprior)
      exact ⟨n, escaped_ok.mpr hn⟩

theorem rejected_congr (h : ∀ key ∈ retiredFields, m'.get key = m.get key) :
    rejectedFields m' = rejectedFields m := by
  unfold rejectedFields
  exact List.filter_congr fun key hkey => by rw [h key hkey]

variable [LinearOrder τ]

theorem prepare_ok : env.prepareWrite (some existing) { id := docId, text, metadata := m' } = .ok n ↔
    ∃ m₁ m₂, env.normalizeExpiryForWrite m' = .ok m₁ ∧ rejectedFields m₁ = [] ∧
      env.ensureDocInActiveWorkspace existing.metadata = .ok () ∧
      normalizeMemoryMetadata env.tools env.now m₁ = .ok m₂ ∧ env.keepVersion docId existing m₂ = .ok n := by
  constructor
  · intro h
    obtain ⟨m₁, hm₁, h⟩ := bind_ok.mp h
    obtain ⟨_, hretired, h⟩ := bind_ok.mp h
    obtain ⟨_, hwork, h⟩ := bind_ok.mp h
    obtain ⟨m₂, hm₂, h⟩ := bind_ok.mp h
    exact ⟨m₁, m₂, hm₁, require_ok.mp hretired, hwork, escaped_ok.mp hm₂, h⟩
  · intro h
    obtain ⟨m₁, m₂, hm₁, hretired, hwork, hm₂, hn⟩ := h
    have hrequire : require (retiredError m₁) (rejectedFields m₁ = []) = .ok () := require_ok.mpr hretired
    unfold Router.prepareWrite
    exact bind_ok.mpr ⟨m₁, hm₁, bind_ok.mpr ⟨(), hrequire, bind_ok.mpr ⟨(), hwork,
      bind_ok.mpr ⟨m₂, escaped_ok.mpr hm₂, hn⟩⟩⟩⟩

theorem dated_same {m₁ : Metadata} (h : env.normalizeExpiryForWrite m' = .ok m₁)
    (hsame : ∀ key ∈ checkedKeys, m'.get key = m.get key) :
    (∀ key ∈ retiredFields, m₁.get key = m.get key) ∧ m₁.get "version_history" = m.get "version_history" ∧
      m₁.get "revision" = m.get "revision" ∧ m₁.get "audit_truncated" = m'.get "audit_truncated" := by
  refine ⟨fun key hkey => ?_, ?_, ?_, expiryForWrite_frame h (by decide)⟩
  · have hchecked : key ∉ ["expires_at", "valid_from", "valid_to"] ∧ key ∈ checkedKeys := by
      simp only [retiredFields, List.mem_cons, List.not_mem_nil, or_false] at hkey
      rcases hkey with rfl | rfl | rfl | rfl | rfl <;> decide
    rw [expiryForWrite_frame h hchecked.1, hsame key hchecked.2]
  · rw [expiryForWrite_frame h (by decide), hsame _ (by decide)]
  · rw [expiryForWrite_frame h (by decide), hsame _ (by decide)]

theorem prepare_gives (lawful : env.tools.Lawful) (hwork : env.ensureDocInActiveWorkspace existing.metadata = .ok ())
    (haudit : Gives (countOf env.tools existing.metadata "audit_truncated"))
    (h : Retouched env.tools existing.metadata m') :
    Gives (env.prepareWrite (some existing) { id := docId, text, metadata := m' }) ↔ Rewritable env existing := by
  have hdates (key : String) (hkey : key ∈ dateKeys) : key ∈ checkedKeys := by
    unfold checkedKeys
    simp only [List.append_assoc]
    exact List.mem_append_left _ hkey
  have hstampKeys (key : String) (hkey : key ∈ stampKeys) : key ∈ checkedKeys := by
    unfold checkedKeys
    simp only [List.append_assoc]
    exact List.mem_append_right _ (List.mem_append_left _ hkey)
  have hprior {m₁ m₂ : Metadata} (hm₁ : env.normalizeExpiryForWrite m' = .ok m₁)
      (hm₂ : normalizeMemoryMetadata env.tools env.now m₁ = .ok m₂) (revision : ℤ) :
      hasPriorVersionSnapshot m₂ revision existing.text =
        hasPriorVersionSnapshot existing.metadata revision existing.text := by
    obtain ⟨stamps, -, hn⟩ := normalize_spec hm₂
    refine hasPrior_congr ?_
    rw [hn.others _ (by decide), (dated_same hm₁ h.same).2.1]
  constructor
  · intro hgives
    obtain ⟨n, hn⟩ := hgives
    obtain ⟨m₁, m₂, hm₁, hretired, -, hm₂, hkept⟩ := prepare_ok.mp hn
    obtain ⟨old, hold, -⟩ := bind_ok.mp hkept
    have hstamps : Gives (normalizeMemoryMetadata env.tools env.now existing.metadata) := ⟨old, escaped_ok.mp hold⟩
    refine ⟨?_, ?_, hstamps, haudit, ?_⟩
    · exact expiryForWrite_congr (fun key hkey => (h.same key (hdates key hkey)).symm) ⟨m₁, hm₁⟩
    · rw [← rejected_congr (dated_same hm₁ h.same).1]
      exact hretired
    · rw [← hprior hm₁ hm₂]
      exact (keepVersion_gives lawful hm₂ hstamps).mp ⟨n, hkept⟩
  · intro hrewritable
    obtain ⟨m₁, hm₁⟩ := expiryForWrite_congr (fun key hkey => h.same key (hdates key hkey)) hrewritable.dates
    have hread : Gives (normalizeMemoryMetadata env.tools env.now m') := by
      refine stamps_give.mpr fun key hkey => ?_
      rw [value_congr (h.same key (hstampKeys key hkey))]
      exact stamps_give.mp hrewritable.stamps key hkey
    obtain ⟨m₂, hm₂⟩ := expiryForWrite_stamps hm₁ hread
    have hversions := hrewritable.versions
    rw [← hprior hm₁ hm₂] at hversions
    obtain ⟨n, hn⟩ := (keepVersion_gives lawful hm₂ hrewritable.stamps).mpr hversions
    refine ⟨n, prepare_ok.mpr ⟨m₁, m₂, hm₁, ?_, hwork, hm₂, hn⟩⟩
    rw [rejected_congr (dated_same hm₁ h.same).1]
    exact hrewritable.retired

/-- A stored document, in the table and in memory, on a store that answers. -/
structure Stored (env : Router τ) (s : SqliteStore) (docId : String) (existing : Content) : Prop where
  doc : s.docs.get docId = some existing
  row : s.rows.get docId = some existing
  answers : env.faults docId = {}

def SqliteStore.written (s : SqliteStore) (docId : String) (content : Content) : SqliteStore :=
  { s with
    rows := s.rows.set docId content
    revision := s.revision + 1
    docs := s.docs.set docId content }

/-- What a document is left with when it was retouched and written. -/
structure Rewritten (env : Router τ) (existing : Content) (m' n : Metadata) : Prop where
  carries : Carries m' n
  revision : normalizedRevision env.tools n =
    if hasPriorVersionSnapshot existing.metadata (normalizedRevision env.tools existing.metadata)
        existing.text = true then normalizedRevision env.tools existing.metadata
    else normalizedRevision env.tools existing.metadata + 1

theorem persisted_kept (hkept : VersionKept env.tools env.now existing m n)
    (hrewritable : Rewritable env existing) (haudit : Gives (countOf env.tools m "audit_truncated")) :
    ∃ stored, persistedMetadata env.tools env.now (some existing) { id := docId, text, metadata := n } = .ok stored ∧
      normalizedRevision env.tools stored = normalizedRevision env.tools n := by
  obtain ⟨again, hagain⟩ := hkept.again
  obtain ⟨stamps, -, hn⟩ := normalize_spec hagain
  have hprior : hasPriorVersionSnapshot again (normalizedRevision env.tools existing.metadata) existing.text = true := by
    rw [hasPrior_congr (hn.others "version_history" (by decide))]
    exact hkept.prior
  have hcount : Gives (countOf env.tools again "audit_truncated") := by
    rw [countOf, hn.others "audit_truncated" (by decide), hkept.audit]
    exact haudit
  obtain ⟨merged, hmerged, hreplacing⟩ := @replacing_gives _ _ env.now _ existing docId hprior
    hrewritable.stamps hrewritable.audit hcount
  refine ⟨merged, bind_ok.mpr ⟨again, hagain, hreplacing⟩, ?_⟩
  rw [revision_congr (hmerged.others "revision" (by decide) (by decide))]
  exact revision_eq hn.revision normalizedRevision_pos

theorem write_retouched (lawful : env.tools.Lawful) {s : SqliteStore} (hstored : Stored env s docId existing)
    (hwork : env.ensureDocInActiveWorkspace existing.metadata = .ok ())
    (hrewritable : Rewritable env existing) (h : Retouched env.tools existing.metadata m') (text : String) :
    ∃ n, env.writeMemoryDocument s { id := docId, text, metadata := m' } =
        (s.written docId ⟨text, n⟩, recordOperation docId) ∧ Rewritten env existing m' n := by
  obtain ⟨prepared, hprepared⟩ :=
    (@prepare_gives _ m' env docId text existing _ lawful hwork hrewritable.audit h).mpr hrewritable
  obtain ⟨m₁, m₂, hm₁, -, -, hm₂, hkeep⟩ := prepare_ok.mp hprepared
  have hkept := keepVersion_ok lawful hm₂ hkeep
  obtain ⟨-, hversions, hrevision, hcount⟩ := dated_same hm₁ h.same
  obtain ⟨stamps, -, hn⟩ := normalize_spec hm₂
  have haudit : Gives (countOf env.tools m₂ "audit_truncated") := by
    rw [countOf, hn.others "audit_truncated" (by decide), hcount]
    exact h.audit
  obtain ⟨n, hpersisted, hsame⟩ := @persisted_kept _ _ _ env docId text existing _ hkept hrewritable haudit
  have hcarries : Carries m' n := (prepareWrite_carries hprepared).trans (persisted_carries hpersisted)
  refine ⟨n, ?_, hcarries, ?_⟩
  · unfold Router.writeMemoryDocument
    rw [hstored.doc, hprepared]
    dsimp only
    unfold SqliteStore.addDocument SqliteStore.persist
    rw [hstored.row, hstored.answers]
    dsimp only
    rw [hpersisted]
    rfl
  · rw [hsame]
    have hpos : 1 ≤ normalizedRevision env.tools existing.metadata := normalizedRevision_pos
    have hkeptRevision := hkept.revision
    rw [hasPrior_congr (hn.others "version_history" (by decide)), hasPrior_congr hversions, hn.revision,
      revision_congr hrevision] at hkeptRevision
    split
    · rename_i hprior
      rw [if_pos hprior] at hkeptRevision
      exact revision_eq hkeptRevision hpos
    · rename_i hprior
      rw [if_neg hprior] at hkeptRevision
      exact revision_eq hkeptRevision (by omega)

theorem write_refused (lawful : env.tools.Lawful) {s : SqliteStore} (hdoc : s.docs.get docId = some existing)
    (hwork : env.ensureDocInActiveWorkspace existing.metadata = .ok ())
    (haudit : Gives (countOf env.tools existing.metadata "audit_truncated"))
    (hrewritable : ¬ Rewritable env existing) (h : Retouched env.tools existing.metadata m') (text : String) :
    ∃ e, env.writeMemoryDocument s { id := docId, text, metadata := m' } = (s, .error e) := by
  have hnone : ¬ Gives (env.prepareWrite (some existing) { id := docId, text, metadata := m' }) := fun hgives =>
    hrewritable ((prepare_gives lawful hwork haudit h).mp hgives)
  unfold Router.writeMemoryDocument
  rw [hdoc]
  dsimp only
  cases hprepared : env.prepareWrite (some existing) { id := docId, text, metadata := m' } with
  | error e => exact ⟨e, rfl⟩
  | ok n => exact absurd ⟨n, hprepared⟩ hnone

end Helper

end Memory
