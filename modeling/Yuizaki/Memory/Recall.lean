import Yuizaki.Memory.Rewrite

/- What decides whether a memory is recalled, and what a write leaves of it.

   A memory is recalled at an instant when nothing withholds it (a mark, or the outcome of its
   review) and it is open: it waits for no review, and the instant lies within its dates. A
   write puts the dates and the review status into one spelling, which reads as before, but for
   a blank status, which becomes `unreviewed` at the second normalization. -/
namespace Memory

open Fallible

variable {τ : Type} {tools : MetadataTools τ} {now : τ} {m n k : Metadata} {key : String}

/-! ## The two parts of recall -/

/-- A memory that a mark or the outcome of its review keeps from recall. -/
def Withheld (tools : MetadataTools τ) (m : Metadata) : Prop :=
  (m.value "candidate_deleted").truthy = true ∨ (m.value "soft_forgotten").truthy = true ∨
    reviewStatus tools m ∈ nonRecallableReviewStatuses ∨ (m.value "superseded_by").truthy = true

/-- A memory that waits for no review, at an instant within its dates. -/
def Open [LinearOrder τ] (tools : MetadataTools τ) (t : τ) (m : Metadata) : Prop :=
  awaitsReview tools m = false ∧ datedState tools t m = .ok "active"

theorem recallable_split [LinearOrder τ] {t : τ} : Recallable tools t m ↔ ¬ Withheld tools m ∧ Open tools t m := by
  have hother {state : String} (h : state ≠ "active") : (Except.ok state : Except PyError String) ≠ .ok "active" :=
    fun heq => h (Except.ok.inj heq)
  unfold Recallable memoryState Withheld Open
  by_cases hdeleted : (m.value "candidate_deleted").truthy = true
  · rw [if_pos hdeleted]
    exact ⟨fun h => absurd h (hother (by decide)), fun h => absurd (Or.inl hdeleted) h.1⟩
  rw [if_neg hdeleted]
  by_cases hforgotten : (m.value "soft_forgotten").truthy = true
  · rw [if_pos hforgotten]
    exact ⟨fun h => absurd h (hother (by decide)), fun h => absurd (Or.inr (Or.inl hforgotten)) h.1⟩
  rw [if_neg hforgotten]
  by_cases hawaits : awaitsReview tools m = true
  · rw [if_pos hawaits, hawaits]
    exact ⟨fun h => absurd h (hother (by decide)), fun h => absurd h.2.1 (by decide)⟩
  rw [if_neg hawaits]
  by_cases hstatus : reviewStatus tools m ∈ nonRecallableReviewStatuses
  · rw [if_pos hstatus]
    refine ⟨fun h => ?_, fun h => absurd (Or.inr (Or.inr (Or.inl hstatus))) h.1⟩
    rw [Except.ok.inj h] at hstatus
    exact absurd hstatus (by decide)
  rw [if_neg hstatus]
  by_cases hsuperseded : (m.value "superseded_by").truthy = true
  · rw [if_pos hsuperseded]
    exact ⟨fun h => absurd h (hother (by decide)), fun h => absurd (Or.inr (Or.inr (Or.inr hsuperseded))) h.1⟩
  rw [if_neg hsuperseded]
  have hfree : ¬ ((m.value "candidate_deleted").truthy = true ∨ (m.value "soft_forgotten").truthy = true ∨
      reviewStatus tools m ∈ nonRecallableReviewStatuses ∨ (m.value "superseded_by").truthy = true) :=
    fun h => h.elim hdeleted fun h => h.elim hforgotten fun h => h.elim hstatus hsuperseded
  exact ⟨fun h => ⟨hfree, Bool.eq_false_iff.mpr hawaits, h⟩, fun h => h.2.2⟩

/-! ## The review status -/

/-- The review status, where a blank one is that of a memory without a review. -/
def settledStatus (tools : MetadataTools τ) (m : Metadata) : String :=
  if reviewStatus tools m = "" then "unreviewed" else reviewStatus tools m

/-- A status in the spelling of the normalizer. -/
def StatusSpelled (tools : MetadataTools τ) (m : Metadata) : Prop :=
  ∃ s, m.get "review_status" = some (.str (PyStr.lower tools.wide (PyStr.strip s)))

theorem lower_unreviewed (wide : String → String) : PyStr.lower wide (PyStr.strip "unreviewed") = "unreviewed" := by
  have hstrip : PyStr.strip "unreviewed" = "unreviewed" := by decide +kernel
  have hascii : "unreviewed".toList.all (fun c => c.toNat < 128) = true := by decide
  rw [hstrip, PyStr.lower, if_pos hascii]
  decide +kernel

theorem lower_empty (wide : String → String) : PyStr.lower wide (PyStr.strip "") = "" := by
  have hstrip : PyStr.strip "" = "" := by decide +kernel
  have hascii : "".toList.all (fun c => c.toNat < 128) = true := by decide
  rw [hstrip, PyStr.lower, if_pos hascii]
  decide +kernel

theorem truthy_str {s : String} : (Json.str s).truthy = true ↔ s ≠ "" := decide_eq_true_iff

theorem status_spelled (lawful : tools.Lawful) {s : String}
    (h : m.get "review_status" = some (.str (PyStr.lower tools.wide (PyStr.strip s)))) :
    reviewStatus tools m = PyStr.lower tools.wide (PyStr.strip s) := by
  unfold reviewStatus MetadataTools.word Json.or
  rw [value_eq h]
  by_cases hempty : PyStr.lower tools.wide (PyStr.strip s) = ""
  · have hblank : (Json.str "").truthy = false := rfl
    rw [hempty, hblank, if_neg Bool.false_ne_true]
    exact lower_empty tools.wide
  · rw [truthy_str.mpr hempty, if_pos rfl, MetadataTools.str, lawful.strip_lower, lawful.lower_lower]

theorem normalized_spelled (h : normalizeMemoryMetadata tools now m = .ok n) : StatusSpelled tools n := by
  obtain ⟨stamps, -, hn⟩ := normalize_spec h
  exact ⟨_, hn.review⟩

theorem normalized_status (lawful : tools.Lawful) (h : normalizeMemoryMetadata tools now m = .ok n) :
    reviewStatus tools n = if (m.value "review_status").truthy then reviewStatus tools m else "unreviewed" := by
  obtain ⟨stamps, -, hn⟩ := normalize_spec h
  have hread : reviewStatus tools n = normalizedReviewStatus tools m := status_spelled lawful hn.review
  rw [hread]
  unfold normalizedReviewStatus reviewStatus MetadataTools.word Json.or
  split
  · rfl
  · exact lower_unreviewed tools.wide

theorem status_falsy (h : (m.value "review_status").truthy = false) : reviewStatus tools m = "" := by
  unfold reviewStatus MetadataTools.word Json.or
  rw [if_neg (Bool.eq_false_iff.mp h)]
  exact lower_empty tools.wide

theorem normalized_settled (lawful : tools.Lawful) (h : normalizeMemoryMetadata tools now m = .ok n) :
    settledStatus tools n = settledStatus tools m := by
  unfold settledStatus
  rw [normalized_status lawful h]
  cases htruthy : (m.value "review_status").truthy with
  | true => rw [if_pos rfl]
  | false =>
    rw [if_neg Bool.false_ne_true, status_falsy htruthy]
    rfl

theorem spelled_settles (lawful : tools.Lawful) (hspelled : StatusSpelled tools m)
    (h : normalizeMemoryMetadata tools now m = .ok n) : reviewStatus tools n ≠ "" := by
  obtain ⟨s, hs⟩ := hspelled
  rw [normalized_status lawful h]
  split
  · rename_i htruthy
    rw [status_spelled lawful hs]
    rw [value_eq hs] at htruthy
    exact truthy_str.mp htruthy
  · decide

theorem settled_kept (lawful : tools.Lawful) (hne : reviewStatus tools m ≠ "")
    (h : normalizeMemoryMetadata tools now m = .ok n) : reviewStatus tools n ≠ "" := by
  rw [normalized_status lawful h]
  split
  · exact hne
  · decide

theorem settled_eq (h : reviewStatus tools m ≠ "") : settledStatus tools m = reviewStatus tools m := if_neg h

theorem settled_congr (h : n.get "review_status" = m.get "review_status") : settledStatus tools n = settledStatus tools m := by
  unfold settledStatus reviewStatus
  rw [value_congr h]

/-! ## The dates -/

structure SameDates (tools : MetadataTools τ) (m n : Metadata) : Prop where
  expiry : normalizeExpiresAt tools (n.value "expires_at") = normalizeExpiresAt tools (m.value "expires_at")
  instant : ∀ key ∈ ["valid_from", "valid_to"], parseInstant tools (n.value key) = parseInstant tools (m.value key)
  unset : ∀ key ∈ ["valid_from", "valid_to"], isUnset (n.value key) = isUnset (m.value key)

theorem SameDates.trans (h : SameDates tools m n) (h' : SameDates tools n k) : SameDates tools m k where
  expiry := h'.expiry.trans h.expiry
  instant key hkey := (h'.instant key hkey).trans (h.instant key hkey)
  unset key hkey := (h'.unset key hkey).trans (h.unset key hkey)

theorem SameDates.of_get (h : ∀ key ∈ ["expires_at", "valid_from", "valid_to"], n.get key = m.get key) :
    SameDates tools m n where
  expiry := by rw [value_congr (h _ (by decide))]
  instant key hkey := by rw [value_congr (h _ (List.mem_cons_of_mem _ hkey))]
  unset key hkey := by rw [value_congr (h _ (List.mem_cons_of_mem _ hkey))]

theorem SameDates.state [LinearOrder τ] (h : SameDates tools m n) (t : τ) : datedState tools t n = datedState tools t m := by
  have hinvalid : hasInvalidValidity tools n = hasInvalidValidity tools m := by
    unfold hasInvalidValidity
    rw [h.instant "valid_from" (by decide), h.instant "valid_to" (by decide), h.unset "valid_from" (by decide),
      h.unset "valid_to" (by decide)]
  have hexpired : isMemoryExpired tools t n = isMemoryExpired tools t m := by
    unfold isMemoryExpired
    rw [h.expiry]
  unfold datedState
  rw [hinvalid, hexpired, h.instant "valid_from" (by decide), h.instant "valid_to" (by decide)]

/-- Bounds in the one spelling, or none. -/
def BoundsSpelled (tools : MetadataTools τ) (m : Metadata) : Prop :=
  ∀ key ∈ ["valid_from", "valid_to"], m.get key = none ∨ Stamped tools m key

theorem BoundsSpelled.congr (h : BoundsSpelled tools m)
    (hsame : ∀ key ∈ ["valid_from", "valid_to"], n.get key = m.get key) : BoundsSpelled tools n := by
  intro key hkey
  obtain hnone | ⟨s, hs, hcanonical⟩ := h key hkey
  · exact Or.inl ((hsame key hkey).trans hnone)
  · exact Or.inr ⟨s, (hsame key hkey).trans hs, hcanonical⟩

theorem normalized_dates (hspelled : BoundsSpelled tools m) (h : normalizeMemoryMetadata tools now m = .ok n) :
    ∀ key ∈ ["expires_at", "valid_from", "valid_to"], n.get key = m.get key := by
  obtain ⟨stamps, hstamps, hn⟩ := normalize_spec h
  have hbound {key : String} {v : Option String} (hkey : key ∈ ["valid_from", "valid_to"])
      (hread : canonicalTimestamp tools (m.value key) = .ok v) (hget : n.get key = v.map .str) : n.get key = m.get key := by
    obtain hnone | ⟨s, hs, hcanonical⟩ := hspelled key hkey
    · have hnull : m.value key = .null := by
        unfold Metadata.value
        rw [hnone]
        rfl
      rw [hnull] at hread
      rw [hget, ← Except.ok.inj hread, hnone]
      rfl
    · rw [value_eq hs, hcanonical] at hread
      rw [hget, ← Except.ok.inj hread, hs]
      rfl
  have hreads : canonicalTimestamp tools (m.value "valid_from") = .ok stamps.validFrom ∧
      canonicalTimestamp tools (m.value "valid_to") = .ok stamps.validTo := by
    unfold normalizedTimestamps at hstamps
    obtain ⟨_, -, hstamps⟩ := bind_ok.mp hstamps
    obtain ⟨_, -, hstamps⟩ := bind_ok.mp hstamps
    obtain ⟨_, -, hstamps⟩ := bind_ok.mp hstamps
    obtain ⟨_, -, hstamps⟩ := bind_ok.mp hstamps
    obtain ⟨_, -, hstamps⟩ := bind_ok.mp hstamps
    obtain ⟨validFrom, hfrom, hstamps⟩ := bind_ok.mp hstamps
    obtain ⟨validTo, hto, hstamps⟩ := bind_ok.mp hstamps
    rw [← pure_ok.mp hstamps]
    exact ⟨hfrom, hto⟩
  intro key hkey
  simp only [List.mem_cons, List.not_mem_nil, or_false] at hkey
  obtain rfl | rfl | rfl := hkey
  · exact hn.others _ (by decide)
  · exact hbound (by decide) hreads.1 hn.validFrom
  · exact hbound (by decide) hreads.2 hn.validTo

theorem parseInstant_empty : parseInstant tools (.str "") = .ok none := by
  have hstrip : PyStr.strip "" = "" := by decide +kernel
  unfold parseInstant
  dsimp only
  rw [hstrip, if_pos rfl]

theorem canonical_instant (lawful : tools.Lawful) {v : Json} {canonical : String} {t : τ}
    (h : canonicalTimestamp tools v = .ok (some canonical)) (ht : parseInstant tools (.str canonical) = .ok (some t)) :
    parseInstant tools v = .ok (some t) := by
  unfold canonicalTimestamp at h
  split at h
  · rename_i s
    dsimp only at h
    unfold parseInstant at ht ⊢
    dsimp only at ht ⊢
    by_cases hne : PyStr.strip s = ""
    · rw [if_pos hne] at h
      cases h
    · rw [if_neg hne] at h ⊢
      cases hparse : tools.parseDate (PyStr.strip s) with
      | date t' =>
        rw [hparse] at h
        rw [← Option.some.inj (Except.ok.inj h), lawful.strip_isoformat, if_neg (lawful.isoformat_ne t'),
          lawful.parse_isoformat] at ht
        exact ht
      | invalid =>
        rw [hparse] at h
        rw [← Option.some.inj (Except.ok.inj h), PyStr.strip_strip, if_neg hne, hparse] at ht
        cases ht
      | outOfRange =>
        rw [hparse] at h
        cases h
  · cases h

section Checked

variable [LinearOrder τ] {env : Router τ}

theorem bound_dates (lawful : tools.Lawful) {instant : Option τ} (h : normalizeBound tools m key = .ok (n, instant)) :
    (n.get key = none ∨ Stamped tools n key) ∧ parseInstant tools (n.value key) = parseInstant tools (m.value key) ∧
      isUnset (n.value key) = isUnset (m.value key) := by
  unfold normalizeBound at h
  split at h
  · rename_i hunset
    obtain ⟨rfl, -⟩ := Prod.mk.inj (Except.ok.inj h)
    have hnone : (m.erase key).get key = none := by rw [Dict.get_erase, if_pos rfl]
    have hnull : Metadata.value (m.erase key) key = Json.null := by
      unfold Metadata.value
      rw [hnone]
      rfl
    refine ⟨Or.inl hnone, ?_, by rw [hnull, hunset]; rfl⟩
    rw [hnull]
    obtain hvalue | hvalue := of_decide_eq_true hunset
    · rw [hvalue]
    · rw [hvalue, parseInstant_empty]
      rfl
  · rename_i hset
    split at h
    · cases h
    · cases h
    · rename_i canonical hcanonical
      split at h
      · cases h
      · cases h
      · rename_i t ht
        obtain ⟨rfl, -⟩ := Prod.mk.inj (Except.ok.inj h)
        have hget : (m.set key (.str canonical)).get key = some (.str canonical) := Dict.get_set_self
        refine ⟨Or.inr ⟨canonical, hget, canonical_read lawful hcanonical⟩, ?_, ?_⟩
        · rw [value_eq hget, ht]
          exact (canonical_instant lawful hcanonical ht).symm
        · rw [value_eq hget, Bool.eq_false_iff.mpr hset]
          refine decide_eq_false fun hblank => ?_
          obtain hblank | hblank := hblank
          · cases hblank
          · rw [hblank, parseInstant_empty] at ht
            cases ht

theorem expiryForWrite_dates (lawful : env.tools.Lawful)
    (hutc : ∀ t, utcRfc3339.fullMatch (env.tools.isoformat t) = true) (h : env.normalizeExpiryForWrite m = .ok n) :
    BoundsSpelled env.tools n ∧ SameDates env.tools m n := by
  obtain ⟨n₁, hn₁, hvalid⟩ := bind_ok.mp (badRequest_ok.mp h)
  unfold normalizeMemoryValidity at hvalid
  obtain ⟨⟨n₂, validFrom⟩, hn₂, hvalid⟩ := bind_ok.mp hvalid
  obtain ⟨⟨n₃, validTo⟩, hn₃, hvalid⟩ := bind_ok.mp hvalid
  obtain ⟨_, -, hvalid⟩ := bind_ok.mp hvalid
  obtain rfl : n₃ = n := pure_ok.mp hvalid
  obtain ⟨hfrom, hinstant, hunset⟩ := bound_dates lawful hn₂
  obtain ⟨hto, hinstant', hunset'⟩ := bound_dates lawful hn₃
  have hkept : n₃.get "valid_from" = n₂.get "valid_from" := bound_frame hn₃ (by decide)
  have hbefore : n₁.get "valid_from" = m.get "valid_from" := expiry_frame hn₁ (by decide)
  have hbefore' : n₂.get "valid_to" = m.get "valid_to" :=
    (bound_frame hn₂ (by decide)).trans (expiry_frame hn₁ (by decide))
  have hexpiry : n₃.get "expires_at" = n₁.get "expires_at" :=
    (bound_frame hn₃ (by decide)).trans (bound_frame hn₂ (by decide))
  refine ⟨fun key hkey => ?_, ?_, fun key hkey => ?_, fun key hkey => ?_⟩
  · simp only [List.mem_cons, List.not_mem_nil, or_false] at hkey
    obtain rfl | rfl := hkey
    · obtain hnone | ⟨s, hs, hcanonical⟩ := hfrom
      · exact Or.inl (hkept.trans hnone)
      · exact Or.inr ⟨s, hkept.trans hs, hcanonical⟩
    · exact hto
  · rw [value_congr hexpiry]
    unfold normalizeMemoryExpiry at hn₁
    split at hn₁
    · cases hn₁
    · rename_i hread
      have hnone : n₁.get "expires_at" = none := by rw [← Except.ok.inj hn₁, Dict.get_erase, if_pos rfl]
      rw [hread]
      unfold Metadata.value
      rw [hnone]
      rfl
    · rename_i t hread
      split at hn₁
      · cases hn₁
      · have hget : n₁.get "expires_at" = some (.str (env.tools.isoformat t)) := by
          rw [← Except.ok.inj hn₁, Dict.get_set_self]
        rw [value_eq hget, hread]
        unfold normalizeExpiresAt
        dsimp only
        rw [hutc t, if_neg (by decide), lawful.parse_isoformat]
  · simp only [List.mem_cons, List.not_mem_nil, or_false] at hkey
    obtain rfl | rfl := hkey
    · rw [value_congr hkept, hinstant, value_congr hbefore]
    · rw [hinstant', value_congr hbefore']
  · simp only [List.mem_cons, List.not_mem_nil, or_false] at hkey
    obtain rfl | rfl := hkey
    · rw [value_congr hkept, hunset, value_congr hbefore]
    · rw [hunset', value_congr hbefore']

end Checked

/-! ## A write -/

/-- What each step of a write leaves, once the dates are checked. -/
structure Settles (tools : MetadataTools τ) (m n : Metadata) : Prop where
  status : settledStatus tools n = settledStatus tools m
  settled : reviewStatus tools m ≠ "" → reviewStatus tools n ≠ ""
  dates : BoundsSpelled tools m → ∀ key ∈ ["expires_at", "valid_from", "valid_to"], n.get key = m.get key
  superseded : ∀ v, m.get "superseded_by" = some v → n.get "superseded_by" = some v

theorem Settles.spelled (h : Settles tools m n) (hm : BoundsSpelled tools m) : BoundsSpelled tools n :=
  hm.congr fun key hkey => h.dates hm key (List.mem_cons_of_mem _ hkey)

theorem Settles.trans (h : Settles tools m n) (h' : Settles tools n k) : Settles tools m k where
  status := h'.status.trans h.status
  settled hne := h'.settled (h.settled hne)
  dates hm key hkey := (h'.dates (h.spelled hm) key hkey).trans (h.dates hm key hkey)
  superseded v hv := h'.superseded v (h.superseded v hv)

theorem Settles.of_frame
    (h : ∀ key ∈ ["review_status", "superseded_by", "expires_at", "valid_from", "valid_to"], n.get key = m.get key) :
    Settles tools m n where
  status := settled_congr (h _ (by decide))
  settled hne := by
    have hread : reviewStatus tools n = reviewStatus tools m := by
      unfold reviewStatus
      rw [value_congr (h "review_status" (by decide))]
    rw [hread]
    exact hne
  dates _ key hkey := h key (List.mem_cons_of_mem _ (List.mem_cons_of_mem _ hkey))
  superseded v hv := (h _ (by decide)).trans hv

theorem normalize_settles (lawful : tools.Lawful) (h : normalizeMemoryMetadata tools now m = .ok n) :
    Settles tools m n where
  status := normalized_settled lawful h
  settled hne := settled_kept lawful hne h
  dates hm := normalized_dates hm h
  superseded v hv := by
    obtain ⟨stamps, -, hn⟩ := normalize_spec h
    rw [hn.supersededBy, value_eq hv]

theorem append_settles (lawful : tools.Lawful) {docId text : String} {old : Metadata}
    (h : appendMemoryVersion tools now docId text old m = .ok n) : Settles tools m n := by
  obtain ⟨old', new, -, hnew, happended⟩ := append_ok h
  refine (normalize_settles lawful hnew).trans (.of_frame fun key hkey => ?_)
  simp only [List.mem_cons, List.not_mem_nil, or_false] at hkey
  obtain rfl | rfl | rfl | rfl | rfl := hkey
  all_goals exact happended.others _ (by decide) (by decide)

theorem merged_settles {row : Content} (h : Merged row m n) : Settles tools m n where
  status := settled_congr (h.others _ (by decide) (by decide))
  settled hne := by
    have hread : reviewStatus tools n = reviewStatus tools m := by
      unfold reviewStatus
      rw [value_congr (h.others "review_status" (by decide) (by decide))]
    rw [hread]
    exact hne
  dates _ key hkey := by
    simp only [List.mem_cons, List.not_mem_nil, or_false] at hkey
    obtain rfl | rfl | rfl := hkey
    all_goals exact h.others _ (by decide) (by decide)
  superseded v hv := by
    obtain hsame | ⟨hnone, -⟩ := h.lifecycle "superseded_by" (by decide)
    · exact hsame.trans hv
    · rw [hv] at hnone
      cases hnone

/-- Metadata that is written over a document, with the provenance of the document laid over it
unless it has the version of the document already. -/
def carriedOver (tools : MetadataTools τ) (existing : Content) (m : Metadata) : Metadata :=
  if hasPriorVersionSnapshot existing.metadata (normalizedRevision tools existing.metadata) existing.text then m
  else keepFields provenanceFields existing.metadata m

/-- What a write over a document leaves of what decides recall. -/
structure WrittenOver (tools : MetadataTools τ) (existing : Content) (m n : Metadata) : Prop where
  plain : ∀ key, key ∉ writtenKeys → n.get key = m.get key
  status : reviewStatus tools n = settledStatus tools m
  dates : SameDates tools m n
  superseded : ∀ v, m.get "superseded_by" = some v → n.get "superseded_by" = some v
  source : n.get "source_kind" = (carriedOver tools existing m).get "source_kind"
  forgotten : n.get "soft_forgotten" = m.get "soft_forgotten" ∨
    m.get "soft_forgotten" = none ∧ n.get "soft_forgotten" = existing.metadata.get "soft_forgotten"

section Over

variable [LinearOrder τ] {env : Router τ} {existing : Content} {docId text : String} {prepared : Metadata}

theorem hasPrior_items {revision : ℤ} (h : listItems (n.value "version_history") = listItems (m.value "version_history")) :
    hasPriorVersionSnapshot n revision text = hasPriorVersionSnapshot m revision text := by
  unfold hasPriorVersionSnapshot
  rw [h]

theorem prepared_frame (hkey : key ∉ normalizedKeys ∧ key ∉ ["expires_at", "valid_from", "valid_to"] ∧
      key ∉ provenanceFields ∧ key ∉ ["created_at", "revision", "updated_at", "version_history", "version_history_truncated"])
    (h : env.prepareWrite (some existing) { id := docId, text, metadata := m } = .ok prepared) :
    prepared.get key = m.get key := by
  obtain ⟨m₁, hm₁, h⟩ := bind_ok.mp h
  obtain ⟨_, -, h⟩ := bind_ok.mp h
  obtain ⟨_, -, h⟩ := bind_ok.mp h
  obtain ⟨m₂, hm₂, h⟩ := bind_ok.mp h
  obtain ⟨stamps, -, hn⟩ := normalize_spec (escaped_ok.mp hm₂)
  have hchecked : m₂.get key = m.get key := by rw [hn.others key hkey.1, expiryForWrite_frame hm₁ hkey.2.1]
  obtain ⟨_, -, h⟩ := bind_ok.mp h
  split at h
  · rw [← pure_ok.mp h, hchecked]
  · obtain ⟨old', new, -, hnew, happended⟩ := append_ok (escaped_ok.mp h)
    obtain ⟨stamps', -, hn'⟩ := normalize_spec hnew
    rw [happended.others key hkey.2.2.1 hkey.2.2.2, hn'.others key hkey.1, hchecked]

theorem prepared_settles (lawful : env.tools.Lawful) (hutc : ∀ t, utcRfc3339.fullMatch (env.tools.isoformat t) = true)
    (h : env.prepareWrite (some existing) { id := docId, text, metadata := m } = .ok prepared) :
    SameDates env.tools m prepared ∧ BoundsSpelled env.tools prepared ∧ StatusSpelled env.tools prepared ∧
      settledStatus env.tools prepared = settledStatus env.tools m ∧
      ∀ v, m.get "superseded_by" = some v → prepared.get "superseded_by" = some v := by
  obtain ⟨m₁, hm₁, h⟩ := bind_ok.mp h
  obtain ⟨_, -, h⟩ := bind_ok.mp h
  obtain ⟨_, -, h⟩ := bind_ok.mp h
  obtain ⟨m₂, hm₂, h⟩ := bind_ok.mp h
  obtain ⟨hspelled, hdates⟩ := expiryForWrite_dates lawful hutc hm₁
  have hfirst : Settles env.tools m₁ m₂ := normalize_settles lawful (escaped_ok.mp hm₂)
  have hrest : Settles env.tools m₂ prepared ∧ StatusSpelled env.tools prepared := by
    obtain ⟨_, -, h⟩ := bind_ok.mp h
    split at h
    · obtain rfl := pure_ok.mp h
      exact ⟨.of_frame fun _ _ => rfl, normalized_spelled (escaped_ok.mp hm₂)⟩
    · obtain ⟨old', new, -, hnew, happended⟩ := append_ok (escaped_ok.mp h)
      obtain ⟨s, hs⟩ := normalized_spelled hnew
      exact ⟨append_settles lawful (escaped_ok.mp h), s, (happended.others _ (by decide) (by decide)).trans hs⟩
  have hall := hfirst.trans hrest.1
  refine ⟨hdates.trans (.of_get (hall.dates hspelled)), hall.spelled hspelled, hrest.2, ?_, fun v hv => ?_⟩
  · rw [hall.status, settled_congr (expiryForWrite_frame hm₁ (by decide))]
  · exact hall.superseded v ((expiryForWrite_frame hm₁ (by decide)).trans hv)

theorem write_over (lawful : env.tools.Lawful) (hutc : ∀ t, utcRfc3339.fullMatch (env.tools.isoformat t) = true)
    (hhistory : listItems (m.value "version_history") = listItems (existing.metadata.value "version_history"))
    (hprepared : env.prepareWrite (some existing) { id := docId, text, metadata := m } = .ok prepared)
    (hpersisted : persistedMetadata env.tools env.now (some existing) { id := docId, text, metadata := prepared } = .ok n) :
    WrittenOver env.tools existing m n := by
  obtain ⟨hdates, hbounds, hspelled, hstatus, hsuperseded⟩ := prepared_settles lawful hutc hprepared
  obtain ⟨m₃, hm₃, hreplacing⟩ := persisted_ok hpersisted
  obtain ⟨stamps, -, hn₃⟩ := normalize_spec hm₃
  obtain ⟨merged, hmerged, hcases⟩ := replacing_ok hreplacing
  have hnormal : Settles env.tools prepared m₃ := normalize_settles lawful hm₃
  have hlast : Settles env.tools merged n := by
    obtain ⟨-, rfl⟩ | ⟨-, happend⟩ := hcases
    · exact .of_frame fun _ _ => rfl
    · exact append_settles lawful happend
  have hall : Settles env.tools m₃ n := (merged_settles hmerged).trans hlast
  refine {
    plain := ((prepareWrite_carries hprepared).trans (persisted_carries hpersisted)).plain
    status := ?_
    dates := hdates.trans (.of_get ((hnormal.trans hall).dates hbounds))
    superseded := fun v hv => (hnormal.trans hall).superseded v (hsuperseded v hv)
    source := ?_
    forgotten := ?_ }
  · have hne : reviewStatus env.tools n ≠ "" := hall.settled (spelled_settles lawful hspelled hm₃)
    rw [← settled_eq hne, (hnormal.trans hall).status, hstatus]
  · -- the provenance of the document is laid over once, or a second time
    have hthird : m₃.get "source_kind" = prepared.get "source_kind" := hn₃.others _ (by decide)
    have hmerge : merged.get "source_kind" = m₃.get "source_kind" := hmerged.others _ (by decide) (by decide)
    obtain ⟨m₁, hm₁, h⟩ := bind_ok.mp hprepared
    obtain ⟨_, -, h⟩ := bind_ok.mp h
    obtain ⟨_, -, h⟩ := bind_ok.mp h
    obtain ⟨m₂, hm₂, h⟩ := bind_ok.mp h
    obtain ⟨stamps₂, -, hn₂⟩ := normalize_spec (escaped_ok.mp hm₂)
    have hsource : m₂.get "source_kind" = m.get "source_kind" := by
      rw [hn₂.others _ (by decide), expiryForWrite_frame hm₁ (by decide)]
    have hversions : m₂.get "version_history" = m.get "version_history" := by
      rw [hn₂.others _ (by decide), expiryForWrite_frame hm₁ (by decide)]
    have hprior : hasPriorVersionSnapshot m₂ (normalizedRevision env.tools existing.metadata) existing.text =
        hasPriorVersionSnapshot existing.metadata (normalizedRevision env.tools existing.metadata) existing.text := by
      rw [hasPrior_congr hversions, hasPrior_items hhistory]
    have hold {docId text : String} {old m n : Metadata} {now : τ}
        (h : appendMemoryVersion env.tools now docId text old m = .ok n) :
        n.get "source_kind" = (old.get "source_kind").or (m.get "source_kind") := by
      obtain ⟨old', new, hold', hnew, happended⟩ := append_ok h
      obtain ⟨_, -, hn⟩ := normalize_spec hold'
      obtain ⟨_, -, hn'⟩ := normalize_spec hnew
      rw [happended.provenance _ (by decide), hn.others _ (by decide), hn'.others _ (by decide)]
    obtain ⟨old, hnormalized, h⟩ := bind_ok.mp h
    rw [normalizedRevision_normalize (escaped_ok.mp hnormalized), hprior] at h
    unfold carriedOver
    split at h
    · rename_i hthere
      rw [if_pos hthere]
      obtain rfl := pure_ok.mp h
      obtain ⟨-, rfl⟩ | ⟨hnone, -⟩ := hcases
      · rw [hmerge, hthird, hsource]
      · rw [hasPrior_congr (hn₃.others _ (by decide)), hprior, hthere] at hnone
        cases hnone
    · rename_i hnot
      rw [if_neg hnot, get_keepFields, if_pos (by decide)]
      have hcarried : prepared.get "source_kind" =
          (existing.metadata.get "source_kind").or (m.get "source_kind") := by
        rw [hold (escaped_ok.mp h), hsource]
      obtain ⟨-, rfl⟩ | ⟨-, happend⟩ := hcases
      · rw [hmerge, hthird, hcarried]
      · rw [hold happend, hmerge, hthird, hcarried]
        cases existing.metadata.get "source_kind" with
        | none => rfl
        | some v => rfl
  · have hkept : m₃.get "soft_forgotten" = m.get "soft_forgotten" := by
      rw [hn₃.others _ (by decide), prepared_frame (by decide) hprepared]
    have hn : n.get "soft_forgotten" = merged.get "soft_forgotten" := by
      obtain ⟨-, rfl⟩ | ⟨-, happend⟩ := hcases
      · rfl
      · obtain ⟨old', new, -, hnew, happended⟩ := append_ok happend
        obtain ⟨_, -, hn'⟩ := normalize_spec hnew
        rw [happended.others _ (by decide) (by decide), hn'.others _ (by decide)]
    rw [hn, ← hkept]
    exact hmerged.lifecycle _ (by decide)

end Over

end Memory
