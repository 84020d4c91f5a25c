import Yuizaki.Memory.Normal
import Yuizaki.Memory.State
import Mathlib.Data.Bool.Basic

/- Normalization and the state of a memory.

   The state is read off keys that normalization leaves alone, off the review status, which it
   spells out, and off the bounds of the validity window. A bound that is no text, or a blank
   one, makes a memory `invalid`, and normalization drops it: then only the other bound keeps
   the memory from recall. Every other part of the state is the same before and after. -/
namespace Memory

open Fallible

variable {τ : Type} [LinearOrder τ] {tools : MetadataTools τ} {now instant : τ} {m n : Metadata} {key : String}

/-! ## Bounds -/

/-- A bound that normalization drops, though it makes the memory invalid. -/
def Dropped (tools : MetadataTools τ) (v : Json) : Prop :=
  isUnset v = false ∧ canonicalTimestamp tools v = .ok none

/-- A text that is no date: normalization keeps it. -/
def Unreadable (tools : MetadataTools τ) (v : Json) : Prop :=
  parseInstant tools v = .ok none ∧ ∃ s, canonicalTimestamp tools v = .ok (some s)

omit [LinearOrder τ] in
theorem parseInstant_canonical (lawful : tools.Lawful) {v : Json} {s : String}
    (h : canonicalTimestamp tools v = .ok (some s)) :
    parseInstant tools (.str s) = parseInstant tools v ∧ isUnset v = false ∧ isUnset (.str s) = false := by
  unfold canonicalTimestamp at h
  split at h
  · rename_i raw
    dsimp only at h
    have hraw : raw ≠ "" → isUnset (.str raw) = false := fun hne => by
      unfold isUnset
      rw [decide_eq_false]
      rintro (hnull | hempty)
      · exact nomatch hnull
      · exact hne (Json.str.inj hempty)
    by_cases hblank : PyStr.strip raw = ""
    · rw [if_pos hblank] at h
      exact nomatch h
    · rw [if_neg hblank] at h
      have hne : raw ≠ "" := fun hempty => hblank (by rw [hempty]; decide)
      cases hparse : tools.parseDate (PyStr.strip raw) with
      | date t =>
        rw [hparse] at h
        obtain rfl := Option.some.inj (Except.ok.inj h)
        refine ⟨?_, hraw hne, ?_⟩
        · unfold parseInstant
          dsimp only
          rw [lawful.strip_isoformat, if_neg (lawful.isoformat_ne t), lawful.parse_isoformat, if_neg hblank, hparse]
        · unfold isUnset
          rw [decide_eq_false]
          rintro (hnull | hempty)
          · exact nomatch hnull
          · exact lawful.isoformat_ne t (Json.str.inj hempty)
      | invalid =>
        rw [hparse] at h
        obtain rfl := Option.some.inj (Except.ok.inj h)
        refine ⟨?_, hraw hne, ?_⟩
        · unfold parseInstant
          dsimp only
          rw [PyStr.strip_strip]
        · unfold isUnset
          rw [decide_eq_false]
          rintro (hnull | hempty)
          · exact nomatch hnull
          · exact hblank (Json.str.inj hempty)
      | outOfRange =>
        rw [hparse] at h
        exact nomatch h
  · exact nomatch h

omit [LinearOrder τ] in
theorem parseInstant_of_none {v : Json} (h : canonicalTimestamp tools v = .ok none) :
    parseInstant tools v = .ok none := by
  cases v with
  | str raw =>
    unfold canonicalTimestamp at h
    unfold parseInstant
    dsimp only at h ⊢
    by_cases hblank : PyStr.strip raw = ""
    · rw [if_pos hblank]
    · rw [if_neg hblank] at h
      cases hparse : tools.parseDate (PyStr.strip raw) with
      | date t =>
        rw [hparse] at h
        exact nomatch Except.ok.inj h
      | invalid =>
        rw [hparse] at h
        exact nomatch Except.ok.inj h
      | outOfRange =>
        rw [hparse] at h
        exact nomatch h
  | _ => rfl

/-- A bound before and after normalization. -/
structure SameBound (tools : MetadataTools τ) (v w : Json) : Prop where
  parse : parseInstant tools w = parseInstant tools v
  kept : ¬ Dropped tools v → isUnset w = isUnset v
  dropped : Dropped tools v → isUnset w = true

omit [LinearOrder τ] in
theorem same_bound (lawful : tools.Lawful) {v : Json} {read : Option String}
    (hread : canonicalTimestamp tools v = .ok read) (hget : n.get key = read.map .str) :
    SameBound tools v (n.value key) := by
  cases read with
  | none =>
    have hnull : n.value key = .null := by
      rw [Metadata.value, hget]
      rfl
    rw [hnull]
    refine ⟨(parseInstant_of_none hread).symm, fun hkept => ?_, fun _ => rfl⟩
    cases hunset : isUnset v with
    | true => rfl
    | false => exact absurd ⟨hunset, hread⟩ hkept
  | some s =>
    obtain ⟨hparse, hset, hset'⟩ := parseInstant_canonical lawful hread
    have hvalue : n.value key = .str s := value_eq hget
    rw [hvalue]
    refine ⟨hparse, fun _ => hset'.trans hset.symm, fun hdropped => ?_⟩
    have hnone := Except.ok.inj (hdropped.2.symm.trans hread)
    cases hnone

/-! ## What the state is read off -/

/-- Metadata that nothing but its dates keeps from recall. -/
def Dated (tools : MetadataTools τ) (m : Metadata) : Prop :=
  (m.value "candidate_deleted").truthy = false ∧ (m.value "soft_forgotten").truthy = false ∧
    awaitsReview tools m = false ∧ reviewStatus tools m ∉ nonRecallableReviewStatuses ∧
    (m.value "superseded_by").truthy = false

theorem reviewStatus_normalized (lawful : tools.Lawful)
    (hreview : n.get "review_status" = some (.str (normalizedReviewStatus tools m))) :
    reviewStatus tools n = reviewStatus tools m ∨
      reviewStatus tools n = "unreviewed" ∧ reviewStatus tools m = "" := by
  have hword : reviewStatus tools n = normalizedReviewStatus tools m := by
    unfold reviewStatus MetadataTools.word
    rw [value_eq hreview]
    have hor : (Json.str (normalizedReviewStatus tools m)).or (.str "") = .str (normalizedReviewStatus tools m) := by
      unfold Json.or
      split
      · rfl
      · rename_i hfalse
        have hempty : normalizedReviewStatus tools m = "" := by
          simpa [Json.truthy] using hfalse
        rw [hempty]
    rw [hor]
    unfold normalizedReviewStatus MetadataTools.str
    dsimp only
    rw [lawful.strip_lower, lawful.lower_lower]
  rw [hword]
  unfold normalizedReviewStatus reviewStatus MetadataTools.word Json.or
  by_cases htruthy : (m.value "review_status").truthy = true
  · rw [if_pos htruthy, if_pos htruthy]
    exact Or.inl rfl
  · rw [if_neg htruthy, if_neg htruthy]
    right
    refine ⟨?_, ?_⟩
    · show PyStr.lower tools.wide (PyStr.strip "unreviewed") = "unreviewed"
      unfold PyStr.lower
      rw [if_pos (by decide +kernel)]
      decide +kernel
    · show PyStr.lower tools.wide (PyStr.strip "") = ""
      unfold PyStr.lower
      rw [if_pos (by decide +kernel)]
      decide +kernel

/-- What the state reads beside the dates. -/
structure SameFlags (tools : MetadataTools τ) (m n : Metadata) : Prop where
  deleted : n.value "candidate_deleted" = m.value "candidate_deleted"
  forgotten : n.value "soft_forgotten" = m.value "soft_forgotten"
  superseded : n.value "superseded_by" = m.value "superseded_by"
  expires : n.value "expires_at" = m.value "expires_at"
  awaits : awaitsReview tools n = awaitsReview tools m
  status : reviewStatus tools n = reviewStatus tools m ∨
    reviewStatus tools n ∉ nonRecallableReviewStatuses ∧ reviewStatus tools m ∉ nonRecallableReviewStatuses

theorem same_flags (lawful : tools.Lawful) {stamps : Timestamps} (h : Normalized tools m n stamps) :
    SameFlags tools m n := by
  have hkeep : ∀ k, k ∉ normalizedKeys → n.value k = m.value k := fun k hk => by
    rw [Metadata.value, Metadata.value, h.others k hk]
  have hcandidate := hkeep "candidate" (by decide)
  have hadmitted : isAutoAdmittedCandidate tools n = isAutoAdmittedCandidate tools m := by
    unfold isAutoAdmittedCandidate
    rw [hcandidate, hkeep "sensitive_category" (by decide), hkeep "sensitivity" (by decide),
      hkeep "source_kind" (by decide), hkeep "event_kind" (by decide)]
  have hstatus := reviewStatus_normalized lawful h.review
  refine ⟨hkeep _ (by decide), hkeep _ (by decide), ?_, hkeep _ (by decide), ?_, ?_⟩
  · rw [Metadata.value, h.supersededBy]
    rfl
  · unfold awaitsReview
    rw [hcandidate, hadmitted]
    obtain heq | ⟨hn, hm⟩ := hstatus
    · rw [heq]
    · have hboth : ("unreviewed" ∈ ["", "unreviewed", "pending", "review"]) = ("" ∈ ["", "unreviewed", "pending", "review"]) :=
        propext ⟨fun _ => List.mem_cons_self, fun _ => List.mem_cons_of_mem _ List.mem_cons_self⟩
      simp only [hn, hm, hboth]
  · obtain heq | ⟨hn, hm⟩ := hstatus
    · exact Or.inl heq
    · rw [hn, hm]
      exact Or.inr ⟨by decide, by decide⟩

theorem memoryState_dated (h : Dated tools m) : memoryState tools instant m = datedState tools instant m := by
  obtain ⟨hdeleted, hforgotten, hawaits, hstatus, hsuperseded⟩ := h
  unfold memoryState
  rw [hdeleted, hforgotten, hawaits, hsuperseded, if_neg Bool.false_ne_true, if_neg Bool.false_ne_true,
    if_neg Bool.false_ne_true, if_neg hstatus, if_neg Bool.false_ne_true]

omit [LinearOrder τ] in
theorem SameFlags.dated (h : SameFlags tools m n) : Dated tools n ↔ Dated tools m := by
  unfold Dated
  rw [h.deleted, h.forgotten, h.superseded, h.awaits]
  obtain heq | ⟨hn, hm⟩ := h.status
  · rw [heq]
  · rw [eq_true hn, eq_true hm]

theorem SameFlags.state (h : SameFlags tools m n) (hdated : ¬ Dated tools m) :
    memoryState tools instant n = memoryState tools instant m := by
  unfold memoryState
  rw [h.deleted, h.forgotten, h.superseded, h.awaits]
  by_cases hdeleted : (m.value "candidate_deleted").truthy = true
  · rw [if_pos hdeleted, if_pos hdeleted]
  · rw [if_neg hdeleted, if_neg hdeleted]
    by_cases hforgotten : (m.value "soft_forgotten").truthy = true
    · rw [if_pos hforgotten, if_pos hforgotten]
    · rw [if_neg hforgotten, if_neg hforgotten]
      by_cases hawaits : awaitsReview tools m = true
      · rw [if_pos hawaits, if_pos hawaits]
      · rw [if_neg hawaits, if_neg hawaits]
        obtain heq | ⟨hn, hm⟩ := h.status
        · rw [heq]
          by_cases hstatus : reviewStatus tools m ∈ nonRecallableReviewStatuses
          · rw [if_pos hstatus, if_pos hstatus]
          · by_cases hsuperseded : (m.value "superseded_by").truthy = true
            · rw [if_pos hsuperseded, if_pos hsuperseded]
            · exact absurd ⟨eq_false_of_ne_true hdeleted, eq_false_of_ne_true hforgotten, eq_false_of_ne_true hawaits,
                hstatus, eq_false_of_ne_true hsuperseded⟩ hdated
        · rw [if_neg hn, if_neg hm]
          by_cases hsuperseded : (m.value "superseded_by").truthy = true
          · rw [if_pos hsuperseded, if_pos hsuperseded]
          · exact absurd ⟨eq_false_of_ne_true hdeleted, eq_false_of_ne_true hforgotten, eq_false_of_ne_true hawaits,
              hm, eq_false_of_ne_true hsuperseded⟩ hdated

/-! ## What the dates say -/

/-- A bound is dropped, and no other bound that cannot be read keeps the memory invalid. -/
def Revived (tools : MetadataTools τ) (m : Metadata) : Prop :=
  (Dropped tools (m.value "valid_from") ∨ Dropped tools (m.value "valid_to")) ∧
    ¬ Unreadable tools (m.value "valid_from") ∧ ¬ Unreadable tools (m.value "valid_to")

theorem hasInvalidValidity_eq {a b : Option τ} (hfrom : parseInstant tools (m.value "valid_from") = .ok a)
    (hto : parseInstant tools (m.value "valid_to") = .ok b) :
    hasInvalidValidity tools m = .ok (decide ((isUnset (m.value "valid_from") = false ∧ a = none) ∨
      (isUnset (m.value "valid_to") = false ∧ b = none) ∨ reversed a b = true)) := by
  unfold hasInvalidValidity
  rw [hfrom, hto]
  rfl

theorem datedState_congr (hinvalid : hasInvalidValidity tools n = hasInvalidValidity tools m)
    (hfrom : parseInstant tools (n.value "valid_from") = parseInstant tools (m.value "valid_from"))
    (hto : parseInstant tools (n.value "valid_to") = parseInstant tools (m.value "valid_to"))
    (hexpires : n.value "expires_at" = m.value "expires_at") :
    datedState tools instant n = datedState tools instant m := by
  unfold datedState isMemoryExpired
  rw [hinvalid, hfrom, hto, hexpires]

theorem datedState_ne_invalid (h : hasInvalidValidity tools m = .ok false) :
    datedState tools instant m ≠ .ok "invalid" := by
  unfold datedState
  rw [h]
  dsimp only [bind, Except.bind]
  intro hinvalid
  rw [if_neg (by decide)] at hinvalid
  cases hexpired : isMemoryExpired tools instant m with
  | error e =>
    rw [hexpired] at hinvalid
    cases hinvalid
  | ok expired =>
    rw [hexpired] at hinvalid
    cases expired with
    | true => exact absurd (Except.ok.inj hinvalid) (by decide)
    | false =>
      cases hto : parseInstant tools (m.value "valid_to") with
      | error e =>
        rw [hto] at hinvalid
        cases hinvalid
      | ok b =>
        rw [hto] at hinvalid
        dsimp only at hinvalid
        rw [if_neg (by decide)] at hinvalid
        by_cases hended : b.any (· ≤ instant) = true
        · rw [if_pos hended] at hinvalid
          exact absurd (Except.ok.inj hinvalid) (by decide)
        · rw [if_neg hended] at hinvalid
          cases hfrom : parseInstant tools (m.value "valid_from") with
          | error e =>
            rw [hfrom] at hinvalid
            cases hinvalid
          | ok a =>
            rw [hfrom] at hinvalid
            dsimp only at hinvalid
            by_cases hlater : a.any (instant < ·) = true
            · rw [if_pos hlater] at hinvalid
              exact absurd (Except.ok.inj hinvalid) (by decide)
            · rw [if_neg hlater] at hinvalid
              exact absurd (Except.ok.inj hinvalid) (by decide)

/-! ## The state before and after -/

omit [LinearOrder τ] in
theorem parseInstant_ok (lawful : tools.Lawful) {v : Json} {read : Option String}
    (h : canonicalTimestamp tools v = .ok read) : ∃ a, parseInstant tools v = .ok a := by
  cases read with
  | none => exact ⟨none, parseInstant_of_none h⟩
  | some s =>
    obtain ⟨hparse, -⟩ := parseInstant_canonical lawful h
    have hcanonical := canonical_read lawful h
    unfold Canonical canonicalTimestamp at hcanonical
    rw [← hparse]
    unfold parseInstant
    dsimp only at hcanonical ⊢
    by_cases hblank : PyStr.strip s = ""
    · rw [if_pos hblank]
      exact ⟨none, rfl⟩
    · rw [if_neg hblank] at hcanonical ⊢
      cases hdate : tools.parseDate (PyStr.strip s) with
      | date t => exact ⟨some t, rfl⟩
      | invalid => exact ⟨none, rfl⟩
      | outOfRange =>
        rw [hdate] at hcanonical
        exact nomatch hcanonical

omit [LinearOrder τ] in
theorem dropped_or_unreadable {v : Json} {read : Option String} (hread : canonicalTimestamp tools v = .ok read)
    (hset : isUnset v = false) (hnone : parseInstant tools v = .ok none) : Dropped tools v ∨ Unreadable tools v := by
  cases read with
  | none => exact Or.inl ⟨hset, hread⟩
  | some s => exact Or.inr ⟨hnone, s, hread⟩

omit [LinearOrder τ] in
theorem Unreadable.not_dropped {v : Json} (h : Unreadable tools v) : ¬ Dropped tools v := by
  obtain ⟨-, s, hread⟩ := h
  exact fun hdropped => nomatch Except.ok.inj (hdropped.2.symm.trans hread)

theorem hasInvalidValidity_normalized (lawful : tools.Lawful) {readFrom readTo : Option String}
    (hreadFrom : canonicalTimestamp tools (m.value "valid_from") = .ok readFrom)
    (hreadTo : canonicalTimestamp tools (m.value "valid_to") = .ok readTo)
    (hfrom : SameBound tools (m.value "valid_from") (n.value "valid_from"))
    (hto : SameBound tools (m.value "valid_to") (n.value "valid_to")) :
    Revived tools m ∧ hasInvalidValidity tools m = .ok true ∧ hasInvalidValidity tools n = .ok false ∨
      ¬ Revived tools m ∧ hasInvalidValidity tools n = hasInvalidValidity tools m := by
  obtain ⟨a, ha⟩ := parseInstant_ok lawful hreadFrom
  obtain ⟨b, hb⟩ := parseInstant_ok lawful hreadTo
  rw [hasInvalidValidity_eq ha hb, hasInvalidValidity_eq (hfrom.parse.trans ha) (hto.parse.trans hb)]
  have hnone {v : Json} {c : Option τ} (hc : parseInstant tools v = .ok c) (hdropped : Dropped tools v) : c = none :=
    Except.ok.inj (hc.symm.trans (parseInstant_of_none hdropped.2))
  by_cases hrevived : Revived tools m
  · obtain ⟨hdropped, hreadableFrom, hreadableTo⟩ := hrevived
    have hreversed : reversed a b = false := by
      obtain hd | hd := hdropped
      · rw [hnone ha hd]
        rfl
      · rw [hnone hb hd]
        cases a <;> rfl
    refine Or.inl ⟨⟨hdropped, hreadableFrom, hreadableTo⟩, congrArg Except.ok (decide_eq_true ?_),
      congrArg Except.ok (decide_eq_false ?_)⟩
    · obtain hd | hd := hdropped
      · exact Or.inl ⟨hd.1, hnone ha hd⟩
      · exact Or.inr (Or.inl ⟨hd.1, hnone hb hd⟩)
    · -- what is left of the window has no bound that cannot be read
      rintro (⟨hset, hempty⟩ | ⟨hset, hempty⟩ | hbackwards)
      · by_cases hd : Dropped tools (m.value "valid_from")
        · exact Bool.false_ne_true (hset.symm.trans (hfrom.dropped hd))
        · rw [hfrom.kept hd] at hset
          rw [hempty] at ha
          exact (dropped_or_unreadable hreadFrom hset ha).elim hd hreadableFrom
      · by_cases hd : Dropped tools (m.value "valid_to")
        · exact Bool.false_ne_true (hset.symm.trans (hto.dropped hd))
        · rw [hto.kept hd] at hset
          rw [hempty] at hb
          exact (dropped_or_unreadable hreadTo hset hb).elim hd hreadableTo
      · exact Bool.false_ne_true (hreversed.symm.trans hbackwards)
  · refine Or.inr ⟨hrevived, ?_⟩
    by_cases hdropped : Dropped tools (m.value "valid_from") ∨ Dropped tools (m.value "valid_to")
    · -- a text that is no date keeps the window invalid
      have htext : Unreadable tools (m.value "valid_from") ∨ Unreadable tools (m.value "valid_to") := by
        by_cases hu : Unreadable tools (m.value "valid_from")
        · exact Or.inl hu
        · by_cases hv : Unreadable tools (m.value "valid_to")
          · exact Or.inr hv
          · exact absurd ⟨hdropped, hu, hv⟩ hrevived
      have hset {v w : Json} (hsame : SameBound tools v w) (hu : Unreadable tools v) :
          isUnset v = false ∧ isUnset w = false := by
        obtain ⟨s, hs⟩ := hu.2
        have hv := (parseInstant_canonical lawful hs).2.1
        exact ⟨hv, (hsame.kept hu.not_dropped).trans hv⟩
      obtain hu | hu := htext
      · have hempty : a = none := Except.ok.inj (ha.symm.trans hu.1)
        rw [decide_eq_true (Or.inl ⟨(hset hfrom hu).2, hempty⟩), decide_eq_true (Or.inl ⟨(hset hfrom hu).1, hempty⟩)]
      · have hempty : b = none := Except.ok.inj (hb.symm.trans hu.1)
        rw [decide_eq_true (Or.inr (Or.inl ⟨(hset hto hu).2, hempty⟩)),
          decide_eq_true (Or.inr (Or.inl ⟨(hset hto hu).1, hempty⟩))]
    · have hkeptFrom := hfrom.kept fun hd => hdropped (Or.inl hd)
      have hkeptTo := hto.kept fun hd => hdropped (Or.inr hd)
      rw [hkeptFrom, hkeptTo]

/-- The states before and after normalization differ where the dates decide and a bound that
    made the memory invalid was dropped. -/
theorem state_eq_iff (lawful : tools.Lawful) (h : normalizeMemoryMetadata tools now m = .ok n) :
    memoryState tools instant n = memoryState tools instant m ↔ ¬ (Dated tools m ∧ Revived tools m) := by
  obtain ⟨stamps, hstamps, hn⟩ := normalize_spec h
  have hflags := same_flags lawful hn
  by_cases hdated : Dated tools m
  · rw [memoryState_dated hdated, memoryState_dated (hflags.dated.mpr hdated)]
    simp only [normalizedTimestamps, Fallible.bind_ok, Fallible.pure_ok] at hstamps
    obtain ⟨_, _, _, _, _, _, _, _, _, _, readFrom, hreadFrom, readTo, hreadTo, rfl⟩ := hstamps
    have hfrom := same_bound lawful hreadFrom hn.validFrom
    have hto := same_bound lawful hreadTo hn.validTo
    obtain ⟨hrevived, hinvalid, hvalid⟩ | ⟨hrevived, hsame⟩ :=
      hasInvalidValidity_normalized lawful hreadFrom hreadTo hfrom hto
    · have hstate : datedState tools instant m = .ok "invalid" := by
        unfold datedState
        rw [hinvalid]
        rfl
      rw [hstate]
      exact ⟨fun heq => absurd heq (datedState_ne_invalid hvalid), fun hnot => absurd ⟨hdated, hrevived⟩ hnot⟩
    · rw [datedState_congr hsame hfrom.parse hto.parse hflags.expires]
      exact ⟨fun _ hboth => hrevived hboth.2, fun _ => rfl⟩
  · rw [hflags.state hdated]
    exact ⟨fun _ hboth => hdated hboth.1, fun _ => rfl⟩

/-! ## The closure -/

def timestampKeys : List String :=
  ["timestamp", "created_at", "updated_at", "occurred_at", "ingested_at", "valid_from", "valid_to"]

/-- A timestamp that is a date beyond the range of dates. -/
def OutOfRange (tools : MetadataTools τ) (v : Json) : Prop :=
  ∃ s, v = .str s ∧ PyStr.strip s ≠ "" ∧ tools.parseDate (PyStr.strip s) = .outOfRange

omit [LinearOrder τ] in
theorem canonical_ok_iff {v : Json} : (∃ read, canonicalTimestamp tools v = .ok read) ↔ ¬ OutOfRange tools v := by
  constructor
  · rintro ⟨read, hread⟩ ⟨s, rfl, hblank, hparse⟩
    unfold canonicalTimestamp at hread
    dsimp only at hread
    rw [if_neg hblank, hparse] at hread
    exact nomatch hread
  · intro hrange
    unfold canonicalTimestamp
    split
    · rename_i s
      dsimp only
      by_cases hblank : PyStr.strip s = ""
      · rw [if_pos hblank]
        exact ⟨none, rfl⟩
      · rw [if_neg hblank]
        cases hparse : tools.parseDate (PyStr.strip s) with
        | date t => exact ⟨_, rfl⟩
        | invalid => exact ⟨_, rfl⟩
        | outOfRange => exact absurd ⟨s, rfl, hblank, hparse⟩ hrange
    · exact ⟨none, rfl⟩

omit [LinearOrder τ] in
theorem normalize_ok_iff : (∃ n, normalizeMemoryMetadata tools now m = .ok n) ↔
    ∀ key ∈ timestampKeys, ¬ OutOfRange tools (m.value key) := by
  constructor
  · rintro ⟨n, hn⟩ key hkey
    obtain ⟨stamps, hstamps, -⟩ := normalize_ok.mp hn
    simp only [normalizedTimestamps, Fallible.bind_ok, Fallible.pure_ok] at hstamps
    obtain ⟨a, ha, b, hb, c, hc, d, hd, e, he, f, hf, g, hg, -⟩ := hstamps
    simp only [timestampKeys, List.mem_cons, List.not_mem_nil, or_false] at hkey
    obtain rfl | rfl | rfl | rfl | rfl | rfl | rfl := hkey
    · exact canonical_ok_iff.mp ⟨a, ha⟩
    · exact canonical_ok_iff.mp ⟨b, hb⟩
    · exact canonical_ok_iff.mp ⟨c, hc⟩
    · exact canonical_ok_iff.mp ⟨d, hd⟩
    · exact canonical_ok_iff.mp ⟨e, he⟩
    · exact canonical_ok_iff.mp ⟨f, hf⟩
    · exact canonical_ok_iff.mp ⟨g, hg⟩
  · intro hrange
    obtain ⟨a, ha⟩ := canonical_ok_iff.mpr (hrange "timestamp" (by decide))
    obtain ⟨b, hb⟩ := canonical_ok_iff.mpr (hrange "created_at" (by decide))
    obtain ⟨c, hc⟩ := canonical_ok_iff.mpr (hrange "updated_at" (by decide))
    obtain ⟨d, hd⟩ := canonical_ok_iff.mpr (hrange "occurred_at" (by decide))
    obtain ⟨e, he⟩ := canonical_ok_iff.mpr (hrange "ingested_at" (by decide))
    obtain ⟨f, hf⟩ := canonical_ok_iff.mpr (hrange "valid_from" (by decide))
    obtain ⟨g, hg⟩ := canonical_ok_iff.mpr (hrange "valid_to" (by decide))
    have hstamps : ∃ stamps, normalizedTimestamps tools now m = .ok stamps := by
      simp only [normalizedTimestamps, ha, hb, hc, hd, he, hf, hg, bind, Except.bind]
      exact ⟨_, rfl⟩
    obtain ⟨stamps, hstamps⟩ := hstamps
    exact ⟨normalizedFields tools m stamps, normalize_ok.mpr ⟨stamps, hstamps, rfl⟩⟩

/-- A memory whose normal form has its state at every instant, and is its own normal form. -/
def Preserved (tools : MetadataTools τ) (now : τ) (m : Metadata) : Prop :=
  ∃ n, normalizeMemoryMetadata tools now m = .ok n ∧
    (∀ instant, memoryState tools instant n = memoryState tools instant m) ∧
    ∀ later, normalizeMemoryMetadata tools later n = .ok n

omit [LinearOrder τ] in
theorem reviewNamed_of_fixed (h : normalizeMemoryMetadata tools now m = .ok n)
    (hfixed : normalizeMemoryMetadata tools now n = .ok n) : ReviewNamed tools m := by
  intro htruthy hblank
  obtain ⟨_, -, hn⟩ := normalize_spec h
  obtain ⟨_, -, hagain⟩ := normalize_spec hfixed
  have hlower (s : String) (hs : s.toList.all (fun c => c.toNat < 128) = true) :
      PyStr.lower tools.wide s = PyStr.lowerAscii s := by
    unfold PyStr.lower
    rw [if_pos hs]
  have hempty : normalizedReviewStatus tools m = "" := by
    unfold normalizedReviewStatus Json.or
    rw [if_pos htruthy, hblank, hlower "" (by decide)]
    decide
  have hvalue : n.value "review_status" = .str "" := by
    rw [value_eq hn.review, hempty]
  have hsecond : normalizedReviewStatus tools n = "unreviewed" := by
    unfold normalizedReviewStatus
    rw [hvalue]
    show PyStr.lower tools.wide (PyStr.strip "unreviewed") = "unreviewed"
    rw [hlower _ (by decide +kernel)]
    decide +kernel
  have hsame := hn.review.symm.trans hagain.review
  rw [hempty, hsecond] at hsame
  exact absurd (Json.str.inj (Option.some.inj hsame)) (by decide)

/-- **Normalization keeps the state and is done in one round**, exactly where no timestamp is out
    of range, the review status is no blank text, and no memory that only its dates keep from
    recall loses a malformed bound. -/
theorem normalization_preserves (lawful : tools.Lawful) (now : τ) (m : Metadata) :
    Preserved tools now m ↔ (∀ key ∈ timestampKeys, ¬ OutOfRange tools (m.value key)) ∧ ReviewNamed tools m ∧
      ¬ (Dated tools m ∧ Revived tools m) := by
  constructor
  · rintro ⟨n, hn, hstate, hfixed⟩
    exact ⟨normalize_ok_iff.mp ⟨n, hn⟩, reviewNamed_of_fixed hn (hfixed now), (state_eq_iff lawful hn).mp (hstate now)⟩
  · rintro ⟨hrange, hreview, hkept⟩
    obtain ⟨n, hn⟩ := (@normalize_ok_iff _ tools now m).mpr hrange
    have hnormal := normal_normalize lawful hn hreview
    exact ⟨n, hn, fun instant => (state_eq_iff lawful hn).mpr hkept, fun later => hnormal.normalize⟩

/-- A memory with a note about it is preserved. -/
theorem normalization_preserves_note : Preserved newYear false (Metadata.ofEntries [("note", .str "tea")]) := by
  refine (normalization_preserves newYear_lawful false (Metadata.ofEntries [("note", .str "tea")])).mpr ⟨?_, ?_, ?_⟩
  · intro key hkey
    simp only [timestampKeys, List.mem_cons, List.not_mem_nil, or_false] at hkey
    obtain rfl | rfl | rfl | rfl | rfl | rfl | rfl := hkey <;> exact fun ⟨s, hs, _⟩ => nomatch hs
  · exact fun htruthy => absurd htruthy (by decide +kernel)
  · rintro ⟨-, ⟨hset, -⟩ | ⟨hset, -⟩, -⟩
    · exact absurd hset (by decide +kernel)
    · exact absurd hset (by decide +kernel)

/-- A bound that is a number makes a memory invalid, and normalization makes it active. -/
theorem number_bound_revived :
    memoryState newYear false (Metadata.ofEntries [("valid_to", .int 5)]) = .ok "invalid" ∧
      (normalizeMemoryMetadata newYear false (Metadata.ofEntries [("valid_to", .int 5)])).bind
        (memoryState newYear false) = .ok "active" := by
  decide +kernel

end Memory
