import Yuizaki.Memory.Persist
import Yuizaki.Memory.Write

/- What a write carries over.

   Between a route and the table the metadata is normalized several times, its dates are put
   into one spelling, a version is appended and the histories of the stored row are laid under
   it. `Carries` says what none of these steps touches: the fields that the module does not
   write, the marks of a memory that is forgotten, and the outcome of a review. -/
namespace Memory

open Fallible

variable {τ : Type} {tools : MetadataTools τ} {now : τ} {m n k : Metadata} {key : String}

/-! ## What is carried -/

/-- The keys that some step of a write sets or takes away. -/
def writtenKeys : List String :=
  normalizedKeys ++ provenanceFields ++ historyKeys ++ lifecycleFields ++
    ["expires_at", "version_history", "version_history_truncated"]

/-- The marks of a memory that is forgotten. -/
def forgottenKeys : List String := ["soft_forgotten", "soft_forgotten_at", "soft_forget_turn_id"]

/-- The outcomes of a review, in the one spelling. -/
def reviewOutcomes : List String := ["pending", "approved", "rejected", "deleted"]

structure Carries (m n : Metadata) : Prop where
  plain : ∀ key, key ∉ writtenKeys → n.get key = m.get key
  forgotten : ∀ key ∈ forgottenKeys, ∀ v, m.get key = some v → n.get key = some v
  status : ∀ status ∈ reviewOutcomes, m.get "review_status" = some (.str status) →
    n.get "review_status" = some (.str status)

theorem Carries.refl (m : Metadata) : Carries m m := ⟨fun _ _ => rfl, fun _ _ _ h => h, fun _ _ h => h⟩

theorem Carries.trans (h : Carries m n) (h' : Carries n k) : Carries m k where
  plain key hkey := (h'.plain key hkey).trans (h.plain key hkey)
  forgotten key hkey v hv := h'.forgotten key hkey v (h.forgotten key hkey v hv)
  status status hmem hs := h'.status status hmem (h.status status hmem hs)

theorem Carries.of_frame {keys : List String} (hframe : ∀ key, key ∉ keys → n.get key = m.get key)
    (hwritten : ∀ key ∈ keys, key ∈ writtenKeys ∧ key ∉ forgottenKeys ∧ key ≠ "review_status") :
    Carries m n where
  plain key hkey := hframe key fun hmem => hkey (hwritten key hmem).1
  forgotten key hkey v hv := by
    rw [hframe key fun hmem => (hwritten key hmem).2.1 hkey]
    exact hv
  status status _ hs := by
    rw [hframe _ fun hmem => (hwritten _ hmem).2.2 rfl]
    exact hs

/-! ## The steps -/

theorem outcome_spelled : ∀ status ∈ reviewOutcomes, status ≠ "" ∧ PyStr.strip status = status ∧
    status.toList.all (fun c => c.toNat < 128) = true ∧ PyStr.lowerAscii status = status := by
  decide +kernel

theorem outcome_lower {status : String} (wide : String → String) (hmem : status ∈ reviewOutcomes) :
    PyStr.lower wide status = status := by
  obtain ⟨-, -, hascii, hlower⟩ := outcome_spelled status hmem
  rw [PyStr.lower, if_pos hascii, hlower]

theorem outcome_word {status default : String} (hmem : status ∈ reviewOutcomes) :
    tools.word (.str status) default = status := by
  obtain ⟨hne, hstrip, -, -⟩ := outcome_spelled status hmem
  have htruthy : (Json.str status).truthy = true := decide_eq_true hne
  rw [MetadataTools.word, Json.or, if_pos htruthy, MetadataTools.str, hstrip]
  exact outcome_lower tools.wide hmem

theorem outcome_normal {status : String} (hmem : status ∈ reviewOutcomes)
    (h : m.get "review_status" = some (.str status)) : normalizedReviewStatus tools m = status := by
  have hword : tools.word (.str status) "unreviewed" = status := outcome_word hmem
  rw [normalizedReviewStatus, value_eq h]
  exact hword

theorem normalize_carries (h : normalizeMemoryMetadata tools now m = .ok n) : Carries m n := by
  obtain ⟨stamps, -, hn⟩ := normalize_spec h
  refine ⟨fun key hkey => ?_, fun key hkey v hv => ?_, fun status hmem hs => ?_⟩
  · refine hn.others key fun hmem => hkey ?_
    simp only [writtenKeys, List.append_assoc]
    exact List.mem_append_left _ hmem
  · have hother : key ∉ normalizedKeys := by
      simp only [forgottenKeys, List.mem_cons, List.not_mem_nil, or_false] at hkey
      rcases hkey with rfl | rfl | rfl <;> decide
    rw [hn.others key hother]
    exact hv
  · rw [hn.review, outcome_normal hmem hs]

theorem expiry_frame [LinearOrder τ] (h : normalizeMemoryExpiry tools now m = .ok n) (hkey : key ≠ "expires_at") :
    n.get key = m.get key := by
  unfold normalizeMemoryExpiry at h
  split at h
  · cases h
  · obtain rfl := Except.ok.inj h
    rw [Dict.get_erase, if_neg hkey]
  · split at h
    · cases h
    · obtain rfl := Except.ok.inj h
      rw [Dict.get_set_of_ne hkey]

theorem bound_frame {bound : String} {instant : Option τ} (h : normalizeBound tools m bound = .ok (n, instant))
    (hkey : key ≠ bound) : n.get key = m.get key := by
  unfold normalizeBound at h
  split at h
  · obtain ⟨rfl, -⟩ := Prod.mk.inj (Except.ok.inj h)
    rw [Dict.get_erase, if_neg hkey]
  · split at h
    · cases h
    · cases h
    · split at h
      · cases h
      · cases h
      · obtain ⟨rfl, -⟩ := Prod.mk.inj (Except.ok.inj h)
        rw [Dict.get_set_of_ne hkey]

theorem validity_frame [LinearOrder τ] (h : normalizeMemoryValidity tools m = .ok n) (hfrom : key ≠ "valid_from")
    (hto : key ≠ "valid_to") : n.get key = m.get key := by
  unfold normalizeMemoryValidity at h
  obtain ⟨⟨n₁, validFrom⟩, hn₁, h⟩ := bind_ok.mp h
  obtain ⟨⟨n₂, validTo⟩, hn₂, h⟩ := bind_ok.mp h
  obtain ⟨_, -, h⟩ := bind_ok.mp h
  obtain rfl := pure_ok.mp h
  rw [bound_frame hn₂ hto, bound_frame hn₁ hfrom]

theorem expiryForWrite_frame [LinearOrder τ] {env : Router τ} (h : env.normalizeExpiryForWrite m = .ok n)
    (hkey : key ∉ ["expires_at", "valid_from", "valid_to"]) : n.get key = m.get key := by
  simp only [List.mem_cons, List.not_mem_nil, or_false, not_or] at hkey
  obtain ⟨hexpiry, hfrom, hto⟩ := hkey
  obtain ⟨n₁, hn₁, hn⟩ := bind_ok.mp (badRequest_ok.mp h)
  rw [validity_frame hn hfrom hto, expiry_frame hn₁ hexpiry]

theorem expiryForWrite_carries [LinearOrder τ] {env : Router τ} (h : env.normalizeExpiryForWrite m = .ok n) : Carries m n := by
  refine Carries.of_frame (fun _ hkey => expiryForWrite_frame h hkey) fun key hkey => ?_
  simp only [List.mem_cons, List.not_mem_nil, or_false] at hkey
  rcases hkey with rfl | rfl | rfl <;> decide

theorem append_carries {docId oldText : String} {oldMetadata : Metadata}
    (h : appendMemoryVersion tools now docId oldText oldMetadata m = .ok n) : Carries m n := by
  obtain ⟨old, new, -, hnew, happended⟩ := append_ok h
  refine (normalize_carries hnew).trans ?_
  have hframe (key : String) (hkey : key ∉ provenanceFields ++ ["created_at", "revision", "updated_at",
      "version_history", "version_history_truncated"]) : n.get key = new.get key := by
    obtain ⟨hprovenance, hversion⟩ := not_or.mp (fun h => hkey (List.mem_append.mpr h))
    exact happended.others key hprovenance hversion
  refine Carries.of_frame hframe fun key hkey => ?_
  simp only [provenanceFields, List.cons_append, List.nil_append, List.mem_cons, List.not_mem_nil,
    or_false] at hkey
  rcases hkey with rfl | rfl | rfl | rfl | rfl | rfl | rfl | rfl | rfl | rfl <;> decide

theorem merged_carries {row : Content} (h : Merged row m n) : Carries m n := by
  refine ⟨fun key hkey => ?_, fun key hkey v hv => ?_, fun status _ hs => ?_⟩
  · refine h.others key (fun hmem => hkey ?_) fun hmem => hkey ?_
    · simp [writtenKeys, hmem]
    · simp [writtenKeys, hmem]
  · have hlifecycle : key ∈ lifecycleFields := by
      simp only [forgottenKeys, List.mem_cons, List.not_mem_nil, or_false] at hkey
      rcases hkey with rfl | rfl | rfl <;> decide
    obtain hsame | ⟨hnone, -⟩ := h.lifecycle key hlifecycle
    · rw [hsame]
      exact hv
    · rw [hv] at hnone
      cases hnone
  · rw [h.others _ (by decide) (by decide)]
    exact hs

/-! ## A write -/

theorem persisted_carries {existing : Option Content} {doc : Document}
    (h : persistedMetadata tools now existing doc = .ok n) : Carries doc.metadata n := by
  obtain ⟨metadata, hmetadata, hrest⟩ := persisted_ok h
  refine (normalize_carries hmetadata).trans ?_
  cases existing with
  | none =>
    rw [show n = metadata from hrest]
    exact Carries.refl metadata
  | some row =>
    obtain ⟨merged, hmerged, ⟨-, rfl⟩ | ⟨-, happend⟩⟩ := replacing_ok hrest
    · exact merged_carries hmerged
    · exact (merged_carries hmerged).trans (append_carries happend)

variable {env : Router τ} {doc : Document} {existing : Option Content}

theorem keepVersion_carries {docId : String} {content : Content} (h : env.keepVersion docId content m = .ok n) :
    Carries m n := by
  obtain ⟨old, -, h⟩ := bind_ok.mp h
  split at h
  · obtain rfl := pure_ok.mp h
    exact Carries.refl m
  · exact append_carries (escaped_ok.mp h)

theorem prepareWrite_carries [LinearOrder τ] (h : env.prepareWrite existing doc = .ok n) : Carries doc.metadata n := by
  obtain ⟨m₁, hm₁, h⟩ := bind_ok.mp h
  obtain ⟨_, -, h⟩ := bind_ok.mp h
  refine (expiryForWrite_carries hm₁).trans ?_
  cases existing with
  | none => exact normalize_carries (escaped_ok.mp h)
  | some content =>
    obtain ⟨_, -, h⟩ := bind_ok.mp h
    obtain ⟨m₂, hm₂, h⟩ := bind_ok.mp h
    exact (normalize_carries (escaped_ok.mp hm₂)).trans (keepVersion_carries h)

/-- What a call of the helper leaves: the store as it was and an error, or a row with the
metadata that the store made of what was prepared, and its copy in memory unless the embedding
raised. -/
theorem write_cases [LinearOrder τ] {s : SqliteStore} (env : Router τ) (doc : Document) :
    ((env.writeMemoryDocument s doc).1 = s ∧ ∃ e, (env.writeMemoryDocument s doc).2 = .error e) ∨
      ∃ prepared n, env.prepareWrite (s.docs.get doc.id) doc = .ok prepared ∧
        persistedMetadata env.tools env.now (s.rows.get doc.id) { doc with metadata := prepared } = .ok n ∧
        (env.writeMemoryDocument s doc).1.rows = s.rows.set doc.id ⟨doc.text, n⟩ ∧
        ((env.faults doc.id).embedding = true ∧ (env.writeMemoryDocument s doc).1.docs = s.docs ∧
            (∃ e, (env.writeMemoryDocument s doc).2 = .error e) ∨
          (env.writeMemoryDocument s doc).1.docs = s.docs.set doc.id ⟨doc.text, n⟩) := by
  cases hprepared : env.prepareWrite (s.docs.get doc.id) doc with
  | error e =>
    refine Or.inl ?_
    unfold Router.writeMemoryDocument
    rw [hprepared]
    exact ⟨rfl, e, rfl⟩
  | ok prepared =>
    have hwrite : env.writeMemoryDocument s doc =
        (stored (s.addDocument env.tools env.now (env.faults doc.id) { doc with metadata := prepared })).andThen
          fun s _ => (s, recordOperation doc.id) := by
      unfold Router.writeMemoryDocument
      rw [hprepared]
    rw [hwrite]
    unfold SqliteStore.addDocument
    cases hpersist : s.persist env.tools env.now (env.faults doc.id) { doc with metadata := prepared } with
    | error e => exact Or.inl ⟨rfl, _, rfl⟩
    | ok result =>
      obtain ⟨written, n⟩ := result
      obtain ⟨hn, -, rfl⟩ := SqliteStore.persist_ok hpersist
      refine Or.inr ⟨prepared, n, rfl, hn, ?_⟩
      dsimp only
      split
      · rename_i hembedding
        exact ⟨rfl, Or.inl ⟨hembedding, rfl, _, rfl⟩⟩
      · exact ⟨rfl, Or.inr rfl⟩

theorem write_accepted [LinearOrder τ] {s s' : SqliteStore} {u : Unit} (h : env.writeMemoryDocument s doc = (s', .ok u)) :
    ∃ n, Carries doc.metadata n ∧ s'.docs = s.docs.set doc.id ⟨doc.text, n⟩ ∧
      s'.rows = s.rows.set doc.id ⟨doc.text, n⟩ := by
  have hnot {e : RouteError} (herror : (env.writeMemoryDocument s doc).2 = .error e) : False := by
    rw [h] at herror
    cases herror
  obtain ⟨-, e, he⟩ | ⟨prepared, n, hprepared, hpersisted, hrows, ⟨-, -, e, he⟩ | hdocs⟩ := write_cases (s := s) env doc
  · exact (hnot he).elim
  · exact (hnot he).elim
  · rw [h] at hrows hdocs
    exact ⟨n, (prepareWrite_carries hprepared).trans (persisted_carries hpersisted), hdocs, hrows⟩

end Memory
