import Yuizaki.Lib.Run
import Yuizaki.Memory.Sqlite

/- The rebuild of the vector index beside other calls (`VectorStore.rebuild_index` in
   `modules/memory/vector_store.py`).

   A rebuild takes a snapshot of the documents and the generation of the index, embeds the
   documents one by one without the lock, and then, under the lock, replaces the vectors: by its
   own where the generation is the same, else by a merge that prefers the vectors that are
   there. Every call but `add_metadata_document` holds the lock and bumps the generation. The
   embedding of a text is a parameter. -/
namespace Memory

open Transition

variable {ν : Type}

/-! ## The store -/

/-- A rebuild that is running: its snapshot, what is left of it, and the vectors so far. -/
structure Rebuild (ν : Type) where
  docs : Dict String Content
  generation : ℕ
  pending : List (String × Content)
  rebuilt : Dict String ν

structure VectorStore (ν : Type) where
  docs : Dict String Content
  vectors : Dict String ν
  indexGeneration : ℕ
  rebuild : Option (Rebuild ν)

def VectorStore.init : VectorStore ν := ⟨Dict.empty, Dict.empty, 0, none⟩

/-- The calls on a store, and the steps of a rebuild between its await points. -/
inductive IndexCall where
  | addDocument (doc : Document)
  | addMetadataDocument (doc : Document)
  | updateMetadata (docId : String) (metadata : Metadata)
  | deleteDocument (docId : String)
  | startRebuild
  | embedNext
  | finishRebuild
  | cancelRebuild

/-- `d.update(e)` -/
def updated (d e : Dict String ν) : Dict String ν := e.entries.foldl (fun d entry => d.set entry.1 entry.2) d

/-- What a rebuild leaves as the vectors. -/
def mergedVectors (s : VectorStore ν) (r : Rebuild ν) : Dict String ν :=
  if r.generation = s.indexGeneration then r.rebuilt
  else
    let rebuilt := r.rebuilt.filterMap fun docId vector =>
      if (s.docs.get docId).isSome then some ((s.vectors.get docId).getD vector) else none
    updated rebuilt (s.vectors.filter fun docId _ => (s.docs.get docId).isSome && (rebuilt.get docId).isNone)

/-- One call, or one step of a rebuild: `none` where it raises or there is nothing to do. -/
def VectorStore.step (embed : String → ν) (s : VectorStore ν) : IndexCall → Option (VectorStore ν)
  | .addDocument doc => some { s with
      docs := s.docs.set doc.id doc.toContent
      vectors := s.vectors.set doc.id (embed doc.text)
      indexGeneration := s.indexGeneration + 1 }
  | .addMetadataDocument doc => some { s with docs := s.docs.set doc.id doc.toContent }
  | .updateMetadata docId metadata => match s.docs.get docId with
    | none => none
    | some doc => some { s with
        docs := s.docs.set docId { doc with metadata }
        indexGeneration := s.indexGeneration + 1 }
  | .deleteDocument docId => some { s with
      docs := s.docs.erase docId
      vectors := s.vectors.erase docId
      indexGeneration := s.indexGeneration + 1 }
  | .startRebuild => match s.rebuild with
    | some _ => none
    | none => some { s with rebuild := some ⟨s.docs, s.indexGeneration, s.docs.entries, Dict.empty⟩ }
  | .embedNext => match s.rebuild with
    | some ⟨docs, generation, (docId, doc) :: pending, rebuilt⟩ => some { s with
        rebuild := some ⟨docs, generation, pending, rebuilt.set docId (embed doc.text)⟩ }
    | _ => none
  | .finishRebuild => match s.rebuild with
    | some r => if r.pending.isEmpty then some { s with
        vectors := mergedVectors s r
        rebuild := none } else none
    | none => none
  | .cancelRebuild => match s.rebuild with
    | some _ => some { s with rebuild := none }
    | none => none

/-! ## Reading a merge -/

theorem get_updated (d e : Dict String ν) (k : String) : (updated d e).get k = (e.get k).or (d.get k) := by
  have hfold : ∀ (es : List (String × ν)) (d : Dict String ν), (es.map Prod.fst).Nodup →
      (es.foldl (fun d entry => d.set entry.1 entry.2) d).get k = (Dict.find k es).or (d.get k) := by
    intro es
    induction es with
    | nil => exact fun d _ => rfl
    | cons entry rest ih =>
      intro d hnodup
      rw [List.map_cons, List.nodup_cons] at hnodup
      rw [List.foldl_cons, ih _ hnodup.2, Dict.get_set, Dict.find]
      by_cases hk : entry.1 = k
      · have hnone : Dict.find k rest = none := by
          cases hfind : Dict.find k rest with
          | none => rfl
          | some v =>
            have hmem : k ∈ rest.map Prod.fst := List.mem_map.mpr ⟨(k, v), Dict.find_mem hfind, rfl⟩
            rw [hk] at hnodup
            exact absurd hmem hnodup.1
        rw [if_pos hk, if_pos hk.symm, hnone]
        rfl
      · rw [if_neg hk, if_neg (Ne.symm hk)]
  exact hfold e.entries d e.nodup

theorem get_mergedVectors (s : VectorStore ν) (r : Rebuild ν) (docId : String) (h : r.generation ≠ s.indexGeneration) :
    (mergedVectors s r).get docId =
      if (s.docs.get docId).isSome then (s.vectors.get docId).or (r.rebuilt.get docId) else none := by
  unfold mergedVectors
  rw [if_neg h]
  dsimp only
  rw [get_updated, Dict.get_filter, Dict.get_filterMap]
  cases hdoc : s.docs.get docId with
  | none =>
    cases s.vectors.get docId <;> cases r.rebuilt.get docId <;> simp
  | some doc =>
    cases s.vectors.get docId <;> cases r.rebuilt.get docId <;> simp

/-! ## What a step keeps -/

/-- Every vector is the embedding of the current text of a stored document. -/
def Fresh (embed : String → ν) (s : VectorStore ν) : Prop :=
  ∀ docId v, s.vectors.get docId = some v → ∃ doc, s.docs.get docId = some doc ∧ v = embed doc.text

/-- One vector for each document, the embedding of its current text. -/
def Current (embed : String → ν) (s : VectorStore ν) : Prop :=
  ∀ docId, s.vectors.get docId = (s.docs.get docId).map fun doc => embed doc.text

/-- How far a rebuild has come, and what may have changed meanwhile. -/
structure Progress (embed : String → ν) (s : VectorStore ν) (r : Rebuild ν) : Prop where
  done : ∀ docId doc, r.docs.get docId = some doc →
    (docId, doc) ∈ r.pending ∨ r.rebuilt.get docId = some (embed doc.text)
  rebuilt : ∀ docId v, r.rebuilt.get docId = some v → ∃ doc, r.docs.get docId = some doc ∧ v = embed doc.text
  pending : ∀ entry ∈ r.pending, r.docs.get entry.1 = some entry.2
  generation : r.generation ≤ s.indexGeneration
  same : r.generation = s.indexGeneration → s.docs = r.docs
  kept : ∀ docId doc, s.docs.get docId = some doc →
    s.vectors.get docId = some (embed doc.text) ∨ ∃ old, r.docs.get docId = some old ∧ old.text = doc.text

/-- Fresh vectors, and a rebuild that is on its way. -/
structure Sound (embed : String → ν) (s : VectorStore ν) : Prop where
  fresh : Fresh embed s
  progress : ∀ r, s.rebuild = some r → Progress embed s r

/-- A call that leaves no vector behind: a document that is added without a vector is added while no
    rebuild runs, and not with another text in place of one that has a vector. -/
def Undisturbing (s : VectorStore ν) : IndexCall → Prop
  | .addMetadataDocument doc => s.rebuild = none ∧ ∀ v, s.vectors.get doc.id = some v →
      ∃ old, s.docs.get doc.id = some old ∧ old.text = doc.text
  | _ => True

variable {embed : String → ν} {s s' : VectorStore ν} {r : Rebuild ν}

theorem Current.fresh (h : Current embed s) : Fresh embed s := by
  intro docId v hv
  rw [h docId] at hv
  obtain ⟨doc, hdoc, hv⟩ := Option.map_eq_some_iff.mp hv
  exact ⟨doc, hdoc, hv.symm⟩

theorem merged_current (hfresh : Fresh embed s) (h : Progress embed s r) (hpending : r.pending = []) (docId : String) :
    (mergedVectors s r).get docId = (s.docs.get docId).map fun doc => embed doc.text := by
  have hrebuilt : ∀ doc, r.docs.get docId = some doc → r.rebuilt.get docId = some (embed doc.text) := by
    intro doc hdoc
    obtain hmem | hdone := h.done docId doc hdoc
    · rw [hpending] at hmem
      exact absurd hmem List.not_mem_nil
    · exact hdone
  by_cases hgeneration : r.generation = s.indexGeneration
  · -- nothing was written: the snapshot is what is stored
    unfold mergedVectors
    rw [if_pos hgeneration, h.same hgeneration]
    cases hdoc : r.docs.get docId with
    | none =>
      cases hvector : r.rebuilt.get docId with
      | none => rfl
      | some v =>
        obtain ⟨doc, hsome, -⟩ := h.rebuilt docId v hvector
        exact nomatch hdoc.symm.trans hsome
    | some doc => exact hrebuilt doc hdoc
  · rw [get_mergedVectors s r docId hgeneration]
    cases hdoc : s.docs.get docId with
    | none => rfl
    | some doc =>
      show (s.vectors.get docId).or (r.rebuilt.get docId) = some (embed doc.text)
      cases hvector : s.vectors.get docId with
      | some v =>
        obtain ⟨current, hcurrent, rfl⟩ := hfresh docId v hvector
        obtain rfl := Option.some.inj (hdoc.symm.trans hcurrent)
        rfl
      | none =>
        obtain hthere | ⟨old, hold, htext⟩ := h.kept docId doc hdoc
        · exact nomatch hvector.symm.trans hthere
        · rw [hrebuilt old hold, htext]
          rfl

theorem fresh_set (h : Fresh embed s) (docId : String) (doc : Content) (generation : ℕ) (rebuild : Option (Rebuild ν)) :
    Fresh embed ⟨s.docs.set docId doc, s.vectors.set docId (embed doc.text), generation, rebuild⟩ := by
  intro other v hv
  dsimp only at hv ⊢
  rw [Dict.get_set] at hv ⊢
  by_cases hother : other = docId
  · rw [if_pos hother] at hv ⊢
    exact ⟨doc, rfl, (Option.some.inj hv).symm⟩
  · rw [if_neg hother] at hv ⊢
    exact h other v hv

theorem fresh_same_text (h : Fresh embed s) {docId : String} (doc : Content)
    (htext : ∀ v, s.vectors.get docId = some v → ∃ old, s.docs.get docId = some old ∧ old.text = doc.text)
    (generation : ℕ) (rebuild : Option (Rebuild ν)) :
    Fresh embed ⟨s.docs.set docId doc, s.vectors, generation, rebuild⟩ := by
  intro other v hv
  dsimp only at hv ⊢
  rw [Dict.get_set]
  by_cases hother : other = docId
  · rw [if_pos hother]
    rw [hother] at hv
    obtain ⟨old, hold, hsame⟩ := htext v hv
    obtain ⟨current, hcurrent, rfl⟩ := h docId v hv
    obtain rfl := Option.some.inj (hold.symm.trans hcurrent)
    exact ⟨doc, rfl, by rw [hsame]⟩
  · rw [if_neg hother]
    exact h other v hv

theorem fresh_erase (h : Fresh embed s) (docId : String) (generation : ℕ) (rebuild : Option (Rebuild ν)) :
    Fresh embed ⟨s.docs.erase docId, s.vectors.erase docId, generation, rebuild⟩ := by
  intro other v hv
  dsimp only at hv ⊢
  rw [Dict.get_erase] at hv ⊢
  by_cases hother : other = docId
  · rw [if_pos hother] at hv
    exact nomatch hv
  · rw [if_neg hother] at hv ⊢
    exact h other v hv

/-- A write that bumps the generation and leaves a document without its vector only with its text
    leaves the rebuild on its way. -/
theorem Progress.write (h : Progress embed s r) {docs : Dict String Content} {vectors : Dict String ν}
    {rebuild : Option (Rebuild ν)}
    (hkept : ∀ docId doc, docs.get docId = some doc → vectors.get docId = some (embed doc.text) ∨
      vectors.get docId = s.vectors.get docId ∧ ∃ old, s.docs.get docId = some old ∧ old.text = doc.text) :
    Progress embed ⟨docs, vectors, s.indexGeneration + 1, rebuild⟩ r where
  done := h.done
  rebuilt := h.rebuilt
  pending := h.pending
  generation := Nat.le_succ_of_le h.generation
  same := by
    intro hsame
    have hle := h.generation
    dsimp only at hsame
    omega
  kept := by
    intro docId doc hdoc
    obtain hvector | ⟨hvectors, old, hold, htext⟩ := hkept docId doc hdoc
    · exact Or.inl hvector
    · obtain hvector | ⟨older, holder, hsame⟩ := h.kept docId old hold
      · left
        show vectors.get docId = _
        rw [hvectors, hvector, htext]
      · exact Or.inr ⟨older, holder, hsame.trans htext⟩

/-- **The step lemma.** A call that leaves no vector behind keeps the store sound. -/
theorem Sound.step {c : IndexCall} (h : Sound embed s) (hc : Undisturbing s c) (hstep : s.step embed c = some s') :
    Sound embed s' := by
  cases c with
  | addDocument doc =>
    obtain rfl := Option.some.inj hstep
    refine ⟨fresh_set h.fresh _ _ _ _, fun r hr => (h.progress r hr).write fun docId other hother => ?_⟩
    rw [Dict.get_set] at hother
    by_cases hid : docId = doc.id
    · rw [if_pos hid] at hother
      obtain rfl := Option.some.inj hother
      left
      rw [Dict.get_set, if_pos hid]
    · rw [if_neg hid] at hother
      right
      rw [Dict.get_set, if_neg hid]
      exact ⟨rfl, other, hother, rfl⟩
  | addMetadataDocument doc =>
    obtain rfl := Option.some.inj hstep
    refine ⟨fresh_same_text h.fresh doc.toContent hc.2 _ _, fun r hr => ?_⟩
    exact nomatch hc.1.symm.trans hr
  | updateMetadata docId metadata =>
    unfold VectorStore.step at hstep
    dsimp only at hstep
    cases hdoc : s.docs.get docId with
    | none =>
      rw [hdoc] at hstep
      exact nomatch hstep
    | some doc =>
      rw [hdoc] at hstep
      obtain rfl := Option.some.inj hstep
      refine ⟨fresh_same_text h.fresh { doc with metadata } (fun _ _ => ⟨doc, hdoc, rfl⟩) _ _, fun r hr => ?_⟩
      refine (h.progress r hr).write fun other content hcontent => Or.inr ⟨rfl, ?_⟩
      rw [Dict.get_set] at hcontent
      by_cases hid : other = docId
      · rw [if_pos hid] at hcontent
        obtain rfl := Option.some.inj hcontent
        rw [hid]
        exact ⟨doc, hdoc, rfl⟩
      · rw [if_neg hid] at hcontent
        exact ⟨content, hcontent, rfl⟩
  | deleteDocument docId =>
    obtain rfl := Option.some.inj hstep
    refine ⟨fresh_erase h.fresh _ _ _, fun r hr => (h.progress r hr).write fun other content hcontent => ?_⟩
    rw [Dict.get_erase] at hcontent
    by_cases hid : other = docId
    · rw [if_pos hid] at hcontent
      exact nomatch hcontent
    · rw [if_neg hid] at hcontent
      right
      rw [Dict.get_erase, if_neg hid]
      exact ⟨rfl, content, hcontent, rfl⟩
  | startRebuild =>
    unfold VectorStore.step at hstep
    dsimp only at hstep
    cases hrebuild : s.rebuild with
    | some r =>
      rw [hrebuild] at hstep
      exact nomatch hstep
    | none =>
      rw [hrebuild] at hstep
      obtain rfl := Option.some.inj hstep
      refine ⟨h.fresh, fun r hr => ?_⟩
      obtain rfl := Option.some.inj hr
      exact {
        done := fun docId doc hdoc => Or.inl (Dict.get_eq_some.mp hdoc)
        rebuilt := fun docId v hv => nomatch hv
        pending := fun entry hentry => Dict.get_eq_some.mpr hentry
        generation := Nat.le_refl _
        same := fun _ => rfl
        kept := fun docId doc hdoc => Or.inr ⟨doc, hdoc, rfl⟩ }
  | embedNext =>
    unfold VectorStore.step at hstep
    dsimp only at hstep
    split at hstep
    · rename_i docs generation docId doc pending rebuilt hrebuild
      obtain rfl := Option.some.inj hstep
      have hp := h.progress _ hrebuild
      have hhead := hp.pending (docId, doc) List.mem_cons_self
      dsimp only at hhead
      refine ⟨h.fresh, fun r hr => ?_⟩
      obtain rfl := Option.some.inj hr
      refine ⟨?_, ?_, fun entry hentry => hp.pending entry (List.mem_cons_of_mem _ hentry), hp.generation, hp.same, hp.kept⟩
      · intro other content hcontent
        dsimp only at hcontent ⊢
        rw [Dict.get_set]
        by_cases hid : other = docId
        · right
          rw [hid] at hcontent
          obtain rfl := Option.some.inj (hcontent.symm.trans hhead)
          rw [if_pos hid]
        · rw [if_neg hid]
          obtain hmem | hdone := hp.done other content hcontent
          · obtain heq | hmem := List.mem_cons.mp hmem
            · exact absurd (Prod.mk.inj heq).1 hid
            · exact Or.inl hmem
          · exact Or.inr hdone
      · intro other v hv
        dsimp only at hv ⊢
        rw [Dict.get_set] at hv
        by_cases hid : other = docId
        · rw [if_pos hid] at hv
          rw [hid]
          exact ⟨doc, hhead, (Option.some.inj hv).symm⟩
        · rw [if_neg hid] at hv
          exact hp.rebuilt other v hv
    · exact nomatch hstep
  | finishRebuild =>
    unfold VectorStore.step at hstep
    dsimp only at hstep
    cases hrebuild : s.rebuild with
    | none =>
      rw [hrebuild] at hstep
      exact nomatch hstep
    | some r =>
      rw [hrebuild] at hstep
      dsimp only at hstep
      by_cases hpending : r.pending.isEmpty = true
      · rw [if_pos hpending] at hstep
        obtain rfl := Option.some.inj hstep
        have hcurrent : Current embed ⟨s.docs, mergedVectors s r, s.indexGeneration, none⟩ :=
          merged_current h.fresh (h.progress r hrebuild) (List.isEmpty_iff.mp hpending)
        exact ⟨hcurrent.fresh, fun r hr => nomatch hr⟩
      · rw [if_neg hpending] at hstep
        exact nomatch hstep
  | cancelRebuild =>
    unfold VectorStore.step at hstep
    dsimp only at hstep
    cases hrebuild : s.rebuild with
    | none =>
      rw [hrebuild] at hstep
      exact nomatch hstep
    | some r =>
      rw [hrebuild] at hstep
      obtain rfl := Option.some.inj hstep
      exact ⟨h.fresh, fun r hr => nomatch hr⟩

/-! ## After a rebuild -/

/-- A call that adds no document without a vector. -/
def Embedding : IndexCall → Prop
  | .addMetadataDocument _ => False
  | _ => True

theorem current_of_finish (h : Sound embed s) (hstep : s.step embed .finishRebuild = some s') : Current embed s' := by
  unfold VectorStore.step at hstep
  dsimp only at hstep
  cases hrebuild : s.rebuild with
  | none =>
    rw [hrebuild] at hstep
    exact nomatch hstep
  | some r =>
    rw [hrebuild] at hstep
    dsimp only at hstep
    by_cases hpending : r.pending.isEmpty = true
    · rw [if_pos hpending] at hstep
      obtain rfl := Option.some.inj hstep
      exact merged_current h.fresh (h.progress r hrebuild) (List.isEmpty_iff.mp hpending)
    · rw [if_neg hpending] at hstep
      exact nomatch hstep

theorem Current.step {c : IndexCall} (h : Current embed s) (hsound : Sound embed s) (hc : Embedding c)
    (hstep : s.step embed c = some s') : Current embed s' := by
  cases c with
  | addDocument doc =>
    obtain rfl := Option.some.inj hstep
    intro docId
    dsimp only
    rw [Dict.get_set, Dict.get_set]
    by_cases hid : docId = doc.id
    · rw [if_pos hid, if_pos hid]
      rfl
    · rw [if_neg hid, if_neg hid]
      exact h docId
  | addMetadataDocument doc => exact hc.elim
  | updateMetadata docId metadata =>
    unfold VectorStore.step at hstep
    dsimp only at hstep
    cases hdoc : s.docs.get docId with
    | none =>
      rw [hdoc] at hstep
      exact nomatch hstep
    | some doc =>
      rw [hdoc] at hstep
      obtain rfl := Option.some.inj hstep
      intro other
      dsimp only
      rw [Dict.get_set]
      by_cases hid : other = docId
      · rw [if_pos hid, hid, h docId, hdoc]
        rfl
      · rw [if_neg hid]
        exact h other
  | deleteDocument docId =>
    obtain rfl := Option.some.inj hstep
    intro other
    dsimp only
    rw [Dict.get_erase, Dict.get_erase]
    by_cases hid : other = docId
    · rw [if_pos hid, if_pos hid]
      rfl
    · rw [if_neg hid, if_neg hid]
      exact h other
  | startRebuild =>
    unfold VectorStore.step at hstep
    dsimp only at hstep
    split at hstep
    · exact nomatch hstep
    · obtain rfl := Option.some.inj hstep
      exact h
  | embedNext =>
    unfold VectorStore.step at hstep
    dsimp only at hstep
    split at hstep
    · obtain rfl := Option.some.inj hstep
      exact h
    · exact nomatch hstep
  | finishRebuild => exact current_of_finish hsound hstep
  | cancelRebuild =>
    unfold VectorStore.step at hstep
    dsimp only at hstep
    split at hstep
    · obtain rfl := Option.some.inj hstep
      exact h
    · exact nomatch hstep

theorem init_sound : Sound embed VectorStore.init where
  fresh := fun docId v hv => nomatch hv
  progress := fun r hr => nomatch hr

/-- The calls under which every vector stays with its text. -/
def UndisturbedStep (embed : String → ν) (s : VectorStore ν) (c : IndexCall) (s' : VectorStore ν) : Prop :=
  s.step embed c = some s' ∧ Undisturbing s c

def EmbeddingStep (embed : String → ν) (s : VectorStore ν) (c : IndexCall) (s' : VectorStore ν) : Prop :=
  s.step embed c = some s' ∧ Embedding c

theorem Run.sound {calls : List IndexCall} (h : Run (UndisturbedStep embed) VectorStore.init calls s) : Sound embed s :=
  h.invariant init_sound fun _ _ _ hs hstep => hs.step hstep.2 hstep.1

/-- **A rebuild beside other calls.** Whatever calls run before and during a rebuild, if none of
    them adds a document without a vector in place of another text or while the rebuild runs,
    there is one vector for each document, of its current text, once the rebuild has returned,
    and from then on as long as every document is added with its vector. -/
theorem rebuild_current {before after : List IndexCall} {started finished : VectorStore ν}
    (hbefore : Run (UndisturbedStep embed) VectorStore.init before started)
    (hfinish : started.step embed .finishRebuild = some finished)
    (hafter : Run (EmbeddingStep embed) finished after s) : Current embed s := by
  have hsound := Run.sound hbefore
  have hfinished : Sound embed finished := Sound.step (c := .finishRebuild) hsound trivial hfinish
  have hstep : ∀ (t : VectorStore ν) (c : IndexCall) (t' : VectorStore ν), Sound embed t ∧ Current embed t →
      EmbeddingStep embed t c t' → Sound embed t' ∧ Current embed t' := by
    rintro t c t' ⟨htsound, htcurrent⟩ ⟨hstep, hc⟩
    refine ⟨htsound.step ?_ hstep, htcurrent.step htsound hc hstep⟩
    cases c with
    | addMetadataDocument doc => exact hc.elim
    | _ => trivial
  exact (@Run.invariant _ _ _ _ _ _ (fun t => Sound embed t ∧ Current embed t) hafter
    ⟨hfinished, current_of_finish hsound hfinish⟩ hstep).2

/-! ## A vector that stays stale -/

def note (docId text : String) : Document := { id := docId, text, metadata := Dict.empty }

/-- A note gets another text without a vector, and while a rebuild runs another note is added: the
    rebuild keeps the vector of the old text. A note that is added without a vector meanwhile
    never gets one. -/
theorem stale_vector_kept :
    ((Run.exec (VectorStore.step String.length) VectorStore.init
        [.addDocument (note "a" "tea"), .addMetadataDocument (note "a" "coffee"), .startRebuild, .embedNext,
          .addDocument (note "b" "milk"), .finishRebuild]).map fun s => (s.vectors.get "a", s.docs.get "a" |>.map Content.text)) =
      some (some 3, some "coffee") ∧
    ((Run.exec (VectorStore.step String.length) VectorStore.init
        [.startRebuild, .addMetadataDocument (note "c" "cake"), .finishRebuild]).map fun s =>
          (s.vectors.get "c", s.docs.get "c" |>.map Content.text)) = some (none, some "cake") := by
  decide +kernel

/-- A note that is added while a rebuild runs. -/
theorem rebuild_current_note : ∃ s : VectorStore ℕ,
    Run.exec (VectorStore.step String.length) VectorStore.init
      [.startRebuild, .addDocument (note "b" "milk"), .finishRebuild] = some s ∧ Current String.length s := by
  have hstart : VectorStore.step String.length VectorStore.init .startRebuild =
      some ⟨Dict.empty, Dict.empty, 0, some ⟨Dict.empty, 0, [], Dict.empty⟩⟩ := rfl
  have hadd : VectorStore.step String.length ⟨Dict.empty, Dict.empty, 0, some ⟨Dict.empty, 0, [], Dict.empty⟩⟩
      (.addDocument (note "b" "milk")) = some ⟨Dict.empty.set "b" ⟨"milk", Dict.empty⟩, Dict.empty.set "b" 4, 1,
        some ⟨Dict.empty, 0, [], Dict.empty⟩⟩ := rfl
  have hrun : Run (UndisturbedStep String.length) VectorStore.init [.addDocument (note "b" "milk"), .startRebuild]
      ⟨Dict.empty.set "b" ⟨"milk", Dict.empty⟩, Dict.empty.set "b" 4, 1, some ⟨Dict.empty, 0, [], Dict.empty⟩⟩ :=
    Run.next (Run.next Run.start ⟨hstart, trivial⟩) ⟨hadd, trivial⟩
  exact ⟨_, rfl, rebuild_current hrun rfl Run.start⟩

end Memory
