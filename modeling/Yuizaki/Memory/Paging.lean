import Yuizaki.Lib.Run
import Yuizaki.Memory.Sqlite

/- Snapshot paging of the memory authority (`list_documents_page`,
   `activate_index_generation`).

   A rebuild of the search index reads the table page by page, each page in a transaction of
   its own that first compares the authority revision with the one the read is pinned to.
   Writes come between the pages. Paging is sound because a write that leaves the revision
   leaves the rows (`SqliteStore.Advances`): all the pages of a read that meets no mismatch
   are cut from one table, and `Keyset` says that they make it up. -/
namespace Memory

open Transition

/-! ## What a write does to the revision -/

/-- A write leaves the rows or raises the revision by one. -/
def SqliteStore.Advances (s s' : SqliteStore) : Prop :=
  s'.revision = s.revision + 1 ∨ s'.revision = s.revision ∧ s'.rows = s.rows

namespace SqliteStore

variable {τ : Type} {tools : MetadataTools τ} {now : τ} {faults : Faults} {s s' : SqliteStore}

theorem advances_refl (s : SqliteStore) : Advances s s := Or.inr ⟨rfl, rfl⟩

theorem advances_persist {doc : Document} {metadata : Metadata}
    (h : s.persist tools now faults doc = .ok (s', metadata)) :
    s'.revision = s.revision + 1 := by
  obtain ⟨-, -, rfl⟩ := persist_ok h
  rfl

theorem advances_addDocument (doc : Document) :
    Advances s (s.addDocument tools now faults doc).1 := by
  unfold addDocument
  split
  · exact advances_refl s
  · rename_i hpersist
    have hrevision := advances_persist hpersist
    split
    · exact Or.inl hrevision
    · exact Or.inl hrevision

theorem advances_addMetadataDocument (doc : Document) :
    Advances s (s.addMetadataDocument tools now faults doc).1 := by
  unfold addMetadataDocument
  split
  · exact advances_refl s
  · rename_i hpersist
    have hrevision := advances_persist hpersist
    exact Or.inl hrevision

theorem advances_updateMetadata (id : String) (metadata : Metadata) :
    Advances s (s.updateMetadata tools now faults id metadata).1 := by
  unfold updateMetadata
  split
  · exact advances_refl s
  · split
    · exact advances_refl s
    · split
      · exact advances_refl s
      · exact Or.inl rfl

theorem advances_deleteDocument (id : String) :
    Advances s (s.deleteDocument faults id).1 := by
  unfold deleteDocument
  split
  · exact advances_refl s
  · cases hrow : s.rows.get id with
    | some content =>
      left
      show (if (some content).isSome = true then s.revision + 1 else s.revision) = _
      rfl
    | none =>
      right
      exact ⟨rfl, Dict.erase_self hrow⟩

theorem advances_reopen : Advances s (s.reopen tools now faults).1 := by
  unfold reopen
  split
  · exact advances_refl s
  · dsimp only
    split
    · split
      · exact advances_refl s
      · exact Or.inl rfl
    · rename_i hnone
      exact Or.inr ⟨rfl, rfl⟩

theorem advances_apply (op : StoreOp) : Advances s (s.apply tools now faults op).1 := by
  cases op with
  | add doc => exact advances_addDocument doc
  | addMetadata doc => exact advances_addMetadataDocument doc
  | updateMetadata id metadata => exact advances_updateMetadata id metadata
  | delete id => exact advances_deleteDocument id
  | reopen => exact advances_reopen

end SqliteStore

/-! ## A paginated read -/

inductive ReadStatus where
  | reading
  | finished
  | failed (error : SnapshotError)
deriving DecidableEq

/-- A paginated read pinned to a revision, as the rebuild of the index makes it: it asks for
    the page beyond its cursor until a page is empty. -/
structure Pagination where
  snapshotRevision : ℕ
  cursorKey : Option String := none
  collected : List Document := []
  status : ReadStatus := .reading
deriving DecidableEq

/-- The read after a page was asked for. -/
def Pagination.next (reader : Pagination) (s : SqliteStore) (limit : ℤ) : Pagination :=
  match s.listDocumentsPage reader.snapshotRevision reader.cursorKey limit with
  | .error e => { reader with status := .failed e }
  | .ok [] => { reader with status := .finished }
  | .ok docs => { reader with
    cursorKey := docs.getLast?.map (fun doc => doc.id)
    collected := reader.collected ++ docs }

structure PagingSystem where
  store : SqliteStore
  reader : Pagination
deriving DecidableEq

/-- What happens between the first page and the last. -/
inductive PagingLabel (τ : Type) where
  | write (now : τ) (faults : Faults) (op : StoreOp)
  | activate (index : ActiveIndex)
  | page (limit : ℤ)

/-- The store after an activation, whether it succeeded or not. -/
def SqliteStore.activated (s : SqliteStore) (index : ActiveIndex) : SqliteStore :=
  match s.activateIndexGeneration index with
  | .ok s' => s'
  | .error _ => s

/-- One step: a write, an activation, or a page of a read that goes on. Any page size may be
    asked for. -/
inductive PagingStep {τ : Type} (tools : MetadataTools τ) (sys : PagingSystem) :
    PagingLabel τ → PagingSystem → Prop
  | write {now : τ} {faults : Faults} {op : StoreOp} :
      PagingStep tools sys (.write now faults op)
        { sys with store := (sys.store.apply tools now faults op).1 }
  | activate {index : ActiveIndex} :
      PagingStep tools sys (.activate index) { sys with store := sys.store.activated index }
  | page {limit : ℤ} :
      sys.reader.status = .reading →
      PagingStep tools sys (.page limit) { sys with reader := sys.reader.next sys.store limit }

section Paging

variable {τ : Type} {tools : MetadataTools τ} {s₀ : SqliteStore} {r : ℕ}
variable {sys sys' mid : PagingSystem} {l : PagingLabel τ} {hist hist' : List (PagingLabel τ)}

theorem activated_keeps (s : SqliteStore) (index : ActiveIndex) :
    (s.activated index).rows = s.rows ∧ (s.activated index).revision = s.revision := by
  unfold SqliteStore.activated SqliteStore.activateIndexGeneration
  split
  · rename_i hactive
    split at hactive
    · cases hactive
    · split at hactive
      · cases hactive
      · cases hactive
        exact ⟨rfl, rfl⟩
  · exact ⟨rfl, rfl⟩

theorem advances_step (h : PagingStep tools sys l sys') : sys.store.Advances sys'.store := by
  cases h with
  | write => exact SqliteStore.advances_apply _
  | activate => exact Or.inr ⟨(activated_keeps _ _).2, (activated_keeps _ _).1⟩
  | page _ => exact Or.inr ⟨rfl, rfl⟩

theorem advances_run (h : Run (PagingStep tools) sys hist sys') :
    sys.store.revision ≤ sys'.store.revision ∧
      (sys'.store.revision = sys.store.revision → sys'.store.rows = sys.store.rows) := by
  refine h.invariant (I := fun t => sys.store.revision ≤ t.store.revision ∧
    (t.store.revision = sys.store.revision → t.store.rows = sys.store.rows))
    ⟨le_rfl, fun _ => rfl⟩ (fun t l t' ht hstep => ?_)
  obtain ⟨hle, hrows⟩ := ht
  rcases advances_step hstep with hup | ⟨hsame, hkept⟩
  · rw [hup]
    exact ⟨by omega, fun heq => by omega⟩
  · rw [hsame, hkept]
    exact ⟨hle, hrows⟩

/-- The read is at its cursor in a table: the pages so far are the rows up to the cursor, and
    a read that has finished has them all. -/
structure Pagination.At (rows : Dict String Content) (reader : Pagination) : Prop where
  read : ∃ entries, reader.collected = entries.map SqliteStore.toDocument ∧
    Keyset.ReadTo rows reader.cursorKey entries
  whole : reader.status = .finished →
    reader.collected = (Keyset.listing rows).map SqliteStore.toDocument

theorem Pagination.At.start {rows : Dict String Content} :
    Pagination.At rows { snapshotRevision := r } where
  read := ⟨[], rfl, Keyset.readTo_start⟩
  whole h := by cases h

theorem cursor_map {entries : List (String × Content)} (h : entries ≠ []) (cursor : Option String) :
    (entries.map SqliteStore.toDocument).getLast?.map (fun doc => doc.id) =
      Keyset.advance cursor entries := by
  unfold Keyset.advance
  rw [List.getLast?_map, Option.map_map]
  have hid : (fun doc => doc.id) ∘ SqliteStore.toDocument = Prod.fst := rfl
  rw [hid, List.getLast?_eq_getLast_of_ne_nil h]
  rfl

theorem Pagination.At.next {reader : Pagination} {s : SqliteStore} {rows : Dict String Content}
    (h : reader.At rows) (hreading : reader.status = .reading) (limit : ℤ)
    (hrows : s.revision = reader.snapshotRevision → s.rows = rows) :
    (reader.next s limit).At rows := by
  obtain ⟨entries, hcollected, hread⟩ := h.read
  unfold Pagination.next
  split
  · exact ⟨⟨entries, hcollected, hread⟩, fun hfinished => nomatch hfinished⟩
  · -- an empty page: nothing is left beyond the cursor
    rename_i hpage
    obtain ⟨hroom, hrevision, hdocs⟩ := SqliteStore.listDocumentsPage_ok hpage
    rw [hrows hrevision] at hdocs
    have hempty : Keyset.page rows reader.cursorKey limit.toNat = [] :=
      List.map_eq_nil_iff.mp hdocs.symm
    have hall := hread.finished (by omega) hempty
    refine ⟨⟨entries, hcollected, hread⟩, fun _ => ?_⟩
    rw [← hall]
    exact hcollected
  · rename_i docs hsome hpage
    obtain ⟨hroom, hrevision, hdocs⟩ := SqliteStore.listDocumentsPage_ok hpage
    rw [hrows hrevision] at hdocs
    have hne : Keyset.page rows reader.cursorKey limit.toNat ≠ [] := by
      intro hnil
      rw [hnil] at hdocs
      exact hsome hdocs
    refine ⟨⟨entries ++ Keyset.page rows reader.cursorKey limit.toNat, ?_, ?_⟩, fun hfinished => ?_⟩
    · show reader.collected ++ docs = _
      rw [List.map_append, hcollected, hdocs]
    · have hmore := @Keyset.ReadTo.more _ _ _ rows reader.cursorKey limit.toNat _ hread
      rw [← cursor_map hne reader.cursorKey, ← hdocs] at hmore
      exact hmore
    · rw [show reader.status = .finished from hfinished] at hreading
      cases hreading

theorem next_snapshotRevision (reader : Pagination) (s : SqliteStore) (limit : ℤ) :
    (reader.next s limit).snapshotRevision = reader.snapshotRevision := by
  unfold Pagination.next
  split <;> rfl

/-- At the revision it is pinned to, the read is at its cursor in the table; before that
    revision it has read nothing, so it is at its cursor in any table. -/
structure Pinned (r : ℕ) (sys : PagingSystem) : Prop where
  snapshot : sys.reader.snapshotRevision = r
  current : sys.store.revision = r → sys.reader.At sys.store.rows
  early : sys.store.revision < r → ∀ rows, sys.reader.At rows

theorem Pinned.store (h : Pinned r sys) {s : SqliteStore} (hs : sys.store.Advances s) :
    Pinned r { sys with store := s } := by
  rcases hs with hup | ⟨hsame, hrows⟩
  · refine ⟨h.snapshot, fun heq => ?_, fun hlt => ?_⟩
    · have hbefore : sys.store.revision < r := by
        have heq' : s.revision = r := heq
        omega
      exact h.early hbefore s.rows
    · have hbefore : sys.store.revision < r := by
        have hlt' : s.revision < r := hlt
        omega
      exact h.early hbefore
  · refine ⟨h.snapshot, fun heq => ?_, fun hlt => h.early (hsame ▸ hlt)⟩
    show sys.reader.At s.rows
    rw [hrows]
    exact h.current (hsame ▸ heq)

theorem pinned_step (h : Pinned r sys) (hstep : PagingStep tools sys l sys') : Pinned r sys' := by
  have hadvances := advances_step hstep
  cases hstep with
  | write => exact h.store hadvances
  | activate => exact h.store hadvances
  | @page limit hreading =>
    refine ⟨(next_snapshotRevision _ _ _).trans h.snapshot, fun heq => ?_, fun hlt rows => ?_⟩
    · exact (h.current heq).next hreading limit (fun _ => rfl)
    · refine (h.early hlt rows).next hreading limit (fun heq => ?_)
      rw [h.snapshot] at heq
      have hrevision : sys.store.revision < r := hlt
      omega

theorem pinned_start (s : SqliteStore) : Pinned r ⟨s, { snapshotRevision := r }⟩ where
  snapshot := rfl
  current _ := Pagination.At.start
  early _ _ := Pagination.At.start

theorem at_run (h : Pinned r mid) (hmid : mid.store.revision = r)
    (hrun : Run (PagingStep tools) mid hist sys) : sys.reader.At mid.store.rows := by
  have hkept := hrun.invariant
    (I := fun t => t.reader.snapshotRevision = r ∧ t.reader.At mid.store.rows ∧
      mid.store.revision ≤ t.store.revision ∧
      (t.store.revision = mid.store.revision → t.store.rows = mid.store.rows))
    ⟨h.snapshot, h.current hmid, le_rfl, fun _ => rfl⟩ (fun t l t' ht hstep => ?_)
  · exact hkept.2.1
  · obtain ⟨hsnapshot, hat, hle, hrows⟩ := ht
    have hafter := advances_run (Run.next Run.start hstep)
    refine ⟨?_, ?_, hle.trans hafter.1, fun heq => ?_⟩
    · cases hstep with
      | write => exact hsnapshot
      | activate => exact hsnapshot
      | page _ => exact (next_snapshotRevision _ _ _).trans hsnapshot
    · cases hstep with
      | write => exact hat
      | activate => exact hat
      | page hreading =>
        exact hat.next hreading _ (fun heq => hrows (heq.trans (hsnapshot.trans hmid.symm)))
    · have hsame : t'.store.revision = t.store.revision := by
        have hup := hafter.1
        omega
      exact (hafter.2 hsame).trans (hrows (hsame.symm.trans heq))

/-- Snapshot paging. A read pinned to a revision, with writes between its pages, that reaches
    the end has read every document of that revision once and nothing else; a write that
    changes a row or the ids raises the revision; an activation pinned to a revision succeeds
    only where no such write came after it. -/
theorem snapshot_paging {τ : Type} (tools : MetadataTools τ) :
    (∀ (r : ℕ) (s₀ : SqliteStore) (hist hist' : List (PagingLabel τ)) (mid sys : PagingSystem),
      Run (PagingStep tools) ⟨s₀, { snapshotRevision := r }⟩ hist mid →
      Run (PagingStep tools) mid hist' sys →
      sys.reader.status = .finished → mid.store.revision = r →
      (sys.reader.collected.map (fun doc => doc.id)).Nodup ∧
        ∀ doc, doc ∈ sys.reader.collected ↔
          mid.store.rows.get doc.id = some doc.toContent) ∧
    (∀ (now : τ) (faults : Faults) (s : SqliteStore) (op : StoreOp),
      (s.apply tools now faults op).1.rows ≠ s.rows →
      s.revision < (s.apply tools now faults op).1.revision) ∧
    (∀ (sys₀ mid sys : PagingSystem) (hist hist' : List (PagingLabel τ)) (index : ActiveIndex)
      (s' : SqliteStore),
      Run (PagingStep tools) sys₀ hist mid → Run (PagingStep tools) mid hist' sys →
      index.snapshotRevision = sys₀.store.revision →
      sys.store.activateIndexGeneration index = .ok s' →
      mid.store.rows = sys₀.store.rows) := by
  refine ⟨?_, ?_, ?_⟩
  · intro r s₀ hist hist' mid sys hbefore hafter hfinished hmid
    have hpinned : Pinned r mid :=
      hbefore.invariant (pinned_start s₀) (fun _ _ _ h hstep => pinned_step h hstep)
    have hwhole := (at_run hpinned hmid hafter).whole hfinished
    rw [hwhole]
    refine ⟨?_, fun doc => ?_⟩
    · rw [List.map_map]
      exact Keyset.nodup_listing
    · rw [List.mem_map]
      constructor
      · intro hmem
        obtain ⟨e, he, hdoc⟩ := hmem
        rw [← hdoc]
        exact Keyset.mem_listing.mp he
      · intro hget
        exact ⟨(doc.id, doc.toContent), Keyset.mem_listing.mpr hget, rfl⟩
  · intro now faults s op hchanged
    rcases @SqliteStore.advances_apply _ tools now faults s op with hup | ⟨-, hrows⟩
    · omega
    · exact absurd hrows hchanged
  · intro sys₀ mid sys hist hist' index s' hbefore hafter hpin hactive
    have hrevision : sys.store.revision = index.snapshotRevision := by
      unfold SqliteStore.activateIndexGeneration at hactive
      split at hactive
      · cases hactive
      · split at hactive
        · cases hactive
        · rename_i hsame
          exact not_not.mp hsame
    have hfirst := advances_run hbefore
    have hlast := advances_run hafter
    exact hfirst.2 (by omega)

end Paging

end Memory
