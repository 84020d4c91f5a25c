import Yuizaki.Lib.Run
import Yuizaki.Memory.Persist

/- The documents in memory and the rows of the database (`SQLiteMemoryStore`).

   Reopening the database normalizes every row before it is loaded, so the documents in memory
   are those of the rows only if no row would be changed by that. Three writes leave a row or
   a copy apart: an embedding that raises after the transaction, a review status that is a
   blank text, and a source that a new version brings but may not list. In every run without
   them the two agree (`mirrors_database`), and a method that raises changes neither. -/
namespace Memory

open Transition

variable {τ : Type} {tools : MetadataTools τ} {now : τ} {m n : Metadata}

/-! ## Normal metadata is written -/

def normalKeys : List String := normalizedKeys ++ ["timestamp", "source_id"]

theorem Normal.congr (h : Normal tools m) (hkeys : ∀ k ∈ normalKeys, n.get k = m.get k) :
    Normal tools n := by
  have hvalue (k : String) (hk : k ∈ normalKeys) : n.value k = m.value k := by
    rw [Metadata.value, Metadata.value, hkeys k hk]
  have hstamped (k : String) (hk : k ∈ normalKeys) : Stamped tools m k → Stamped tools n k := by
    unfold Stamped
    rw [hkeys k hk]
    exact id
  have hsources : normalizedSources tools n = normalizedSources tools m := by
    unfold normalizedSources listedSources
    rw [hvalue "source_ids" (by decide), hvalue "source_id" (by decide)]
  exact {
    schema := by rw [hkeys _ (by decide)]; exact h.schema
    revision := by rw [hkeys _ (by decide)]; exact h.revision
    timestamp := by rw [hvalue _ (by decide)]; exact h.timestamp
    createdAt := hstamped _ (by decide) h.createdAt
    updatedAt := hstamped _ (by decide) h.updatedAt
    occurredAt := hstamped _ (by decide) h.occurredAt
    ingestedAt := hstamped _ (by decide) h.ingestedAt
    validFrom := by
      rw [hkeys "valid_from" (by decide)]
      exact h.validFrom.imp_right (hstamped _ (by decide))
    validTo := by
      rw [hkeys "valid_to" (by decide)]
      exact h.validTo.imp_right (hstamped _ (by decide))
    review := by rw [hkeys _ (by decide)]; exact h.review
    sources := by rw [hsources, hkeys _ (by decide)]; exact h.sources
    supersedes := by rw [hkeys _ (by decide), hvalue _ (by decide)]; exact h.supersedes
    supersededBy := by rw [hkeys _ (by decide), hvalue _ (by decide)]; exact h.supersededBy }

theorem Merged.normal {row : Content} (h : Merged row m n) (hm : Normal tools m) :
    Normal tools n := by
  refine hm.congr (fun k hk => ?_)
  by_cases hlifecycle : k ∈ lifecycleFields
  · -- the one lifecycle field that normalization reads is always there
    rcases h.lifecycle k hlifecycle with hsame | ⟨hnone, -⟩
    · exact hsame
    · have hkey : k = "superseded_by" := by
        simp only [lifecycleFields, List.mem_cons, List.not_mem_nil, or_false] at hlifecycle
        rcases hlifecycle with rfl | rfl | rfl | rfl
        · exact absurd hk (by decide)
        · exact absurd hk (by decide)
        · exact absurd hk (by decide)
        · rfl
      rw [hkey, hm.supersededBy] at hnone
      cases hnone
  · refine h.others k (fun hhistory => ?_) hlifecycle
    simp only [historyKeys, List.mem_cons, List.not_mem_nil, or_false] at hhistory
    rcases hhistory with rfl | rfl | rfl | rfl <;> exact absurd hk (by decide)

/-- A new version of a row lists every source that it names: the row names one, the caller
    has kept the version of the row, or the source is none that would be added. -/
def SourceKept (tools : MetadataTools τ) (row : Content) (m : Metadata) : Prop :=
  (row.metadata.get "source_id").isSome ∨
    hasPriorVersionSnapshot m (normalizedRevision tools row.metadata) row.text = true ∨
    ¬ NewSource tools (m.value "source_id") (listedSources tools row.metadata)

theorem Appended.normal (lawful : tools.Lawful) {docId text : String} {row new : Metadata}
    {old : Metadata} (hold : normalizeMemoryMetadata tools now row = .ok old)
    (h : Appended tools now docId text old new n) (hnew : Normal tools new)
    (hsource : (row.get "source_id").isSome ∨
      ¬ NewSource tools (new.value "source_id") (listedSources tools row)) : Normal tools n := by
  obtain ⟨stamps, hstamps, hnormalized⟩ := normalize_spec hold
  obtain ⟨-, hcanonical⟩ := canonical_timestamps lawful hstamps
  have hothers (k : String) (hk : k ∉ provenanceFields) (hwritten : k ∉ ["created_at", "revision",
      "updated_at", "version_history", "version_history_truncated"]) : n.get k = new.get k :=
    h.others k hk hwritten
  have hvalue (k : String) (hk : n.get k = new.get k) : n.value k = new.value k := by
    rw [Metadata.value, Metadata.value, hk]
  have hstamped (k : String) (hk : n.get k = new.get k) : Stamped tools new k → Stamped tools n k := by
    unfold Stamped
    rw [hk]
    exact id
  have hids : n.get "source_ids" =
      some (.arr ((normalizedSources tools row).map .str)) := by
    rw [h.provenance _ (by decide), hnormalized.sources]
    rfl
  have hid : n.get "source_id" = (row.get "source_id").or (new.get "source_id") := by
    rw [h.provenance _ (by decide), hnormalized.others _ (by decide)]
  have hold : ¬ NewSource tools (n.value "source_id") (normalizedSources tools row) := by
    cases hrow : row.get "source_id" with
    | some v =>
      have hsame : n.value "source_id" = row.value "source_id" := by
        rw [Metadata.value, Metadata.value, hid, hrow]
        rfl
      rw [hsame]
      exact not_new_normalizedSources
    | none =>
      have hnull : row.value "source_id" = .null := by
        rw [Metadata.value, hrow]
        rfl
      have hlisted : normalizedSources tools row = listedSources tools row :=
        normalizedSources_of_not_new (fun hnew => hnew.1 hnull)
      have hsame : n.value "source_id" = new.value "source_id" := by
        rw [Metadata.value, Metadata.value, hid, hrow]
        rfl
      rw [hsame, hlisted]
      rcases hsource with hsome | hkept
      · rw [hrow] at hsome
        cases hsome
      · exact hkept
  exact {
    schema := by rw [hothers _ (by decide) (by decide)]; exact hnew.schema
    revision := by
      have hpos : 1 ≤ normalizedRevision tools old := normalizedRevision_pos
      exact ⟨_, by omega, h.revision⟩
    timestamp := by
      rw [hvalue _ (hothers _ (by decide) (by decide))]
      exact hnew.timestamp
    createdAt := by
      refine ⟨stamps.createdAt, ?_, hcanonical.createdAt⟩
      rw [h.createdAt, value_eq hnormalized.createdAt]
    updatedAt := ⟨_, h.updatedAt, canonical_isoformat lawful now⟩
    occurredAt := hstamped _ (hothers _ (by decide) (by decide)) hnew.occurredAt
    ingestedAt := hstamped _ (hothers _ (by decide) (by decide)) hnew.ingestedAt
    validFrom := by
      rw [hothers "valid_from" (by decide) (by decide)]
      exact hnew.validFrom.imp_right (hstamped _ (hothers _ (by decide) (by decide)))
    validTo := by
      rw [hothers "valid_to" (by decide) (by decide)]
      exact hnew.validTo.imp_right (hstamped _ (hothers _ (by decide) (by decide)))
    review := by rw [hothers _ (by decide) (by decide)]; exact hnew.review
    sources := sources_self normalizedSources_ne hids hold
    supersedes := by
      rw [hothers _ (by decide) (by decide), hvalue _ (hothers _ (by decide) (by decide))]
      exact hnew.supersedes
    supersededBy := by
      rw [hothers _ (by decide) (by decide), hvalue _ (hothers _ (by decide) (by decide))]
      exact hnew.supersededBy }

theorem normal_persisted (lawful : tools.Lawful) {existing : Option Content} {doc : Document}
    (h : persistedMetadata tools now existing doc = .ok n) (hreview : ReviewNamed tools doc.metadata)
    (hsource : ∀ row, existing = some row → SourceKept tools row doc.metadata) :
    Normal tools n := by
  obtain ⟨metadata, hmetadata, hrow⟩ := persisted_ok h
  have hnormal : Normal tools metadata := normal_normalize lawful hmetadata hreview
  obtain ⟨stamps, -, hfields⟩ := normalize_spec hmetadata
  cases existing with
  | none =>
    rw [hrow]
    exact hnormal
  | some row =>
    obtain ⟨merged, hmerged, hwritten⟩ := replacing_ok hrow
    have hmergedNormal := hmerged.normal hnormal
    have hversions : hasPriorVersionSnapshot metadata (normalizedRevision tools row.metadata)
        row.text = hasPriorVersionSnapshot doc.metadata (normalizedRevision tools row.metadata)
          row.text := hasPrior_congr (hfields.others _ (by decide))
    rcases hwritten with ⟨-, rfl⟩ | ⟨hprior, happend⟩
    · exact hmergedNormal
    · obtain ⟨old, new, hold, hnew, happended⟩ := append_ok happend
      rw [hmergedNormal.normalize] at hnew
      cases hnew
      refine happended.normal lawful hold hmergedNormal ?_
      have hid : merged.value "source_id" = doc.metadata.value "source_id" := by
        rw [Metadata.value, Metadata.value, hmerged.others _ (by decide) (by decide),
          hfields.others _ (by decide)]
      rw [hid]
      rcases hsource row rfl with hsome | hkept | hnone
      · exact Or.inl hsome
      · rw [hversions, hkept] at hprior
        cases hprior
      · exact Or.inr hnone

/-! ## Rows that reopening leaves alone -/

open SqliteStore (migrated legacy migratedRows migrationError)

/-- A row that the migration leaves alone, whenever it runs. -/
def Settled (tools : MetadataTools τ) (row : Content) : Prop :=
  ∀ now, migrated tools now row = .ok row

theorem Normal.settled {text : String} (h : Normal tools m) : Settled tools ⟨text, m⟩ := by
  intro now
  unfold SqliteStore.migrated
  rw [h.normalize]
  show (if Metadata.same m m = true then _ else _) = _
  split <;> rfl

theorem find_eq_lookup {es : List (String × Json)} {k : String} : Dict.find k es = es.lookup k := by
  induction es with
  | nil => rfl
  | cons e rest ih =>
    rw [Dict.find, Json.lookup_cons_if, ih]
    exact if_congr eq_comm rfl rfl

theorem sameEntries_lookup {a b : List (String × Json)} {k : String} {v : Json}
    (h : Json.sameEntries a b = true) (hv : (k, v) ∈ a) :
    ∃ w, b.lookup k = some w ∧ Json.same v w = true := by
  induction a with
  | nil => cases hv
  | cons e rest ih =>
    rw [Json.sameEntries] at h
    split at h
    · rename_i w hw
      obtain ⟨hfirst, hrest⟩ := (Bool.and_eq_true _ _).mp h
      rcases List.mem_cons.mp hv with rfl | hv
      · exact ⟨w, hw, hfirst⟩
      · exact ih hrest hv
    · cases h

theorem same_str {k s : String} (h : Metadata.same n m = true) (hn : n.get k = some (.str s)) :
    m.get k = some (.str s) := by
  unfold Metadata.same Metadata.toJson at h
  rw [Json.same] at h
  have hentries := (of_decide_eq_true h).2
  obtain ⟨w, hw, hsame⟩ := sameEntries_lookup hentries (Dict.get_eq_some.mp hn)
  rw [← find_eq_lookup] at hw
  have hget : m.get k = some w := hw
  cases w with
  | str s' =>
    rw [Json.same] at hsame
    rw [hget, of_decide_eq_true hsame]
  | _ =>
    rw [Json.same] at hsame
    · cases hsame
    all_goals simp

theorem settled_migrated (lawful : tools.Lawful) {row row' : Content}
    (h : migrated tools now row = .ok row') (hreview : ReviewNamed tools row.metadata) :
    Settled tools row' := by
  unfold SqliteStore.migrated at h
  obtain ⟨normalized, hnormalized, h⟩ := Fallible.bind_ok.mp h
  split at h
  · rename_i hsame
    cases Fallible.pure_ok.mp h
    -- the row has its creation time, so that the clock is not read
    obtain ⟨stamps, hstamps, hn⟩ := normalize_spec hnormalized
    obtain ⟨-, hcanonical⟩ := canonical_timestamps lawful hstamps
    have hcreated := same_str hsame hn.createdAt
    have hread : canonicalTimestamp tools (row.metadata.value "created_at") =
        .ok (some stamps.createdAt) := by
      rw [value_eq hcreated]
      exact hcanonical.createdAt
    have hclock (t : τ) : normalizedTimestamps tools t row.metadata =
        normalizedTimestamps tools now row.metadata := by
      unfold normalizedTimestamps
      dsimp only
      rw [hread]
      rfl
    intro t
    unfold SqliteStore.migrated
    have hagain : normalizeMemoryMetadata tools t row.metadata = .ok normalized := by
      rw [← hnormalized]
      unfold normalizeMemoryMetadata
      rw [hclock t]
    rw [hagain]
    show (if Metadata.same normalized row.metadata = true then _ else _) = _
    rw [if_pos hsame]
    rfl
  · cases Fallible.pure_ok.mp h
    exact (normal_normalize lawful hnormalized hreview).settled

/-! ## The two levels -/

/-- The documents in memory are those that reopening the database would load. -/
def Mirrors (tools : MetadataTools τ) (s : SqliteStore) : Prop :=
  ∀ now, ∃ s', s.reopen tools now {} = (s', .ok ()) ∧ ∀ id, s'.docs.get id = s.docs.get id

/-- The documents in memory are the rows, and every row is settled. -/
structure Kept (tools : MetadataTools τ) (s : SqliteStore) : Prop where
  docs : ∀ id, s.docs.get id = s.rows.get id
  settled : ∀ id row, s.rows.get id = some row → Settled tools row

theorem migrate_settled {rows : Dict String Content}
    (h : ∀ id row, rows.get id = some row → Settled tools row) :
    migrationError tools now rows = none ∧
      ∀ id, (migratedRows tools now rows).get id = rows.get id := by
  refine ⟨?_, fun id => ?_⟩
  · unfold SqliteStore.migrationError
    rw [List.findSome?_eq_none_iff]
    intro e he
    rw [h e.1 e.2 (Dict.get_eq_some.mpr he) now]
  · unfold SqliteStore.migratedRows
    rw [Dict.get_mapValues]
    cases hrow : rows.get id with
    | none => rfl
    | some row =>
      show some (((migrated tools now row).toOption).getD row) = some row
      rw [h id row hrow now]
      rfl

theorem reopen_ok {faults : Faults} {s s' : SqliteStore}
    (h : s.reopen tools now faults = (s', .ok ())) : migrationError tools now s.rows = none ∧
      s'.docs = migratedRows tools now s.rows ∧ ∀ id, s'.rows.get id = s'.docs.get id := by
  unfold SqliteStore.reopen at h
  split at h
  · cases h
  · rename_i herror
    dsimp only at h
    split at h
    · split at h
      · cases h
      · cases h
        exact ⟨herror, rfl, fun id => rfl⟩
    · rename_i hnone
      cases h
      refine ⟨herror, rfl, fun id => ?_⟩
      show s.rows.get id = (migratedRows tools now s.rows).get id
      rw [SqliteStore.migratedRows_of_none (Bool.eq_false_iff.mpr hnone)]

theorem Kept.mirrors {s : SqliteStore} (h : Kept tools s) : Mirrors tools s := by
  intro now
  obtain ⟨herror, hrows⟩ := @migrate_settled _ tools now _ h.settled
  have hloaded (id : String) : (migratedRows tools now s.rows).get id = s.docs.get id :=
    (hrows id).trans (h.docs id).symm
  unfold SqliteStore.reopen
  rw [herror]
  dsimp only
  split
  · exact ⟨_, rfl, hloaded⟩
  · exact ⟨_, rfl, hloaded⟩

theorem kept_opened (lawful : tools.Lawful) {faults : Faults} {file s : SqliteStore}
    (hopen : file.reopen tools now faults = (s, .ok ()))
    (hfile : ∀ id row, file.rows.get id = some row → ReviewNamed tools row.metadata) :
    Kept tools s := by
  obtain ⟨herror, hdocs, hrows⟩ := reopen_ok hopen
  refine ⟨fun id => (hrows id).symm, fun id row hrow => ?_⟩
  rw [hrows, hdocs] at hrow
  unfold SqliteStore.migratedRows at hrow
  rw [Dict.get_mapValues] at hrow
  obtain ⟨old, hold, hnew⟩ := Option.map_eq_some_iff.mp hrow
  unfold SqliteStore.migrationError at herror
  have hentry := List.findSome?_eq_none_iff.mp herror (id, old) (Dict.get_eq_some.mp hold)
  dsimp only at hentry
  cases hmigrated : migrated tools now old with
  | error e =>
    rw [hmigrated] at hentry
    cases hentry
  | ok content =>
    have hrow : content = row := by
      rw [hmigrated] at hnew
      exact hnew
    rw [← hrow]
    exact settled_migrated lawful hmigrated (hfile id old hold)

/-! ## One method -/

/-- A call of a method, the time it reads and where it raises. -/
structure StoreCall (τ : Type) where
  now : τ
  faults : Faults
  op : StoreOp

def SqliteStore.after (tools : MetadataTools τ) (s : SqliteStore) (call : StoreCall τ) :
    SqliteStore × Except PyError Unit :=
  s.apply tools call.now call.faults call.op

inductive StoreStep (tools : MetadataTools τ) (s : SqliteStore) : StoreCall τ → SqliteStore → Prop
  | call {call : StoreCall τ} : StoreStep tools s call (s.after tools call).1

/-- A document whose metadata is spelled as it will be read: its review status is no blank
    text and it names no source that the new version of its row does not list. -/
def Spelled (tools : MetadataTools τ) (s : SqliteStore) (doc : Document) : Prop :=
  ReviewNamed tools doc.metadata ∧
    ∀ row, s.rows.get doc.id = some row → SourceKept tools row doc.metadata

/-- The calls that keep the two levels together: SQLite raises, or the embedding does not and
    the metadata is spelled as it will be read. -/
def Harmless (tools : MetadataTools τ) (s : SqliteStore) (call : StoreCall τ) : Prop :=
  call.faults.sql = true ∨
    match call.op with
    | .add doc => call.faults.embedding = false ∧ Spelled tools s doc
    | .addMetadata doc => Spelled tools s doc
    | .updateMetadata id m => (s.rows.get id).isSome → ReviewNamed tools m
    | .delete _ => True
    | .reopen => True

section Step

variable {s s' : SqliteStore} {call : StoreCall τ} {faults : Faults}

theorem Kept.set (h : Kept tools s) {id text : String} {m : Metadata} (hm : Normal tools m)
    (revision : ℕ) : Kept tools { s with
      rows := s.rows.set id ⟨text, m⟩
      docs := s.docs.set id ⟨text, m⟩
      revision } := by
  refine ⟨fun id' => ?_, fun id' row hrow => ?_⟩
  · show (s.docs.set id _).get id' = (s.rows.set id _).get id'
    rw [Dict.get_set, Dict.get_set, h.docs]
  · have hrow' : (s.rows.set id ⟨text, m⟩).get id' = some row := hrow
    rw [Dict.get_set] at hrow'
    split at hrow'
    · cases hrow'
      exact hm.settled
    · exact h.settled id' row hrow'

theorem Kept.persist (lawful : tools.Lawful) (h : Kept tools s) {doc : Document}
    (hspelled : Spelled tools s doc)
    (hpersist : s.persist tools now faults doc = .ok (s', m)) :
    Kept tools { s' with docs := s.docs.set doc.id ⟨doc.text, m⟩ } := by
  obtain ⟨hmetadata, -, rfl⟩ := SqliteStore.persist_ok hpersist
  exact h.set (normal_persisted lawful hmetadata hspelled.1 hspelled.2) _

theorem get_putMetadata {docs : Dict String Content} {id id' : String} :
    (SqliteStore.putMetadata docs id m).get id' =
      if id' = id then (docs.get id).map (fun content => { content with metadata := m })
      else docs.get id' := by
  unfold SqliteStore.putMetadata
  cases hdoc : docs.get id with
  | some content => exact Dict.get_set
  | none =>
    show docs.get id' = _
    split
    · rename_i heq
      rw [heq, hdoc]
      rfl
    · rfl

theorem kept_after (lawful : tools.Lawful) (h : Kept tools s) (hcall : Harmless tools s call) :
    Kept tools (s.after tools call).1 ∧ ((s.after tools call).2 ≠ .ok () →
      (s.after tools call).1.rows = s.rows ∧ (s.after tools call).1.docs = s.docs) := by
  obtain ⟨now, faults, op⟩ := call
  unfold SqliteStore.after SqliteStore.apply
  cases op with
  | add doc =>
    dsimp only
    unfold SqliteStore.addDocument
    split
    · exact ⟨h, fun _ => ⟨rfl, rfl⟩⟩
    · rename_i written metadata hpersist
      have hsql : faults.sql = false := (SqliteStore.persist_ok hpersist).2.1
      rcases hcall with hraises | ⟨hembedding, hspelled⟩
      · exact absurd (hsql.symm.trans hraises) Bool.false_ne_true
      · rw [if_neg (Bool.eq_false_iff.mp hembedding)]
        exact ⟨h.persist lawful hspelled hpersist, fun hok => absurd rfl hok⟩
  | addMetadata doc =>
    dsimp only
    unfold SqliteStore.addMetadataDocument
    split
    · exact ⟨h, fun _ => ⟨rfl, rfl⟩⟩
    · rename_i written metadata hpersist
      have hsql : faults.sql = false := (SqliteStore.persist_ok hpersist).2.1
      rcases hcall with hraises | hspelled
      · exact absurd (hsql.symm.trans hraises) Bool.false_ne_true
      · exact ⟨h.persist lawful hspelled hpersist, fun hok => absurd rfl hok⟩
  | updateMetadata id metadata =>
    dsimp only
    unfold SqliteStore.updateMetadata
    split
    · exact ⟨h, fun _ => ⟨rfl, rfl⟩⟩
    · rename_i normalized hnormalized
      split
      · exact ⟨h, fun _ => ⟨rfl, rfl⟩⟩
      · rename_i hsql
        split
        · exact ⟨h, fun _ => ⟨rfl, rfl⟩⟩
        · rename_i hrow
          have hthere : (s.rows.get id).isSome := by
            rw [Option.isSome_iff_ne_none]
            exact fun hnone => hrow (by rw [hnone]; rfl)
          rcases hcall with hraises | hnamed
          · exact absurd hraises hsql
          · have hnormal := normal_normalize lawful hnormalized (hnamed hthere)
            refine ⟨⟨fun id' => ?_, fun id' row hrow' => ?_⟩, fun hok => absurd rfl hok⟩
            · show (SqliteStore.putMetadata s.docs id normalized).get id' =
                (SqliteStore.putMetadata s.rows id normalized).get id'
              rw [get_putMetadata, get_putMetadata, h.docs, h.docs]
            · have hput : (SqliteStore.putMetadata s.rows id normalized).get id' = some row := hrow'
              rw [get_putMetadata] at hput
              split at hput
              · obtain ⟨content, -, hcontent⟩ := Option.map_eq_some_iff.mp hput
                rw [← hcontent]
                exact hnormal.settled
              · exact h.settled id' row hput
  | delete id =>
    dsimp only
    unfold SqliteStore.deleteDocument
    split
    · exact ⟨h, fun _ => ⟨rfl, rfl⟩⟩
    · refine ⟨⟨fun id' => ?_, fun id' row hrow => ?_⟩, fun hok => absurd rfl hok⟩
      · show (s.docs.erase id).get id' = (s.rows.erase id).get id'
        rw [Dict.get_erase, Dict.get_erase, h.docs]
      · have herased : (s.rows.erase id).get id' = some row := hrow
        rw [Dict.get_erase] at herased
        split at herased
        · cases herased
        · exact h.settled id' row herased
  | reopen =>
    dsimp only
    obtain ⟨herror, hrows⟩ := @migrate_settled _ tools now _ h.settled
    have hsettled (id : String) (row : Content)
        (hrow : (migratedRows tools now s.rows).get id = some row) : Settled tools row :=
      h.settled id row ((hrows id).symm.trans hrow)
    unfold SqliteStore.reopen
    rw [herror]
    dsimp only
    split
    · split
      · exact ⟨h, fun _ => ⟨rfl, rfl⟩⟩
      · exact ⟨⟨fun _ => rfl, hsettled⟩, fun hok => absurd rfl hok⟩
    · exact ⟨⟨hrows, h.settled⟩, fun hok => absurd rfl hok⟩

end Step

/-! ## Runs -/

/-- A call that keeps the two levels together. -/
def HarmlessStep (tools : MetadataTools τ) (s : SqliteStore) (call : StoreCall τ)
    (s' : SqliteStore) : Prop :=
  StoreStep tools s call s' ∧ Harmless tools s call

/-- A store opened on any file, and any run of its methods in which no embedding raises after
    the row is written and all metadata is spelled as it will be read: the documents in memory
    are those that reopening would load, and a method that raises changes neither level. -/
theorem mirrors_database {tools : MetadataTools τ} (lawful : tools.Lawful) {file s₀ s : SqliteStore}
    {faults : Faults} {calls : List (StoreCall τ)}
    (hopen : file.reopen tools now faults = (s₀, .ok ()))
    (hfile : ∀ id row, file.rows.get id = some row → ReviewNamed tools row.metadata)
    (hrun : Run (HarmlessStep tools) s₀ calls s) :
    Mirrors tools s ∧ ∀ call, Harmless tools s call → (s.after tools call).2 ≠ .ok () →
      (s.after tools call).1.rows = s.rows ∧ (s.after tools call).1.docs = s.docs := by
  have hkept : Kept tools s := by
    refine hrun.invariant (kept_opened lawful hopen hfile) (fun s call s' h hstep => ?_)
    obtain ⟨hcall, hharmless⟩ := hstep
    cases hcall with
    | call => exact (kept_after lawful h hharmless).1
  exact ⟨hkept.mirrors, fun call hcall => (kept_after lawful hkept hcall).2⟩

def teaNote : Document := { id := "m1", text := "The user likes tea.", metadata := Dict.empty }

/-- The note is added to a new store, then a second write of it that SQLite refuses. -/
theorem mirrors_database_note :
    Mirrors newYear (({} : SqliteStore).after newYear ⟨false, {}, .add teaNote⟩).1 ∧
      ∀ call, Harmless newYear (({} : SqliteStore).after newYear ⟨false, {}, .add teaNote⟩).1 call →
        ((({} : SqliteStore).after newYear ⟨false, {}, .add teaNote⟩).1.after newYear call).2 ≠
          .ok () →
        ((({} : SqliteStore).after newYear ⟨false, {}, .add teaNote⟩).1.after newYear call).1.rows =
          (({} : SqliteStore).after newYear ⟨false, {}, .add teaNote⟩).1.rows ∧
        ((({} : SqliteStore).after newYear ⟨false, {}, .add teaNote⟩).1.after newYear call).1.docs =
          (({} : SqliteStore).after newYear ⟨false, {}, .add teaNote⟩).1.docs := by
  have hopen : ({} : SqliteStore).reopen newYear false {} = ({}, .ok ()) := by decide +kernel
  have hharmless : Harmless newYear {} ⟨false, {}, .add teaNote⟩ :=
    Or.inr ⟨rfl, fun htruthy => absurd htruthy (by decide), fun _ hrow => by cases hrow⟩
  exact mirrors_database newYear_lawful hopen (fun _ _ hrow => by cases hrow)
    (Run.next Run.start ⟨StoreStep.call, hharmless⟩)

/-- An embedding that raises leaves a row that is not in memory. -/
theorem embedding_splits :
    (({} : SqliteStore).after newYear ⟨false, { embedding := true }, .add teaNote⟩).2 =
        .error .embeddingError ∧
      (({} : SqliteStore).after newYear ⟨false, { embedding := true }, .add teaNote⟩).1.rows ≠
        ({} : SqliteStore).rows ∧
      ¬ Mirrors newYear
        (({} : SqliteStore).after newYear ⟨false, { embedding := true }, .add teaNote⟩).1 := by
  refine ⟨by decide +kernel, by decide +kernel, fun hmirrors => ?_⟩
  obtain ⟨s', hreopen, hdocs⟩ := hmirrors false
  have hloaded : (s'.docs.get "m1").isSome := by
    have hstore : s' = _ := (congrArg Prod.fst hreopen).symm
    rw [hstore]
    decide +kernel
  rw [hdocs] at hloaded
  exact absurd hloaded (by decide +kernel)

end Memory
