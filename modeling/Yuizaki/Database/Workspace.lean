import Yuizaki.Database.Tables
import Yuizaki.Lib.Transaction
import Mathlib.Data.List.Pairwise
import Mathlib.Data.List.Infix

/- The workspace context and its revision (`update_workspace`, `import_workspace_context`
   and `delete_workspace` in `database/repository.py`).

   A context write sets the revision to one more than the row it read before it took the
   lock. The `WHERE` clause compares the revision only where the caller expects one, an
   imported context compares nothing, and a delete compares what it read. `compare_and_set` says that
   the revisions of a workspace increase from write to write, and that an expectation is met
   only where no context was written since the revision it names, exactly along the runs in
   which every such write finds the row as it was read. -/
namespace Database

open Transition Transaction

/-! ## The functions -/

/-- What the functions raise, and `False` from an import. -/
inductive WorkspaceAnswer where
  | database (message : String)
  | conflict (workspaceId : String) (expected current : ℤ) (context : Option Json)
  | notImported
deriving DecidableEq

/-- `str(value)`, and `json.loads` with the text of its error. -/
structure WorkspaceTools where
  str : Json → String
  loads : String → Except String Json

/-- A write that was asked for in the history of a store: the revision it gave to the context,
if it wrote one, and the revision its caller expected. -/
structure ContextCommit where
  workspace : String
  revision : Option ℤ
  expected : Option ℤ
deriving DecidableEq

/-- The tables, with the writes to workspaces so far, newest first. -/
structure WorkspaceStore where
  tables : Tables
  commits : List ContextCommit

/-- The calls: a context that is not given leaves the stored one alone. -/
inductive WorkspaceOp where
  | update (workspaceId : String) (updates : Dict String Json) (context : Option (Option Json))
      (expected : Option ℤ)
  | importContext (workspaceId : String) (context : Json) (revision : ℤ)
  | delete (workspaceId : String) (expected : Option ℤ)

/-- A write with what the call has read. -/
inductive WorkspaceWrite where
  | update (workspaceId : String) (values : Dict String Json) (context : Option (Option Json))
      (readRevision : ℤ) (expected : Option ℤ)
  | importContext (workspaceId : String) (context : Json) (revision : ℤ)
  | delete (workspaceId : String) (expected : Option ℤ)

abbrev WorkspaceCall := Call WorkspaceStore WorkspaceWrite WorkspaceAnswer

/-- The columns that `update_workspace` sets from its updates. -/
def updateColumns : List String :=
  ["name", "description", "icon", "color", "companion_profile_id", "default_model",
    "system_prompt", "tool_preset", "memory_scope", "mcp_preset_id"]

section Normalize

variable (tools : WorkspaceTools)

/-- The requested companion: `str(value or "default").strip() or "default"`. -/
def requestedCompanion (value : Json) : String :=
  let id := PyStr.strip (tools.str (value.or (.str "default")))
  if id = "" then "default" else id

/-- A tool preset must be a JSON array of strings; a blank one is null. -/
def normalizeToolPreset (raw : Json) : Except String Json :=
  match raw with
  | .null => .ok .null
  | raw =>
    let text := PyStr.strip (tools.str raw)
    if text = "" then .ok .null
    else match tools.loads text with
      | .error e => .error ("tool_preset is not valid JSON: " ++ e)
      | .ok (.arr items) =>
        if items.all (fun item => match item with | .str _ => true | _ => false) then .ok raw
        else .error "tool_preset must be a JSON array of tool name strings"
      | .ok _ => .error "tool_preset must be a JSON array of tool name strings"

/-- A preset id without blanks around it, or null. -/
def normalizeMcpPreset (raw : Json) : Json :=
  match raw with
  | .null => .null
  | raw =>
    let text := PyStr.strip (tools.str raw)
    if text = "" then .null else .str text

def normalizeMemoryScope (raw : Json) : Except String Json :=
  match raw with
  | .null => .ok .null
  | raw =>
    let scope := PyStr.strip (tools.str raw)
    if scope ∈ ["global", "workspace", "session"] then .ok (.str scope)
    else .error ("invalid_memory_scope: " ++ scope)

/-- A column that is among the updates goes through its check. -/
def putChecked (updates : Dict String Json) (column : String) (check : Json → Except String Json) :
    Except String (Dict String Json) :=
  match updates.get column with
  | none => .ok updates
  | some raw => do return updates.set column (← check raw)

/-- The checks of `update_workspace`, with the companions that are stored. -/
def normalizeUpdates (companions : List String) (updates : Dict String Json) :
    Except String (Dict String Json) := do
  let updates ← putChecked updates "companion_profile_id" fun raw =>
    if requestedCompanion tools raw ∈ companions then .ok (.str (requestedCompanion tools raw))
    else .error ("invalid_companion_binding: " ++ requestedCompanion tools raw)
  let updates ← putChecked updates "tool_preset" (normalizeToolPreset tools)
  let updates ← putChecked updates "mcp_preset_id" fun raw => .ok (normalizeMcpPreset tools raw)
  putChecked updates "memory_scope" (normalizeMemoryScope tools)

/-- An update past its reads: the checks, and the write. -/
def checkedUpdate (workspaceId : String) (updates : Dict String Json) (context : Option (Option Json))
    (expected : Option ℤ) (readRevision : ℤ) (companions : List String) : WorkspaceCall :=
  match normalizeUpdates tools companions updates with
  | .error e => .quit (.database ("failed_to_update_workspace: " ++ e))
  | .ok updates =>
    let values := updates.filter (fun column _ => column ∈ updateColumns)
    .write (.update workspaceId values context readRevision expected)

/-- `update_workspace` up to its first write: it reads the row, and the companion where one is
given. -/
def updateWorkspace (workspaceId : String) (updates : Dict String Json) (context : Option (Option Json))
    (expected : Option ℤ) : WorkspaceCall :=
  .read fun store =>
    match store.tables.workspaces.get workspaceId with
    | none => .quit (.database ("failed_to_update_workspace: workspace_not_found: " ++ workspaceId))
    | some row =>
      if (updates.get "companion_profile_id").isSome then
        .read fun store =>
          checkedUpdate tools workspaceId updates context expected row.contextRevision
            store.tables.companions
      else checkedUpdate tools workspaceId updates context expected row.contextRevision []

end Normalize

/-- `import_workspace_context` up to its write. -/
def importWorkspaceContext (workspaceId : String) (context : Json) (revision : ℤ) : WorkspaceCall :=
  .read fun store =>
    match store.tables.workspaces.get workspaceId with
    | none => .quit .notImported
    | some row =>
      if row.context ≠ none ∨ 0 < row.contextRevision then .quit .notImported
      else .write (.importContext workspaceId context revision)

/-- `delete_workspace` up to its first write. -/
def deleteWorkspace (workspaceId : String) (expected : Option ℤ) : WorkspaceCall :=
  if workspaceId = "default" then
    .quit (.database "failed_to_delete_workspace: cannot_delete_default_workspace")
  else .read fun store =>
    match store.tables.workspaces.get workspaceId with
    | none => .quit (.database ("failed_to_delete_workspace: workspace_not_found: " ++ workspaceId))
    | some row =>
      match expected with
      | none => .write (.delete workspaceId none)
      | some r =>
        if r ≠ row.contextRevision then
          .quit (.conflict workspaceId r row.contextRevision row.context)
        else .write (.delete workspaceId (some r))

def workspaceBody (tools : WorkspaceTools) : WorkspaceOp → WorkspaceCall
  | .update id updates context expected => updateWorkspace tools id updates context expected
  | .importContext id context revision => importWorkspaceContext id context revision
  | .delete id expected => deleteWorkspace id expected

def WorkspaceRow.updated (row : WorkspaceRow) (values : Dict String Json) (context : Option (Option Json))
    (readRevision : ℤ) : WorkspaceRow :=
  let row := { row with fields := values.entries.foldl (fun d e => d.set e.1 e.2) row.fields }
  match context with
  | none => row
  | some context => { row with context, contextRevision := readRevision + 1 }

/-- A store with a row and the record of its write. -/
def WorkspaceStore.put (store : WorkspaceStore) (id : String) (row : WorkspaceRow) (commit : ContextCommit) :
    WorkspaceStore :=
  { tables := { store.tables with workspaces := store.tables.workspaces.set id row }
    commits := commit :: store.commits }

/-- The write of a call, from its first statement to its commit. -/
def workspaceCommit : WorkspaceWrite → WorkspaceStore → Except WorkspaceAnswer WorkspaceStore
  | .update id values context readRevision expected, store =>
    match store.tables.workspaces.get id with
    | none => .error (.database ("failed_to_update_workspace: workspace_not_found: " ++ id))
    | some row =>
      match expected with
      | some r =>
        if row.contextRevision = r then
          .ok (store.put id (row.updated values context readRevision)
            ⟨id, context.map fun _ => readRevision + 1, some r⟩)
        else .error (.conflict id r row.contextRevision row.context)
      | none =>
        .ok (store.put id (row.updated values context readRevision)
          ⟨id, context.map fun _ => readRevision + 1, none⟩)
  | .importContext id context revision, store =>
    match store.tables.workspaces.get id with
    | none => .error (.database ("failed_to_import_workspace_context: UPDATE statement on table " ++
        "'workspaces' expected to update 1 row(s); 0 were matched."))
    | some row =>
      .ok (store.put id { row with context := some context, contextRevision := max revision 1 }
        ⟨id, some (max revision 1), none⟩)
  | .delete id expected, store =>
    let sessions := store.tables.sessions.mapValues fun _ row =>
      if row.workspaceId = some id then { row with workspaceId := some "default" } else row
    let tables := { store.tables with sessions, workspaces := store.tables.workspaces.erase id }
    match store.tables.workspaces.get id with
    | none => .ok { store with tables }
    | some _ => .ok { tables, commits := ⟨id, none, expected⟩ :: store.commits }

/-! ## What is claimed -/

/-- The revisions that were given to the context of a workspace, newest first. -/
def revisionsOf (id : String) (commits : List ContextCommit) : List ℤ :=
  commits.filterMap fun c => if c.workspace = id then c.revision else none

/-- Context writes give increasing revisions, and an expectation was met only where no context
of the workspace was written since the write that gave the expected revision. -/
structure Serial (commits : List ContextCommit) : Prop where
  increasing : ∀ id, (revisionsOf id commits).Pairwise (· > ·)
  current : ∀ newer c mid d older r, commits = newer ++ c :: (mid ++ d :: older) →
    c.expected = some r → d.workspace = c.workspace → d.revision = some r →
    ∀ e ∈ mid, e.workspace = c.workspace → e.revision = none

/-- The store at the start, in whose history every row gave its revision. -/
def WorkspaceStore.seed (tables : Tables) : WorkspaceStore :=
  { tables
    commits := tables.workspaces.entries.map fun e => ⟨e.1, some e.2.contextRevision, none⟩ }

/-- A write finds the row as it was read: an update that writes a context finds the revision it
read, an import finds a smaller one than it brings, and a delete finds the one it expects. -/
def FindsCurrent (store : WorkspaceStore) : WorkspaceWrite → Prop
  | .update id _ context readRevision expected => ∀ row, store.tables.workspaces.get id = some row →
      context.isSome → (∀ r, expected = some r → row.contextRevision = r) →
      row.contextRevision = readRevision
  | .importContext id _ revision => ∀ row, store.tables.workspaces.get id = some row →
      row.contextRevision < max revision 1
  | .delete id expected => ∀ row r, store.tables.workspaces.get id = some row →
      expected = some r → row.contextRevision = r

/-! ## Revisions -/

section Revisions

variable {id : String} {c d : ContextCommit} {commits older : List ContextCommit} {r : ℤ}

theorem revisionsOf_append : revisionsOf id (commits ++ older) =
    revisionsOf id commits ++ revisionsOf id older := by
  rw [revisionsOf, List.filterMap_append]
  rfl

theorem revisionsOf_cons_some (hid : c.workspace = id) (hr : c.revision = some r) :
    revisionsOf id (c :: commits) = r :: revisionsOf id commits := by
  rw [revisionsOf, List.filterMap_cons]
  simp only [hid, hr, if_true]
  rfl

theorem revisionsOf_cons_none (h : c.workspace = id → c.revision = none) :
    revisionsOf id (c :: commits) = revisionsOf id commits := by
  have hnone : (if c.workspace = id then c.revision else none) = none := by
    split
    · exact h ‹_›
    · rfl
  rw [revisionsOf, List.filterMap_cons, hnone]
  rfl

theorem mem_revisionsOf : r ∈ revisionsOf id commits ↔
    ∃ c ∈ commits, c.workspace = id ∧ c.revision = some r := by
  rw [revisionsOf, List.mem_filterMap]
  constructor
  · intro h
    obtain ⟨c, hc, hr⟩ := h
    split at hr
    · exact ⟨c, hc, ‹_›, hr⟩
    · cases hr
  · intro h
    obtain ⟨c, hc, hid, hr⟩ := h
    exact ⟨c, hc, by rw [if_pos hid]; exact hr⟩

theorem le_newest {l : List ℤ} {a x : ℤ} (h : l.Pairwise (· > ·)) (ha : l.head? = some a)
    (hx : x ∈ l) : x ≤ a := by
  cases l with
  | nil => cases ha
  | cons b rest =>
    obtain rfl : b = a := Option.some.inj ha
    obtain rfl | hrest := List.mem_cons.mp hx
    · exact Int.le_refl _
    · have hlt : b > x := List.rel_of_pairwise_cons h hrest
      omega

theorem Serial.cons (h : Serial commits)
    (hincreasing : ∀ r, c.revision = some r → ∀ x ∈ revisionsOf c.workspace commits, x < r)
    (hcurrent : ∀ mid d older r, commits = mid ++ d :: older → c.expected = some r →
      d.workspace = c.workspace → d.revision = some r →
      ∀ e ∈ mid, e.workspace = c.workspace → e.revision = none) : Serial (c :: commits) where
  increasing id := by
    by_cases hid : c.workspace = id
    · subst hid
      cases hr : c.revision with
      | none =>
        rw [revisionsOf_cons_none fun _ => hr]
        exact h.increasing c.workspace
      | some r =>
        rw [revisionsOf_cons_some rfl hr]
        exact List.pairwise_cons.mpr ⟨hincreasing r hr, h.increasing c.workspace⟩
    · rw [revisionsOf_cons_none fun heq => absurd heq hid]
      exact h.increasing id
  current newer c' mid d older r hsplit := by
    cases newer with
    | nil =>
      obtain ⟨rfl, hrest⟩ := List.cons.inj hsplit
      exact hcurrent mid d older r hrest
    | cons first rest =>
      obtain ⟨-, hrest⟩ := List.cons.inj hsplit
      exact h.current rest c' mid d older r hrest

theorem Serial.cons_free (h : Serial commits) (hfree : c.expected = none)
    (hincreasing : ∀ r, c.revision = some r → ∀ x ∈ revisionsOf c.workspace commits, x < r) :
    Serial (c :: commits) :=
  h.cons hincreasing fun _ _ _ r _ hr => by
    rw [hfree] at hr
    cases hr

theorem Serial.cons_expected (h : Serial commits) (hexpected : c.expected = some r)
    (hnewest : (revisionsOf c.workspace commits).head? = some r)
    (hincreasing : ∀ r, c.revision = some r → ∀ x ∈ revisionsOf c.workspace commits, x < r) :
    Serial (c :: commits) := by
  refine h.cons hincreasing fun mid d older r' hsplit hr hd hdr e he heid => ?_
  obtain rfl : r = r' := Option.some.inj (hexpected.symm.trans hr)
  have hlist : revisionsOf c.workspace commits =
      revisionsOf c.workspace mid ++ r :: revisionsOf c.workspace older := by
    rw [hsplit, revisionsOf_append, revisionsOf_cons_some hd hdr]
  cases hx : e.revision with
  | none => rfl
  | some x =>
    -- a context written in between would have a revision above the newest
    have hmid : x ∈ revisionsOf c.workspace mid := mem_revisionsOf.mpr ⟨e, he, heid, hx⟩
    have hmem : x ∈ revisionsOf c.workspace commits := by
      rw [hlist]
      exact List.mem_append_left _ hmid
    have hpairwise := h.increasing c.workspace
    have hle : x ≤ r := le_newest hpairwise hnewest hmem
    rw [hlist] at hpairwise
    have hgt : x > r := (List.pairwise_append.mp hpairwise).2.2 x hmid r List.mem_cons_self
    omega

theorem Serial.expected_newest (h : Serial (c :: commits)) (hexpected : c.expected = some r)
    (hmem : r ∈ revisionsOf c.workspace commits) :
    (revisionsOf c.workspace commits).head? = some r := by
  obtain ⟨d, hd, hid, hr⟩ := mem_revisionsOf.mp hmem
  obtain ⟨mid, older, hsplit⟩ := List.append_of_mem hd
  have hnone : revisionsOf c.workspace mid = [] := by
    rw [List.eq_nil_iff_forall_not_mem]
    intro x hx
    obtain ⟨e, he, heid, hex⟩ := mem_revisionsOf.mp hx
    have hfree := h.current [] c mid d older r (by rw [hsplit]; rfl) hexpected hid hr e he heid
    rw [hfree] at hex
    cases hex
  rw [hsplit, revisionsOf_append, revisionsOf_cons_some hid hr, hnone]
  rfl

theorem Serial.front_lt (h : Serial (c :: commits)) (hr : c.revision = some r) {x : ℤ}
    (hx : x ∈ revisionsOf c.workspace commits) : x < r := by
  have hpairwise := h.increasing c.workspace
  rw [revisionsOf_cons_some rfl hr] at hpairwise
  exact List.rel_of_pairwise_cons hpairwise hx

end Revisions

/-! ## Runs -/

/-- The revision of a row is the newest that was given. -/
def WorkspaceStore.Recorded (store : WorkspaceStore) : Prop :=
  ∀ id row, store.tables.workspaces.get id = some row →
    (revisionsOf id store.commits).head? = some row.contextRevision

def WorkspaceStore.Later (store store' : WorkspaceStore) : Prop := store.commits <:+ store'.commits

/-- What a pending write has read of the revision was given once. -/
def WasRead (store : WorkspaceStore) : WorkspaceWrite → Prop
  | .update id _ _ readRevision _ => readRevision ∈ revisionsOf id store.commits
  | .importContext _ _ _ => True
  | .delete id expected => ∀ r, expected = some r → r ∈ revisionsOf id store.commits

section Store

variable {tools : WorkspaceTools} {store store' : WorkspaceStore} {w : WorkspaceWrite}

theorem later_mem {id : String} {r : ℤ} (hlater : store.Later store')
    (h : r ∈ revisionsOf id store.commits) : r ∈ revisionsOf id store'.commits := by
  obtain ⟨c, hc, hid, hr⟩ := mem_revisionsOf.mp h
  exact mem_revisionsOf.mpr ⟨c, hlater.subset hc, hid, hr⟩

theorem wasRead_later (h : WasRead store w) (hlater : store.Later store') : WasRead store' w := by
  cases w with
  | update id values context readRevision expected => exact later_mem hlater h
  | importContext id context revision => exact trivial
  | delete id expected => exact fun r hr => later_mem hlater (h r hr)

theorem WorkspaceStore.Recorded.mem (h : store.Recorded) {id : String} {row : WorkspaceRow}
    (hrow : store.tables.workspaces.get id = some row) :
    row.contextRevision ∈ revisionsOf id store.commits :=
  List.mem_of_mem_head? (h id row hrow)

theorem workspaceBody_honest (op : WorkspaceOp) :
    (workspaceBody tools op).Honest WorkspaceStore.Recorded WorkspaceStore.Later WasRead store := by
  have hchecked (id : String) (updates : Dict String Json) (context : Option (Option Json))
      (expected : Option ℤ) (r : ℤ) (companions : List String) {store : WorkspaceStore}
      (hr : r ∈ revisionsOf id store.commits) :
      (checkedUpdate tools id updates context expected r companions).Honest
        WorkspaceStore.Recorded WorkspaceStore.Later WasRead store := by
    unfold checkedUpdate
    split
    · exact trivial
    · exact hr
  cases op with
  | update id updates context expected =>
    intro read hread _
    show Call.Honest _ _ _ (match read.tables.workspaces.get id with | none => _ | some row => _) read
    split
    · exact trivial
    · rename_i row hrow
      split
      · intro second _ hlater
        exact hchecked _ _ _ _ _ _ (later_mem hlater (hread.mem hrow))
      · exact hchecked _ _ _ _ _ _ (hread.mem hrow)
  | importContext id context revision =>
    intro read hread _
    show Call.Honest _ _ _ (match read.tables.workspaces.get id with | none => _ | some row => _) read
    split
    · exact trivial
    · split
      · exact trivial
      · exact trivial
  | delete id expected =>
    show Call.Honest _ _ _ (deleteWorkspace id expected) store
    unfold deleteWorkspace
    split
    · exact trivial
    · intro read hread _
      show Call.Honest _ _ _ (match read.tables.workspaces.get id with | none => _ | some row => _) read
      split
      · exact trivial
      · rename_i row hrow
        split
        · exact fun r hr => by cases hr
        · rename_i r
          split
          · exact trivial
          · rename_i heq
            intro r' hr
            obtain rfl : r = r' := Option.some.inj hr
            rw [not_not.mp heq]
            exact hread.mem hrow

/-! ## The writes -/

theorem workspaceCommit_cases (h : workspaceCommit w store = .ok store') :
    (∃ id values context readRevision expected row,
      w = .update id values context readRevision expected ∧
      store.tables.workspaces.get id = some row ∧
      (∀ r, expected = some r → row.contextRevision = r) ∧
      store' = store.put id (row.updated values context readRevision)
        ⟨id, context.map fun _ => readRevision + 1, expected⟩) ∨
    (∃ id context revision row, w = .importContext id context revision ∧
      store.tables.workspaces.get id = some row ∧
      store' = store.put id { row with context := some context, contextRevision := max revision 1 }
        ⟨id, some (max revision 1), none⟩) ∨
    (∃ id expected, w = .delete id expected ∧
      (∀ k, store'.tables.workspaces.get k =
        if k = id then none else store.tables.workspaces.get k) ∧
      (store.tables.workspaces.get id = none ∧ store'.commits = store.commits ∨
        ∃ row, store.tables.workspaces.get id = some row ∧
          store'.commits = ⟨id, none, expected⟩ :: store.commits)) := by
  cases w with
  | update id values context readRevision expected =>
    simp only [workspaceCommit] at h
    split at h
    · cases h
    · rename_i row hrow
      split at h
      · rename_i r
        split at h
        · rename_i hr
          obtain rfl := Except.ok.inj h
          refine Or.inl ⟨id, values, context, readRevision, some r, row, rfl, hrow, ?_, rfl⟩
          intro r' hr'
          rw [hr]
          exact Option.some.inj hr'
        · cases h
      · obtain rfl := Except.ok.inj h
        exact Or.inl ⟨id, values, context, readRevision, none, row, rfl, hrow,
          (fun _ hr => by cases hr), rfl⟩
  | importContext id context revision =>
    simp only [workspaceCommit] at h
    split at h
    · cases h
    · rename_i row hrow
      obtain rfl := Except.ok.inj h
      exact Or.inr (Or.inl ⟨id, context, revision, row, rfl, hrow, rfl⟩)
  | delete id expected =>
    simp only [workspaceCommit] at h
    split at h
    · rename_i hrow
      obtain rfl := Except.ok.inj h
      exact Or.inr (Or.inr ⟨id, expected, rfl, fun k => Dict.get_erase, Or.inl ⟨hrow, rfl⟩⟩)
    · rename_i row hrow
      obtain rfl := Except.ok.inj h
      exact Or.inr (Or.inr ⟨id, expected, rfl, fun k => Dict.get_erase, Or.inr ⟨row, hrow, rfl⟩⟩)

theorem findsCurrent_of_error {answer : WorkspaceAnswer} (h : workspaceCommit w store = .error answer) :
    FindsCurrent store w := by
  cases w with
  | update id values context readRevision expected =>
    intro row hrow _ hguard
    simp only [workspaceCommit, hrow] at h
    split at h
    · rename_i r
      rw [if_pos (hguard r rfl)] at h
      cases h
    · cases h
  | importContext id context revision =>
    intro row hrow
    simp only [workspaceCommit, hrow] at h
    cases h
  | delete id expected =>
    simp only [workspaceCommit] at h
    split at h
    · cases h
    · cases h

theorem WorkspaceStore.Recorded.put (h : store.Recorded) {id : String} {row row' : WorkspaceRow}
    {commit : ContextCommit} (hrow : store.tables.workspaces.get id = some row)
    (hid : commit.workspace = id)
    (hrevision : commit.revision = some row'.contextRevision ∨
      commit.revision = none ∧ row'.contextRevision = row.contextRevision) :
    (store.put id row' commit).Recorded := by
  intro k found hfound
  show (revisionsOf k (commit :: store.commits)).head? = some found.contextRevision
  rw [WorkspaceStore.put, Dict.get_set] at hfound
  split at hfound
  · rename_i hk
    obtain rfl : row' = found := Option.some.inj hfound
    subst hk
    obtain hsome | ⟨hnone, hsame⟩ := hrevision
    · rw [revisionsOf_cons_some hid hsome]
      rfl
    · rw [revisionsOf_cons_none fun _ => hnone, hsame]
      exact h k row hrow
  · rename_i hk
    rw [revisionsOf_cons_none fun heq => absurd (heq.symm.trans hid) hk]
    exact h k found hfound

theorem updated_revision (row : WorkspaceRow) (values : Dict String Json)
    (context : Option (Option Json)) (readRevision : ℤ) :
    (context.map fun _ => readRevision + 1) =
        some (row.updated values context readRevision).contextRevision ∨
      (context.map fun _ => readRevision + 1) = none ∧
        (row.updated values context readRevision).contextRevision = row.contextRevision := by
  cases context with
  | none => exact Or.inr ⟨rfl, rfl⟩
  | some context => exact Or.inl rfl

theorem commit_recorded (hrecorded : store.Recorded) (h : workspaceCommit w store = .ok store') :
    store'.Recorded ∧ store.Later store' := by
  obtain ⟨id, values, context, r, expected, row, -, hrow, -, rfl⟩ |
    ⟨id, context, revision, row, -, hrow, rfl⟩ | ⟨id, expected, -, hget, hcommits⟩ :=
    workspaceCommit_cases h
  · exact ⟨hrecorded.put hrow rfl (updated_revision row values context r), List.suffix_cons _ _⟩
  · exact ⟨hrecorded.put hrow rfl (Or.inl rfl), List.suffix_cons _ _⟩
  · have hlater : store.Later store' ∧ ∀ k, revisionsOf k store'.commits = revisionsOf k store.commits := by
      obtain ⟨-, hsame⟩ | ⟨row, -, hcons⟩ := hcommits
      · exact ⟨by rw [WorkspaceStore.Later, hsame], fun k => by rw [hsame]⟩
      · refine ⟨by rw [WorkspaceStore.Later, hcons]; exact List.suffix_cons _ _, fun k => ?_⟩
        rw [hcons, revisionsOf_cons_none fun _ => rfl]
    refine ⟨fun k row hrow => ?_, hlater.1⟩
    rw [hget] at hrow
    split at hrow
    · cases hrow
    · rw [hlater.2 k]
      exact hrecorded k row hrow

theorem commit_serial (hrecorded : store.Recorded) (hserial : Serial store.commits)
    (hcurrent : FindsCurrent store w) (h : workspaceCommit w store = .ok store') :
    Serial store'.commits := by
  obtain ⟨id, values, context, r, expected, row, rfl, hrow, hguard, rfl⟩ |
    ⟨id, context, revision, row, rfl, hrow, rfl⟩ | ⟨id, expected, rfl, -, hcommits⟩ :=
    workspaceCommit_cases h
  · have hnewest : (revisionsOf id store.commits).head? = some row.contextRevision := hrecorded id row hrow
    have hincreasing : ∀ new, (context.map fun _ => r + 1) = some new →
        ∀ x ∈ revisionsOf id store.commits, x < new := fun new hnew x hx => by
      obtain ⟨given, hgiven, rfl⟩ := Option.map_eq_some_iff.mp hnew
      have hread : row.contextRevision = r := hcurrent row hrow (by rw [hgiven]; rfl) hguard
      have hle := le_newest (hserial.increasing id) hnewest hx
      omega
    cases hexpected : expected with
    | none => exact hserial.cons_free rfl hincreasing
    | some e =>
      have he : row.contextRevision = e := hguard e hexpected
      exact hserial.cons_expected rfl (he ▸ hnewest) hincreasing
  · have hnewest : (revisionsOf id store.commits).head? = some row.contextRevision := hrecorded id row hrow
    refine hserial.cons_free rfl fun new hnew x hx => ?_
    obtain rfl : max revision 1 = new := Option.some.inj hnew
    have hlt : row.contextRevision < max revision 1 := hcurrent row hrow
    have hle := le_newest (hserial.increasing id) hnewest hx
    omega
  · obtain ⟨-, hsame⟩ | ⟨row, hrow, hcons⟩ := hcommits
    · rw [hsame]
      exact hserial
    · rw [hcons]
      have hnewest : (revisionsOf id store.commits).head? = some row.contextRevision :=
        hrecorded id row hrow
      cases hexpected : expected with
      | none => exact hserial.cons_free rfl fun _ hr => by cases hr
      | some e =>
        have he : row.contextRevision = e := hcurrent row e hrow hexpected
        exact hserial.cons_expected rfl (he ▸ hnewest) fun _ hr => by cases hr

theorem findsCurrent_of_serial (hrecorded : store.Recorded) (hread : WasRead store w)
    (hserial : Serial store.commits) (h : workspaceCommit w store = .ok store')
    (hserial' : Serial store'.commits) : FindsCurrent store w := by
  obtain ⟨id, values, context, r, expected, row, rfl, hrow, -, rfl⟩ |
    ⟨id, context, revision, row, rfl, hrow, rfl⟩ | ⟨id, expected, rfl, -, hcommits⟩ :=
    workspaceCommit_cases h
  · intro found hfound hcontext _
    obtain rfl : row = found := Option.some.inj (hrow.symm.trans hfound)
    obtain ⟨given, hgiven⟩ := Option.isSome_iff_exists.mp hcontext
    have hnewest := hrecorded id row hrow
    have hle : r ≤ row.contextRevision := le_newest (hserial.increasing id) hnewest hread
    have hlt : row.contextRevision < r + 1 :=
      hserial'.front_lt (by rw [hgiven]; rfl) (hrecorded.mem hrow)
    omega
  · intro found hfound
    obtain rfl : row = found := Option.some.inj (hrow.symm.trans hfound)
    exact hserial'.front_lt rfl (hrecorded.mem hrow)
  · intro row e hrow hexpected
    obtain ⟨hnone, -⟩ | ⟨_, _, hcons⟩ := hcommits
    · rw [hrow] at hnone
      cases hnone
    · rw [hcons] at hserial'
      have hnewest := hserial'.expected_newest hexpected (hread e hexpected)
      exact Option.some.inj ((hrecorded id row hrow).symm.trans hnewest)

end Store

theorem revisionsOf_seed (id : String) (entries : List (String × WorkspaceRow))
    (hnodup : (entries.map Prod.fst).Nodup) :
    revisionsOf id (entries.map fun e => ⟨e.1, some e.2.contextRevision, none⟩) =
      ((Dict.find id entries).map WorkspaceRow.contextRevision).toList := by
  induction entries with
  | nil => rfl
  | cons e rest ih =>
    obtain ⟨hnew, hrest⟩ := List.nodup_cons.mp hnodup
    rw [List.map_cons, Dict.find]
    by_cases he : e.1 = id
    · rw [if_pos he, revisionsOf_cons_some he rfl, ih hrest]
      have hnone : Dict.find id rest = none := by
        cases hfind : Dict.find id rest with
        | none => rfl
        | some row => exact absurd (List.mem_map_of_mem (Dict.find_mem hfind)) (he ▸ hnew)
      rw [hnone]
      rfl
    · rw [if_neg he, revisionsOf_cons_none fun heq => absurd heq he, ih hrest]

theorem seed_recorded (tables : Tables) : (WorkspaceStore.seed tables).Recorded := by
  intro id row hrow
  show (revisionsOf id (tables.workspaces.entries.map _)).head? = _
  have hfind : Dict.find id tables.workspaces.entries = some row := hrow
  rw [revisionsOf_seed id _ tables.workspaces.nodup, hfind]
  rfl

theorem seed_serial (tables : Tables) : Serial (WorkspaceStore.seed tables).commits where
  increasing id := by
    show (revisionsOf id (tables.workspaces.entries.map _)).Pairwise _
    rw [revisionsOf_seed id _ tables.workspaces.nodup]
    cases Dict.find id tables.workspaces.entries with
    | none => exact List.Pairwise.nil
    | some row => exact List.pairwise_singleton _ _
  current newer c mid d older r hsplit hexpected := by
    have hmem : c ∈ (WorkspaceStore.seed tables).commits := by
      rw [hsplit]
      exact List.mem_append_right _ List.mem_cons_self
    obtain ⟨e, -, rfl⟩ := List.mem_map.mp hmem
    cases hexpected

/-! ## Compare and set -/

/-- From any tables, and however calls interleave: all along a run the context writes of every
workspace have increasing revisions, and every expectation that is met names the newest of
them, exactly where every write finds the row as its call has read it. -/
theorem compare_and_set (tools : WorkspaceTools) (tables : Tables) (hist : List (Turn WorkspaceOp)) :
    Run.Always (Clients.Step (workspaceBody tools) workspaceCommit)
        (Clients.start (WorkspaceStore.seed tables)) (fun s => Serial s.store.commits) hist ↔
      Run.Meets (Clients.Step (workspaceBody tools) workspaceCommit)
        (Clients.start (WorkspaceStore.seed tables)) (Clients.Admits FindsCurrent) hist := by
  have hbody : ∀ op store, WorkspaceStore.Recorded store →
      (workspaceBody tools op).Honest WorkspaceStore.Recorded WorkspaceStore.Later WasRead store :=
    fun op _ _ => workspaceBody_honest op
  have hcommit : ∀ store w store', WorkspaceStore.Recorded store → WasRead store w →
      workspaceCommit w store = .ok store' → store'.Recorded ∧ store.Later store' :=
    fun _ _ _ hrecorded _ hok => commit_recorded hrecorded hok
  have hread : ∀ a b w, WasRead a w → WorkspaceStore.Later a b → WasRead b w :=
    fun _ _ _ h hlater => wasRead_later h hlater
  have htrans : ∀ a b c, WorkspaceStore.Later a b → b.Later c → a.Later c :=
    fun _ _ _ h h' => h.trans h'
  refine always_iff_meets (P := fun store : WorkspaceStore => Serial store.commits)
    (fun _ => List.suffix_rfl) htrans hread
    hbody hcommit (seed_recorded tables) (seed_serial tables) ?_ ?_ fun _ _ _ h => findsCurrent_of_error h
  · intro store w store' hrecorded _ hserial hcurrent hok
    exact commit_serial hrecorded hserial hcurrent hok
  · intro store w store' hrecorded hread hserial hok hserial'
    exact findsCurrent_of_serial hrecorded hread hserial hok hserial'

/-- Two clients: one without an expectation reads revision 1, the other writes the context at
that revision, and the first writes the same revision again. -/
def blindRun : List (Turn WorkspaceOp) :=
  [.call 0 (.update "w" Dict.empty (some (some (.str "a"))) none),
    .call 1 (.update "w" Dict.empty (some (some (.str "b"))) (some 1)),
    .go 0, .go 1, .go 1, .go 0]

/-- A workspace whose context has revision 1. -/
def blindTables : Tables where
  workspaces := Dict.empty.set "w" ⟨Dict.empty, some (.str "old"), 1⟩
  companions := []
  sessions := Dict.empty
  messages := []

/-- `str` of a string, and no JSON. -/
def plainTools : WorkspaceTools where
  str
    | .str s => s
    | _ => ""
  loads _ := .error "Expecting value"

theorem blind_update_repeats : ¬ ∀ (tools : WorkspaceTools) (tables : Tables)
    (hist : List (Turn WorkspaceOp)) (s : Clients WorkspaceStore WorkspaceWrite WorkspaceAnswer),
    Run (Clients.Step (workspaceBody tools) workspaceCommit)
      (Clients.start (WorkspaceStore.seed tables)) hist s → Serial s.store.commits := by
  intro hall
  have hrun : (Run.exec (Clients.next (workspaceBody plainTools) workspaceCommit)
      (Clients.start (WorkspaceStore.seed blindTables)) blindRun).map
      (fun s => revisionsOf "w" s.store.commits) = some [2, 2, 1] := by
    decide +kernel
  obtain ⟨s, hs, hrevisions⟩ := Option.map_eq_some_iff.mp hrun
  have hincreasing := (hall plainTools blindTables _ s (Run.of_exec hs)).increasing "w"
  rw [hrevisions] at hincreasing
  exact absurd hincreasing (by decide)

end Database
