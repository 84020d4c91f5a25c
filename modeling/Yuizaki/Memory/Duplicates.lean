import Yuizaki.Lib.Sorting
import Yuizaki.Memory.Filters
import Yuizaki.Memory.Recall
import Yuizaki.Memory.Review
import Mathlib.Data.Prod.Lex

/- The maintenance of memories (`_build_maintenance_plan` and `apply_memory_maintenance` in
   `modules/memory/routes.py`).

   A plan names the documents of a scope that expired, the working memories that went stale, the
   memories of a low quality and, of the documents of one layer with one normalized text, all but
   the best. The best is found by quality, importance and time; nothing looks at whether it can
   be recalled. So a text stays recallable where, in some layer, the copy that comes first can
   be (`duplicates_keep_text`). -/
namespace Memory

open Fallible Sorting

/-! ## The plan -/

/-- `MemoryMaintenancePayload`, with the scope and the workspace resolved. -/
structure MaintenancePayload where
  scope : MemoryScope := .workspace
  workspaceId : Option String := none
  sessionId : Option String := none
  workingRetentionDays : ℕ := 14
  lowQualityThreshold : ℚ := 55 / 100
  includeStaleWorking : Bool := true
  includeLowQuality : Bool := true
  includeExactDuplicates : Bool := true

structure MaintenanceApplyPayload extends MaintenancePayload where
  confirmation : Option String
  previewToken : Option String

/-- The policy that is planned for: the session without blanks around it. -/
def MaintenanceApplyPayload.policy (payload : MaintenanceApplyPayload) : MaintenancePayload :=
  { payload.toMaintenancePayload with
    sessionId := requestedId payload.sessionId }

/-- What a plan needs besides the environment of a request: the instant some days ago, the
timestamp of an instant, and the digest of a plan. -/
structure Planning (τ : Type) where
  ago : ℕ → τ
  timestamp : τ → ℚ
  digest : MaintenancePayload → List (String × Content) → Dict String (List String) → String

section Plan

variable {τ : Type} [LinearOrder τ] (env : Router τ) (host : Planning τ) (p : MaintenancePayload)

def Router.normalizedMemoryText (text : String) : String :=
  let words := (PyStr.lower env.tools.wide text).toList.splitOnP PyStr.isSpace
  " ".intercalate ((words.filter (· ≠ [])).map String.ofList)

def Router.timestampValue (m : Metadata) : Except PyError (Option τ) :=
  parseInstant env.tools ((m.value "updated_at").or (m.value "timestamp"))

def Router.scopedDocs (documents : Dict String Content) : List (String × Content) :=
  documents.entries.filter fun doc =>
    docMatchesScope env.tools p.scope p.workspaceId p.sessionId none doc.2.metadata

/-- The layer of a document, as the plan reads it. -/
def Router.planLayer (m : Metadata) : String := env.tools.textOf m "layer" "semantic"

def Router.qualityOf (m : Metadata) : ℚ := env.coerceUnit (m.value "quality_score") (72 / 100)

def Router.importanceOf (m : Metadata) : ℚ := env.coerceUnit (m.value "importance") (1 / 2)

/-- The reason `expired`. -/
def Router.expiredReasons (doc : String × Content) : Except PyError (List (String × String)) := do
  let expired ← isMemoryExpired env.tools env.now doc.2.metadata
  return if expired then [(doc.1, "expired")] else []

/-- `protected` -/
def Router.isProtected (m : Metadata) : Bool :=
  m.value "protected" = .bool true ∨ env.planLayer m ∈ ["profile", "relationship"] ∨ 8 / 10 ≤ env.importanceOf m

/-- A working memory that was not touched for the days that it is kept. -/
def Router.staleWorking (m : Metadata) (timestamp : Option τ) : Bool :=
  p.includeStaleWorking ∧ env.planLayer m ∈ ["working", "session"] ∧
    timestamp.any (· ≤ host.ago p.workingRetentionDays)

/-- A memory of a low quality that is a day old. -/
def Router.lowQuality (m : Metadata) (timestamp : Option τ) : Bool :=
  p.includeLowQuality ∧ env.isProtected m = false ∧ env.qualityOf m ≤ p.lowQualityThreshold ∧
    timestamp.any (· ≤ host.ago 1)

/-- The reasons `stale_working` and `low_quality`. -/
def Router.ageReasons (doc : String × Content) : Except PyError (List (String × String)) := do
  let timestamp ← env.timestampValue doc.2.metadata
  return (if env.staleWorking host p doc.2.metadata timestamp then [(doc.1, "stale_working")] else []) ++
    if env.lowQuality host p doc.2.metadata timestamp then [(doc.1, "low_quality")] else []

def Router.groupKey (content : Content) : String × String :=
  (env.planLayer content.metadata, env.normalizedMemoryText content.text)

/-- `duplicate_groups.setdefault(key, []).append(doc)`, unless the text is empty. -/
def Router.addToGroup (groups : Dict (String × String) (List (String × Content))) (doc : String × Content) :
    Dict (String × String) (List (String × Content)) :=
  if (env.groupKey doc.2).2 = "" then groups
  else groups.set (env.groupKey doc.2) ((groups.get (env.groupKey doc.2)).getD [] ++ [doc])

def Router.duplicateGroups (docs : List (String × Content)) : Dict (String × String) (List (String × Content)) :=
  docs.foldl env.addToGroup Dict.empty

/-- The key that duplicates are ranked by, given their timestamp. -/
def Router.rankAt (m : Metadata) (timestamp : Option τ) : ℚ ×ₗ ℚ ×ₗ ℚ :=
  toLex (env.qualityOf m, toLex (env.importanceOf m, (timestamp.map host.timestamp).getD 0))

/-- The key that duplicates are ranked by. -/
def Router.rank (m : Metadata) : Except PyError (ℚ ×ₗ ℚ ×ₗ ℚ) := (env.timestampValue m).map (env.rankAt host m)

/-- The reason `exact_duplicate`, in a group: all but the first of `ranked` have it. -/
def Router.duplicateReasons (group : List (String × Content)) : Except PyError (List (String × String)) := do
  if group.length < 2 then return []
  let keyed ← group.mapM fun doc => (env.rank host doc.2.metadata).map fun key => (key, doc)
  return (ranked Prod.fst keyed).tail.map fun duplicate => (duplicate.2.1, "exact_duplicate")

/-- The reasons of `include_stale_working` and `include_low_quality`. -/
def Router.agedReasons (docs : List (String × Content)) : Except PyError (List (List (String × String))) :=
  if p.includeStaleWorking ∨ p.includeLowQuality then docs.mapM (env.ageReasons host p) else .ok []

/-- The reasons of `include_exact_duplicates`. -/
def Router.groupReasons (docs : List (String × Content)) : Except PyError (List (List (String × String))) :=
  if p.includeExactDuplicates then
    ((env.duplicateGroups docs).entries.map Prod.snd).mapM (env.duplicateReasons host)
  else .ok []

/-- The documents that a plan names, each with its reasons one by one. -/
def Router.planReasons (docs : List (String × Content)) : Except PyError (List (String × String)) := do
  let expired ← docs.mapM env.expiredReasons
  let aged ← env.agedReasons host p docs
  let duplicates ← env.groupReasons host p docs
  return expired.flatten ++ aged.flatten ++ duplicates.flatten

def addCandidate (candidates : Dict String (List String)) (e : String × String) : Dict String (List String) :=
  let reasons := (candidates.get e.1).getD []
  if e.2 ∈ reasons then candidates else candidates.set e.1 (reasons ++ [e.2])

/-- `_build_maintenance_plan`: the candidates. -/
def Router.buildMaintenancePlan (documents : Dict String Content) : Except PyError (Dict String (List String)) := do
  let reasons ← env.planReasons host p (env.scopedDocs p documents)
  return reasons.foldl addCandidate Dict.empty

def purgeIds (candidates : Dict String (List String)) : List String :=
  candidates.keys.insertionSort (fun a b => a ≤ b)

/-- The checks of `apply_memory_maintenance` on the request and on the plan it previewed. -/
def Router.checkedPlan (payload : MaintenanceApplyPayload) (documents : Dict String Content) :
    Except RouteError (List String) := do
  require (.http 400 (.obj [("error", .str "memory_purge_confirmation_required"),
    ("message", .str "confirmation must be PERMANENT_DELETE")])) (payload.confirmation = some "PERMANENT_DELETE")
  let p := payload.policy
  require (.http 400 (.str "session_id is required for session scope")) (¬ (p.scope = .session ∧ p.sessionId = none))
  let candidates ← escaped (env.buildMaintenancePlan host p documents)
  let token := host.digest p (env.scopedDocs p documents) candidates
  require (.http 409 (.obj [("error", .str "memory_maintenance_preview_stale"),
    ("message", .str "Memory changed after preview; preview again before applying maintenance")]))
    (payload.previewToken = some token)
  return purgeIds candidates

/-- `apply_memory_maintenance`: the documents that were purged. -/
def Router.applyMemoryMaintenance (s : SqliteStore) (payload : MaintenanceApplyPayload) : Handled (List String) :=
  match env.checkedPlan host payload s.docs with
  | .error e => (s, .error e)
  | .ok ids => (env.deleteMemoryDocuments s ids).andThen fun s _ => (s, .ok ids)

end Plan

/-! ## What a plan names -/

section Named

variable {τ : Type} [LinearOrder τ] {env : Router τ} {host : Planning τ} {p : MaintenancePayload}
  {docs : List (String × Content)} {docId : String}

/-- The timestamp of a document, where it can be read. -/
def Router.timestampOf (env : Router τ) (m : Metadata) : Option τ := ((env.timestampValue m).toOption).getD none

/-- The key that a document is ranked by. -/
def Router.rankOf (env : Router τ) (host : Planning τ) (doc : String × Content) : ℚ ×ₗ ℚ ×ₗ ℚ :=
  env.rankAt host doc.2.metadata (env.timestampOf doc.2.metadata)

/-- A document that is marked for its age: stale, or of a low quality. -/
def Router.marked (env : Router τ) (host : Planning τ) (p : MaintenancePayload) (m : Metadata) : Bool :=
  env.staleWorking host p m (env.timestampOf m) || env.lowQuality host p m (env.timestampOf m)

def Router.groupOf (env : Router τ) (docs : List (String × Content)) (key : String × String) : List (String × Content) :=
  docs.filter fun doc => env.groupKey doc.2 = key

/-- A document that outranks the other copies of its text in its layer. -/
def FirstCopy (env : Router τ) (host : Planning τ) (docs : List (String × Content)) (doc : String × Content) : Prop :=
  (env.groupKey doc.2).2 = "" ∨ Foremost (env.rankOf host) (env.groupOf docs (env.groupKey doc.2)) doc

theorem timestampOf_ok {m : Metadata} {timestamp : Option τ} (h : env.timestampValue m = .ok timestamp) :
    env.timestampOf m = timestamp := by
  unfold Router.timestampOf
  rw [h]
  rfl

theorem mem_expiredReasons {doc : String × Content} {reasons : List (String × String)}
    (h : env.expiredReasons doc = .ok reasons) :
    (∃ reason, (docId, reason) ∈ reasons) ↔ doc.1 = docId ∧ isMemoryExpired env.tools env.now doc.2.metadata = .ok true := by
  obtain ⟨expired, hexpired, h⟩ := bind_ok.mp h
  rw [← pure_ok.mp h, hexpired]
  cases expired with
  | true =>
    rw [if_pos rfl]
    constructor
    · rintro ⟨reason, hmem⟩
      exact ⟨(Prod.mk.inj (List.mem_singleton.mp hmem)).1.symm, rfl⟩
    · rintro ⟨rfl, -⟩
      exact ⟨"expired", List.mem_singleton_self _⟩
  | false =>
    rw [if_neg Bool.false_ne_true]
    exact ⟨fun ⟨_, hmem⟩ => absurd hmem List.not_mem_nil, fun ⟨_, htrue⟩ => absurd (Except.ok.inj htrue) (by decide)⟩

theorem mem_ageReasons {doc : String × Content} {reasons : List (String × String)}
    (h : env.ageReasons host p doc = .ok reasons) :
    (∃ reason, (docId, reason) ∈ reasons) ↔ doc.1 = docId ∧ env.marked host p doc.2.metadata = true := by
  obtain ⟨timestamp, htimestamp, h⟩ := bind_ok.mp h
  rw [← pure_ok.mp h]
  unfold Router.marked
  rw [timestampOf_ok htimestamp, Bool.or_eq_true]
  have hone (b : Bool) (reason : String) :
      (∃ r, (docId, r) ∈ (if b then [(doc.1, reason)] else [])) ↔ doc.1 = docId ∧ b = true := by
    cases b with
    | true =>
      rw [if_pos rfl]
      constructor
      · rintro ⟨r, hmem⟩
        exact ⟨(Prod.mk.inj (List.mem_singleton.mp hmem)).1.symm, rfl⟩
      · rintro ⟨rfl, -⟩
        exact ⟨reason, List.mem_singleton_self _⟩
    | false =>
      rw [if_neg Bool.false_ne_true]
      exact ⟨fun ⟨_, hmem⟩ => absurd hmem List.not_mem_nil, fun h => absurd h.2 Bool.false_ne_true⟩
  rw [and_or_left, ← hone _ "stale_working", ← hone _ "low_quality", ← exists_or]
  simp only [List.mem_append]

theorem get_duplicateGroups (key : String × String) :
    (env.duplicateGroups docs).get key =
      if key.2 = "" ∨ env.groupOf docs key = [] then none else some (env.groupOf docs key) := by
  have hfold : ∀ (docs : List (String × Content)) (groups : Dict (String × String) (List (String × Content))),
      (docs.foldl env.addToGroup groups).get key =
        if key.2 = "" ∨ env.groupOf docs key = [] then groups.get key
        else some ((groups.get key).getD [] ++ env.groupOf docs key) := by
    intro docs
    induction docs with
    | nil =>
      intro groups
      exact (if_pos (Or.inr rfl)).symm
    | cons doc rest ih =>
      intro groups
      rw [List.foldl_cons, ih]
      have hcons : env.groupOf (doc :: rest) key =
          if env.groupKey doc.2 = key then doc :: env.groupOf rest key else env.groupOf rest key := by
        unfold Router.groupOf
        rw [List.filter_cons]
        simp only [decide_eq_true_eq]
      rw [hcons]
      unfold Router.addToGroup
      by_cases hempty : key.2 = ""
      · rw [if_pos (Or.inl hempty), if_pos (Or.inl hempty)]
        split
        · rfl
        · rename_i hother
          exact Dict.get_set_of_ne fun heq => hother (heq ▸ hempty)
      · by_cases hkey : env.groupKey doc.2 = key
        · have hfirst : (env.groupKey doc.2).2 ≠ "" := hkey ▸ hempty
          rw [if_neg hfirst, hkey, Dict.get_set_self, if_pos rfl]
          have hsome : ¬ (key.2 = "" ∨ doc :: env.groupOf rest key = []) :=
            fun h => h.elim hempty (List.cons_ne_nil _ _)
          rw [if_neg hsome, Option.getD_some, List.append_assoc, List.singleton_append]
          by_cases hrest : env.groupOf rest key = []
          · rw [if_pos (Or.inr hrest), hrest]
          · rw [if_neg (fun h => h.elim hempty hrest)]
        · rw [if_neg hkey]
          have hsame : (if (env.groupKey doc.2).2 = "" then groups
              else groups.set (env.groupKey doc.2) ((groups.get (env.groupKey doc.2)).getD [] ++ [doc])).get key =
              groups.get key := by
            split
            · rfl
            · exact Dict.get_set_of_ne (Ne.symm hkey)
          rw [hsame]
  unfold Router.duplicateGroups
  rw [hfold docs Dict.empty, Dict.get_empty, Option.getD_none, List.nil_append]

theorem mem_duplicateReasons {group : List (String × Content)} {reasons : List (String × String)}
    (hnodup : group.Nodup) (h : env.duplicateReasons host group = .ok reasons) :
    (∃ reason, (docId, reason) ∈ reasons) ↔ ∃ doc ∈ group, doc.1 = docId ∧ ¬ Foremost (env.rankOf host) group doc := by
  unfold Router.duplicateReasons at h
  by_cases hshort : group.length < 2
  · rw [if_pos hshort] at h
    rw [← pure_ok.mp h]
    refine ⟨fun ⟨_, hmem⟩ => absurd hmem List.not_mem_nil, ?_⟩
    rintro ⟨doc, hdoc, -, hnot⟩
    obtain ⟨only, rfl⟩ := List.length_eq_one_iff.mp (by
      have := List.length_pos_of_mem hdoc
      omega : group.length = 1)
    rw [List.mem_singleton.mp hdoc] at hnot
    exact absurd (foremost_singleton only) hnot
  · rw [if_neg hshort] at h
    obtain ⟨keyed, hkeyed, h⟩ := bind_ok.mp h
    have hmap : keyed = group.map fun doc => (env.rankOf host doc, doc) := by
      refine mapM_eq_map (fun doc b hb => ?_) hkeyed
      unfold Router.rank at hb
      cases htimestamp : env.timestampValue doc.2.metadata with
      | error e =>
        rw [htimestamp] at hb
        exact nomatch hb
      | ok timestamp =>
        rw [htimestamp] at hb
        unfold Router.rankOf
        rw [timestampOf_ok htimestamp]
        exact (Except.ok.inj hb).symm
    rw [← pure_ok.mp h, hmap, ranked_map, ← List.map_tail, List.map_map]
    constructor
    · rintro ⟨reason, hmem⟩
      obtain ⟨doc, hdoc, heq⟩ := List.mem_map.mp hmem
      obtain ⟨hin, hnot⟩ := (mem_tail_ranked_iff hnodup).mp hdoc
      exact ⟨doc, hin, (Prod.mk.inj heq).1, hnot⟩
    · rintro ⟨doc, hin, rfl, hnot⟩
      exact ⟨"exact_duplicate", List.mem_map.mpr ⟨doc, (mem_tail_ranked_iff hnodup).mpr ⟨hin, hnot⟩, rfl⟩⟩

theorem marked_off (h : ¬ (p.includeStaleWorking = true ∨ p.includeLowQuality = true)) (m : Metadata) :
    env.marked host p m = false := by
  rw [not_or, Bool.not_eq_true, Bool.not_eq_true] at h
  unfold Router.marked Router.staleWorking Router.lowQuality
  rw [h.1, h.2]
  simp

/-- A document that a plan has a reason to remove. -/
def Named (env : Router τ) (host : Planning τ) (p : MaintenancePayload) (docs : List (String × Content))
    (doc : String × Content) : Prop :=
  isMemoryExpired env.tools env.now doc.2.metadata = .ok true ∨ env.marked host p doc.2.metadata = true ∨
    ¬ (p.includeExactDuplicates = true → FirstCopy env host docs doc)

theorem mem_expired {expired : List (List (String × String))} (h : docs.mapM env.expiredReasons = .ok expired) :
    (∃ reason, (docId, reason) ∈ expired.flatten) ↔
      ∃ doc ∈ docs, doc.1 = docId ∧ isMemoryExpired env.tools env.now doc.2.metadata = .ok true := by
  simp only [mem_flatten_mapM h]
  constructor
  · rintro ⟨reason, doc, hdoc, y, hy, hmem⟩
    exact ⟨doc, hdoc, (mem_expiredReasons hy).mp ⟨reason, hmem⟩⟩
  · rintro ⟨doc, hdoc, hid, hexpired⟩
    obtain ⟨y, hy⟩ := mapM_gives h doc hdoc
    obtain ⟨reason, hmem⟩ := (mem_expiredReasons hy).mpr ⟨hid, hexpired⟩
    exact ⟨reason, doc, hdoc, y, hy, hmem⟩

theorem mem_aged {aged : List (List (String × String))} (h : env.agedReasons host p docs = .ok aged) :
    (∃ reason, (docId, reason) ∈ aged.flatten) ↔
      ∃ doc ∈ docs, doc.1 = docId ∧ env.marked host p doc.2.metadata = true := by
  unfold Router.agedReasons at h
  by_cases hon : p.includeStaleWorking = true ∨ p.includeLowQuality = true
  · rw [if_pos hon] at h
    simp only [mem_flatten_mapM h]
    constructor
    · rintro ⟨reason, doc, hdoc, y, hy, hmem⟩
      exact ⟨doc, hdoc, (mem_ageReasons hy).mp ⟨reason, hmem⟩⟩
    · rintro ⟨doc, hdoc, hid, hmarked⟩
      obtain ⟨y, hy⟩ := mapM_gives h doc hdoc
      obtain ⟨reason, hmem⟩ := (mem_ageReasons hy).mpr ⟨hid, hmarked⟩
      exact ⟨reason, doc, hdoc, y, hy, hmem⟩
  · rw [if_neg hon] at h
    rw [← Except.ok.inj h]
    refine ⟨fun ⟨_, hmem⟩ => absurd hmem List.not_mem_nil, fun ⟨doc, _, _, hmarked⟩ => ?_⟩
    rw [marked_off hon] at hmarked
    exact absurd hmarked Bool.false_ne_true

theorem group_eq {key : String × String} {group : List (String × Content)}
    (h : (env.duplicateGroups docs).get key = some group) : key.2 ≠ "" ∧ group = env.groupOf docs key := by
  rw [get_duplicateGroups] at h
  split at h
  · exact nomatch h
  · rename_i hkey
    exact ⟨fun hempty => hkey (Or.inl hempty), (Option.some.inj h).symm⟩

theorem mem_grouped {duplicates : List (List (String × String))} (hnodup : docs.Nodup)
    (h : env.groupReasons host p docs = .ok duplicates) :
    (∃ reason, (docId, reason) ∈ duplicates.flatten) ↔
      ∃ doc ∈ docs, doc.1 = docId ∧ ¬ (p.includeExactDuplicates = true → FirstCopy env host docs doc) := by
  unfold Router.groupReasons at h
  by_cases hon : p.includeExactDuplicates = true
  · rw [if_pos hon] at h
    simp only [mem_flatten_mapM h]
    constructor
    · rintro ⟨reason, group, hmem, y, hy, hin⟩
      obtain ⟨⟨key, _⟩, hentry, rfl⟩ := List.mem_map.mp hmem
      obtain ⟨hkey, rfl⟩ := group_eq (Dict.get_eq_some.mpr hentry)
      obtain ⟨doc, hdoc, hid, hnot⟩ := (mem_duplicateReasons (hnodup.filter _) hy).mp ⟨reason, hin⟩
      obtain ⟨hdocs, hdocKey⟩ := List.mem_filter.mp hdoc
      have hdocKey : env.groupKey doc.2 = key := of_decide_eq_true hdocKey
      refine ⟨doc, hdocs, hid, fun hfirst => ?_⟩
      obtain hempty | hforemost := hfirst hon
      · exact hkey (hdocKey ▸ hempty)
      · exact hnot (hdocKey ▸ hforemost)
    · rintro ⟨doc, hdoc, hid, hnot⟩
      have hkey : (env.groupKey doc.2).2 ≠ "" := fun hempty => hnot fun _ => Or.inl hempty
      have hforemost : ¬ Foremost (env.rankOf host) (env.groupOf docs (env.groupKey doc.2)) doc :=
        fun h => hnot fun _ => Or.inr h
      have hin : doc ∈ env.groupOf docs (env.groupKey doc.2) := List.mem_filter.mpr ⟨hdoc, decide_eq_true rfl⟩
      have hget : (env.duplicateGroups docs).get (env.groupKey doc.2) =
          some (env.groupOf docs (env.groupKey doc.2)) := by
        rw [get_duplicateGroups, if_neg]
        exact fun h => h.elim hkey (List.ne_nil_of_mem hin)
      have hmem : env.groupOf docs (env.groupKey doc.2) ∈ (env.duplicateGroups docs).entries.map Prod.snd :=
        List.mem_map.mpr ⟨_, Dict.get_eq_some.mp hget, rfl⟩
      obtain ⟨y, hy⟩ := mapM_gives h _ hmem
      obtain ⟨reason, hreason⟩ := (mem_duplicateReasons (hnodup.filter _) hy).mpr ⟨doc, hin, hid, hforemost⟩
      exact ⟨reason, _, hmem, y, hy, hreason⟩
  · rw [if_neg hon] at h
    rw [← Except.ok.inj h]
    exact ⟨fun ⟨_, hmem⟩ => absurd hmem List.not_mem_nil, fun ⟨_, _, _, hnot⟩ => absurd (fun h => absurd h hon) hnot⟩

theorem mem_planReasons {reasons : List (String × String)} (hnodup : docs.Nodup)
    (h : env.planReasons host p docs = .ok reasons) :
    (∃ reason, (docId, reason) ∈ reasons) ↔ ∃ doc ∈ docs, doc.1 = docId ∧ Named env host p docs doc := by
  obtain ⟨expired, hexpired, h⟩ := bind_ok.mp h
  obtain ⟨aged, haged, h⟩ := bind_ok.mp h
  obtain ⟨duplicates, hduplicates, h⟩ := bind_ok.mp h
  rw [← pure_ok.mp h]
  simp only [List.mem_append, exists_or, mem_expired hexpired, mem_aged haged, mem_grouped hnodup hduplicates, Named,
    and_or_left, or_assoc]

theorem mem_candidates {reasons : List (String × String)} :
    docId ∈ (reasons.foldl addCandidate Dict.empty).keys ↔ ∃ reason, (docId, reason) ∈ reasons := by
  have hfold : ∀ (reasons : List (String × String)) (candidates : Dict String (List String)),
      docId ∈ (reasons.foldl addCandidate candidates).keys ↔
        docId ∈ candidates.keys ∨ ∃ reason, (docId, reason) ∈ reasons := by
    intro reasons
    induction reasons with
    | nil => exact fun candidates => ⟨Or.inl, fun h => h.elim id fun ⟨_, hmem⟩ => absurd hmem List.not_mem_nil⟩
    | cons e rest ih =>
      intro candidates
      have hadd : docId ∈ (addCandidate candidates e).keys ↔ docId ∈ candidates.keys ∨ docId = e.1 := by
        unfold addCandidate
        dsimp only
        split
        · rename_i hthere
          refine ⟨Or.inl, fun h => h.elim id ?_⟩
          rintro rfl
          cases hget : candidates.get e.1 with
          | none =>
            rw [hget] at hthere
            exact absurd hthere List.not_mem_nil
          | some reasons => exact Dict.mem_keys.mpr ⟨reasons, hget⟩
        · rw [Dict.mem_keys, Dict.mem_keys]
          simp only [Dict.get_set]
          by_cases hid : docId = e.1
          · rw [if_pos hid]
            exact ⟨fun _ => Or.inr hid, fun _ => ⟨_, rfl⟩⟩
          · rw [if_neg hid]
            exact ⟨Or.inl, fun h => h.resolve_right hid⟩
      rw [List.foldl_cons, ih, hadd, or_assoc]
      refine or_congr_right ⟨?_, ?_⟩
      · rintro (rfl | ⟨reason, hmem⟩)
        · exact ⟨e.2, List.mem_cons_self⟩
        · exact ⟨reason, List.mem_cons_of_mem _ hmem⟩
      · rintro ⟨reason, hmem⟩
        obtain heq | hmem := List.mem_cons.mp hmem
        · exact Or.inl (congrArg Prod.fst heq)
        · exact Or.inr ⟨reason, hmem⟩
  rw [hfold reasons Dict.empty]
  exact ⟨fun h => h.resolve_left fun hempty => absurd hempty List.not_mem_nil, Or.inr⟩

omit [LinearOrder τ] in
theorem scopedDocs_nodup (documents : Dict String Content) : (env.scopedDocs p documents).Nodup :=
  (List.Nodup.of_map _ documents.nodup).filter _

theorem mem_purged {payload : MaintenanceApplyPayload} {documents : Dict String Content} {ids : List String}
    (h : env.checkedPlan host payload documents = .ok ids) :
    docId ∈ ids ↔ ∃ doc ∈ env.scopedDocs payload.policy documents, doc.1 = docId ∧
      Named env host payload.policy (env.scopedDocs payload.policy documents) doc := by
  obtain ⟨-, -, h⟩ := bind_ok.mp h
  obtain ⟨-, -, h⟩ := bind_ok.mp h
  obtain ⟨candidates, hplan, h⟩ := bind_ok.mp h
  obtain ⟨-, -, h⟩ := bind_ok.mp h
  obtain ⟨reasons, hreasons, hcandidates⟩ := bind_ok.mp (escaped_ok.mp hplan)
  rw [← pure_ok.mp h, ← mem_planReasons (scopedDocs_nodup documents) hreasons, ← mem_candidates, pure_ok.mp hcandidates]
  exact (List.perm_insertionSort _ _).mem_iff

end Named

/-! ## What a purge leaves -/

section Purge

variable {τ : Type} [LinearOrder τ] {env : Router τ} {host : Planning τ} {s s' : SqliteStore} {docId : String}

omit [LinearOrder τ] in
theorem deleteMemoryDocuments_others {docIds : List String} (h : docId ∉ docIds) :
    (env.deleteMemoryDocuments s docIds).1.docs.get docId = s.docs.get docId := by
  have hdeleted : (eachOf (env.deleteOne s.docs) docIds s).1.docs.get docId = s.docs.get docId := by
    refine @eachOf_keeps _ _ (fun t => t.docs.get docId = s.docs.get docId) _ _ (fun t id hid ht => ?_) rfl
    have hne : docId ≠ id := fun heq => h (heq ▸ hid)
    have hone : (stored (t.deleteDocument (env.faults id) id)).1.docs.get docId = s.docs.get docId := by
      unfold stored SqliteStore.deleteDocument
      split
      · exact ht
      · show (t.docs.erase id).get docId = _
        rw [Dict.get_erase, if_neg hne]
        exact ht
    exact @andThen_keeps _ _ (fun t => t.docs.get docId = s.docs.get docId) _ _ hone fun _ _ => hone
  refine @andThen_keeps _ _ (fun t => t.docs.get docId = s.docs.get docId) _ _ hdeleted fun _ _ => ?_
  refine @eachOf_keeps _ _ (fun t => t.docs.get docId = s.docs.get docId) _ _ (fun t e he ht => ?_) hdeleted
  have hmem : e.1 ∈ docIds := (of_decide_eq_true (List.mem_filter.mp he).2).1
  have hne : docId ≠ e.1 := fun heq => h (heq ▸ hmem)
  unfold Router.buryOne
  cases env.tombstone e.2.metadata with
  | error error => exact ht
  | ok metadata =>
    show (stored (t.addMetadataDocument env.tools env.now (env.faults e.1) _)).1.docs.get docId = _
    unfold stored SqliteStore.addMetadataDocument
    cases hpersist : t.persist env.tools env.now (env.faults e.1) { id := e.1, text := e.2.text, metadata } with
    | error error => exact ht
    | ok result =>
      show (t.docs.set e.1 _).get docId = _
      rw [Dict.get_set_of_ne hne]
      exact ht

theorem recalled_unexpired {tools : MetadataTools τ} {now : τ} {filters : Option MemorySearchFilters}
    {types : Option (List String)} {m : Metadata} (h : isMemoryRecallable tools now filters types m = .ok true) :
    Recallable tools now m ∧ isMemoryExpired tools now m = .ok false := by
  have hrecallable : Recallable tools now m := by
    unfold isMemoryRecallable at h
    obtain ⟨recallable, hmetadata, hall⟩ := map_ok.mp h
    simp only [Bool.and_eq_true] at hall
    rw [hall.1.1.1] at hmetadata
    exact recallable_iff.mp hmetadata
  refine ⟨hrecallable, ?_⟩
  obtain ⟨-, -, hdated⟩ := recallable_split.mp hrecallable
  obtain ⟨invalid, -, hdated⟩ := bind_ok.mp hdated
  cases invalid with
  | true => exact absurd (pure_ok.mp hdated) (by decide)
  | false =>
    rw [if_neg Bool.false_ne_true] at hdated
    obtain ⟨expired, hexpired, hdated⟩ := bind_ok.mp hdated
    cases expired with
    | true => exact absurd (pure_ok.mp hdated) (by decide)
    | false => exact hexpired

variable (env) (host)

/-- A text that some document of the scope has that a search recalls. -/
def Carried (p : MaintenancePayload) (filters : Option MemorySearchFilters) (types : Option (List String))
    (text : String) (documents : Dict String Content) : Prop :=
  ∃ doc ∈ env.scopedDocs p documents, env.normalizedMemoryText doc.2.text = text ∧
    isMemoryRecallable env.tools env.now filters types doc.2.metadata = .ok true

/-- Every text of the scope that a search recalls before, it recalls after. -/
def KeepsTexts (p : MaintenancePayload) (filters : Option MemorySearchFilters) (types : Option (List String))
    (before after : Dict String Content) : Prop :=
  ∀ text, Carried env p filters types text before → Carried env p filters types text after

/-- Every text of the scope that a search recalls has a copy that it recalls, that is not marked for its age and
    that comes first in its layer. -/
def FirstCopyLive (p : MaintenancePayload) (filters : Option MemorySearchFilters) (types : Option (List String))
    (documents : Dict String Content) : Prop :=
  ∀ text, Carried env p filters types text documents →
    ∃ doc ∈ env.scopedDocs p documents, env.normalizedMemoryText doc.2.text = text ∧
      isMemoryRecallable env.tools env.now filters types doc.2.metadata = .ok true ∧
      env.marked host p doc.2.metadata = false ∧
      (p.includeExactDuplicates = true → FirstCopy env host (env.scopedDocs p documents) doc)

/-- **Maintenance keeps a live copy of every text** where the copy that comes first in some layer is live, and
    loses a text otherwise. -/
theorem duplicates_keep_text (payload : MaintenanceApplyPayload) (s : SqliteStore)
    (filters : Option MemorySearchFilters) (types : Option (List String)) :
    let after := env.applyMemoryMaintenance host s payload
    (FirstCopyLive env host payload.policy filters types s.docs →
      KeepsTexts env payload.policy filters types s.docs after.1.docs) ∧
    (Gives after.2 → KeepsTexts env payload.policy filters types s.docs after.1.docs →
      FirstCopyLive env host payload.policy filters types s.docs) := by
  intro after
  have hafter : after = env.applyMemoryMaintenance host s payload := rfl
  unfold Router.applyMemoryMaintenance at hafter
  cases hplan : env.checkedPlan host payload s.docs with
  | error e =>
    rw [hplan] at hafter
    rw [hafter]
    exact ⟨fun _ _ h => h, fun hgives => absurd hgives (not_gives_error e)⟩
  | ok ids =>
    rw [hplan] at hafter
    dsimp only at hafter
    have hdocs : after.1 = (env.deleteMemoryDocuments s ids).1 := by
      rw [hafter]
      cases hdeleted : env.deleteMemoryDocuments s ids with
      | mk t result => cases result <;> rfl
    rw [hdocs]
    constructor
    · intro hlive text htext
      obtain ⟨doc, hdoc, hsame, hrecalled, hunmarked, hfirst⟩ := hlive text htext
      obtain ⟨hentry, hscope⟩ := List.mem_filter.mp hdoc
      -- the copy is not named: no other document has its id
      have hkept : doc.1 ∉ ids := by
        rw [mem_purged hplan]
        rintro ⟨other, hother, hid, hnamed⟩
        have heq : other = doc := by
          have hget := Dict.get_eq_some.mpr (List.mem_filter.mp hother).1
          rw [hid, Dict.get_eq_some.mpr hentry] at hget
          exact Prod.ext hid (Option.some.inj hget).symm
        rw [heq] at hnamed
        obtain hexpired | hmarked | hnot := hnamed
        · rw [(recalled_unexpired hrecalled).2] at hexpired
          exact absurd (Except.ok.inj hexpired) Bool.false_ne_true
        · rw [hunmarked] at hmarked
          exact absurd hmarked Bool.false_ne_true
        · exact hnot hfirst
      have hstays := @deleteMemoryDocuments_others _ env s doc.1 ids hkept
      rw [Dict.get_eq_some.mpr hentry] at hstays
      exact ⟨doc, List.mem_filter.mpr ⟨Dict.get_eq_some.mp hstays, hscope⟩, hsame, hrecalled⟩
    · intro hgives hkeeps text htext
      obtain ⟨doc, hdoc, hsame, hrecalled⟩ := hkeeps text htext
      obtain ⟨hentry, hscope⟩ := List.mem_filter.mp hdoc
      have hget := Dict.get_eq_some.mpr hentry
      -- what was purged is recalled no more, so the copy was not
      have hkept : doc.1 ∉ ids := by
        intro hmem
        obtain ⟨answer, hanswer⟩ := hgives
        rw [hafter] at hanswer
        obtain ⟨u, hdeleted, -⟩ := andThen_ok.mp (Prod.ext rfl hanswer)
        have hgone : Gone env.tools (env.deleteMemoryDocuments s ids).1 doc.1 :=
          (sealed_purged hmem (Prod.ext rfl hdeleted)).gone
        exact hgone doc.2 (Or.inl hget) env.now (recalled_unexpired hrecalled).1
      rw [deleteMemoryDocuments_others hkept] at hget
      have hbefore : doc ∈ env.scopedDocs payload.policy s.docs :=
        List.mem_filter.mpr ⟨Dict.get_eq_some.mp hget, hscope⟩
      rw [mem_purged hplan] at hkept
      have hunnamed : ¬ Named env host payload.policy (env.scopedDocs payload.policy s.docs) doc :=
        fun hnamed => hkept ⟨doc, hbefore, rfl, hnamed⟩
      unfold Named at hunnamed
      rw [not_or, not_or, Bool.not_eq_true, not_not] at hunnamed
      exact ⟨doc, hbefore, hsame, hrecalled, hunnamed.2.1, hunnamed.2.2⟩

end Purge

/-! ## A copy that was forgotten -/

/-- A plan of the exact duplicates alone. -/
def duplicatesOnly : MaintenanceApplyPayload where
  includeStaleWorking := false
  includeLowQuality := false
  confirmation := some "PERMANENT_DELETE"
  previewToken := some ""

def plainPlanning : Planning Bool := ⟨fun _ => false, fun _ => 0, fun _ _ _ => ""⟩

/-- A memory, and a better copy of it that was forgotten. -/
def teaTwice : SqliteStore :=
  let copies := Dict.empty.set "m1" ⟨"The user likes tea.", Metadata.ofEntries []⟩ |>.set "m2"
    ⟨"the user likes  tea.", Metadata.ofEntries [("quality_score", .num (9 / 10)), ("soft_forgotten", .bool true)]⟩
  { rows := copies, docs := copies }

/-- The memory is removed for the copy that was forgotten, and its text is lost. -/
theorem live_copy_removed :
    (plainRouter.applyMemoryMaintenance plainPlanning teaTwice duplicatesOnly).2 = .ok ["m1"] ∧
    Carried plainRouter duplicatesOnly.policy none none "the user likes tea." teaTwice.docs ∧
    ¬ KeepsTexts plainRouter duplicatesOnly.policy none none teaTwice.docs
      (plainRouter.applyMemoryMaintenance plainPlanning teaTwice duplicatesOnly).1.docs := by
  have hcarried : Carried plainRouter duplicatesOnly.policy none none "the user likes tea." teaTwice.docs := by
    refine ⟨("m1", ⟨"The user likes tea.", Metadata.ofEntries []⟩), ?_, ?_, ?_⟩ <;> decide +kernel
  refine ⟨by decide +kernel, hcarried, fun hkeeps => ?_⟩
  obtain ⟨doc, hdoc, -, hrecalled⟩ := hkeeps _ hcarried
  have hforgotten : ((plainRouter.scopedDocs duplicatesOnly.policy
      (plainRouter.applyMemoryMaintenance plainPlanning teaTwice duplicatesOnly).1.docs).all
        fun doc => decide (isMemoryRecallable newYear false none none doc.2.metadata ≠ .ok true)) = true := by
    decide +kernel
  exact of_decide_eq_true (List.all_eq_true.mp hforgotten doc hdoc) hrecalled

end Memory
