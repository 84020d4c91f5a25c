import Yuizaki.Memory.Filters
import Yuizaki.Memory.Normal
import Mathlib.Data.Bool.Basic

/- The filter that the Qdrant client pushes down (`_build_query_filter` in
   `modules/memory/vector_client.py`), beside the filter that is applied to what comes back.

   A condition of Qdrant matches a field that is one of its texts, or a list with one of them; a
   field that is missing or `None` matches nothing. The filter in Python reads a missing scope
   as `workspace` and a missing layer as `semantic`, and compares sessions without the blanks
   around them. The order of the values of a condition plays no part. -/
namespace Memory

variable {τ : Type} [LinearOrder τ] (tools : MetadataTools τ) (now : τ)

/-! ## Payloads -/

/-- The fields that a payload repeats beside the metadata. -/
def payloadKeys : List String :=
  ["timestamp", "type", "layer", "scope", "session_id", "workspace_id", "quality_score", "confidence", "source"]

structure Payload where
  fields : Metadata
  metadata : Metadata

/-- `_serialize_doc`: the fields are those of the metadata, and a timestamp in any case. -/
def serializeDoc (localNow : String) (m : Metadata) : Payload where
  fields := Metadata.ofEntries [("timestamp", (m.value "timestamp").or (.str localNow)), ("type", m.value "type"),
    ("layer", m.value "layer"), ("scope", m.value "scope"), ("session_id", m.value "session_id"),
    ("workspace_id", m.value "workspace_id"), ("quality_score", m.value "quality_score"),
    ("confidence", m.value "confidence"), ("source", m.value "source")]
  metadata := m

/-- A field of the payload, where the metadata does not have it. -/
def restorePayloadField (fields : Metadata) (m : Metadata) (key : String) : Metadata :=
  match fields.get key, m.get key with
  | some .null, _ => m
  | some v, none => m.set key v
  | _, _ => m

def deserializeDoc (payload : Payload) : Metadata :=
  payloadKeys.foldl (restorePayloadField payload.fields) payload.metadata

/-! ## Conditions -/

/-- `FieldCondition(key, match=MatchAny(any))`; `MatchValue` has one value. -/
structure FieldCondition where
  key : String
  any : List String

def matchesAny (allowed : List String) : Json → Bool
  | .str s => s ∈ allowed
  | .arr xs => xs.any fun x => allowed.any fun s => decide (x = .str s)
  | _ => false

def FieldCondition.holds (c : FieldCondition) (payload : Payload) : Bool :=
  matchesAny c.any (payload.fields.value c.key)

/-- `_build_query_filter`: the conditions of `must`, none for no filter. -/
def buildQueryFilter (filters : Option MemorySearchFilters) (types : Option (List String)) : List FieldCondition :=
  let scope := (filters.bind MemorySearchFilters.scope).toList.map fun scope => ⟨"scope", [scope.name]⟩
  let session := match filters with
    | some filters =>
      if filters.scope = some .session then (given filters.sessionId).toList.map fun s => ⟨"session_id", [s]⟩ else []
    | none => []
  let layers := match filters with
    | some filters => if filters.layers.isEmpty then [] else [⟨"layer", filters.layers⟩]
    | none => []
  let types := match types with
    | some values => if values.isEmpty then [] else [⟨"type", values⟩]
    | none => []
  scope ++ session ++ layers ++ types

/-- The points that a query with these conditions returns. -/
def pushedDown (filters : Option MemorySearchFilters) (types : Option (List String)) (payload : Payload) : Bool :=
  (buildQueryFilter filters types).all fun c => c.holds payload

/-! ## The fields of a payload -/

theorem get_restorePayloadField {fields m : Metadata} {key k : String} (h : k ≠ key) :
    (restorePayloadField fields m key).get k = m.get k := by
  unfold restorePayloadField
  split
  · rfl
  · exact Dict.get_set_of_ne h
  · rfl

theorem restorePayloadField_self {fields m : Metadata} {key : String} (h : fields.get key = some (m.value key)) :
    restorePayloadField fields m key = m := by
  unfold restorePayloadField
  rw [h]
  cases hget : m.get key with
  | none =>
    have hnull : m.value key = .null := by
      rw [Metadata.value, hget]
      rfl
    rw [hnull]
  | some v =>
    split
    · rfl
    · rename_i hnone
      cases hnone
    · rfl

theorem value_deserialize (localNow : String) (m : Metadata) {key : String} (h : key ≠ "timestamp") :
    (deserializeDoc (serializeDoc localNow m)).value key = m.value key := by
  have hfields : ∀ k ∈ payloadKeys, k ≠ "timestamp" →
      (serializeDoc localNow m).fields.get k = some (m.value k) := by
    intro k hk hne
    simp only [payloadKeys, List.mem_cons, List.not_mem_nil, or_false] at hk
    obtain rfl | rfl | rfl | rfl | rfl | rfl | rfl | rfl | rfl := hk
    · exact absurd rfl hne
    all_goals
      simp [serializeDoc, Metadata.ofEntries, Dict.get_set]
  have hrest : ∀ (keys : List String) (n : Metadata), (∀ k ∈ keys, k ∈ payloadKeys ∧ k ≠ "timestamp") →
      (∀ k, k ≠ "timestamp" → n.get k = m.get k) →
      ∀ k, k ≠ "timestamp" → (keys.foldl (restorePayloadField (serializeDoc localNow m).fields) n).get k = m.get k := by
    intro keys
    induction keys with
    | nil => exact fun n _ hn => hn
    | cons key keys ih =>
      intro n hkeys hn
      obtain ⟨hmem, hne⟩ := hkeys key List.mem_cons_self
      have hself : restorePayloadField (serializeDoc localNow m).fields n key = n := by
        apply restorePayloadField_self
        rw [hfields key hmem hne, Metadata.value, Metadata.value, hn key hne]
      rw [List.foldl_cons, hself]
      exact ih n (fun k hk => hkeys k (List.mem_cons_of_mem _ hk)) hn
  have hall := hrest payloadKeys.tail (restorePayloadField (serializeDoc localNow m).fields m "timestamp") (by decide)
    (fun k hk => get_restorePayloadField hk) key h
  show ((deserializeDoc (serializeDoc localNow m)).get key).getD .null = (m.get key).getD .null
  rw [← hall]
  rfl

/-! ## What is found -/

/-- A field that a condition can read: a text (an empty one only where it is asked for), or a list
    with one of the texts. -/
def Readable (allowed : List String) (v : Json) : Prop :=
  (∃ s, v = .str s ∧ (s = "" → "" ∈ allowed)) ∨ ∃ xs, v = .arr xs ∧ ∃ s ∈ allowed, Json.str s ∈ xs

omit [LinearOrder τ] in
theorem matchesAny_iff {allowed : List String} {v : Json} {default : String}
    (h : tools.str (v.or (.str default)) ∈ allowed) : matchesAny allowed v = true ↔ Readable allowed v := by
  cases v with
  | str s =>
    have hmatch : matchesAny allowed (.str s) = true ↔ s ∈ allowed := decide_eq_true_iff
    rw [hmatch]
    constructor
    · exact fun hs => Or.inl ⟨s, rfl, fun hempty => hempty ▸ hs⟩
    · rintro (⟨t, ht, hempty⟩ | ⟨xs, hxs, -⟩)
      · obtain rfl := Json.str.inj ht
        by_cases hs : s = ""
        · rw [hs]
          exact hempty hs
        · have htruthy : (Json.str s).truthy = true := decide_eq_true hs
          rw [Json.or, if_pos htruthy] at h
          exact h
      · cases hxs
  | arr xs =>
    have hmatch : matchesAny allowed (.arr xs) = true ↔ ∃ s ∈ allowed, Json.str s ∈ xs := by
      unfold matchesAny
      rw [List.any_eq_true]
      simp only [List.any_eq_true, decide_eq_true_eq]
      constructor
      · rintro ⟨x, hx, s, hs, rfl⟩
        exact ⟨s, hs, hx⟩
      · rintro ⟨s, hs, hx⟩
        exact ⟨_, hx, s, hs, rfl⟩
    rw [hmatch]
    constructor
    · exact fun hs => Or.inr ⟨xs, rfl, hs⟩
    · rintro (⟨s, hs, -⟩ | ⟨ys, hys, hs⟩)
      · cases hs
      · obtain rfl := Json.arr.inj hys
        exact hs
  | _ =>
    constructor
    · intro hmatch
      have hfalse : false = true := hmatch
      cases hfalse
    · rintro (⟨s, hs, -⟩ | ⟨ys, hys, -⟩)
      · cases hs
      · cases hys

/-- A document whose fields the conditions of a search can read. -/
structure Findable (filters : Option MemorySearchFilters) (types : Option (List String)) (m : Metadata) : Prop where
  scope : ∀ fs, filters = some fs → ∀ scope, fs.scope = some scope → Readable [scope.name] (m.value "scope")
  session : ∀ fs, filters = some fs → fs.scope = some .session → ∀ s, given fs.sessionId = some s →
    matchesAny [s] (m.value "session_id") = true
  layer : ∀ fs, filters = some fs → fs.layers ≠ [] → Readable fs.layers (m.value "layer")
  type : ∀ values, types = some values → values ≠ [] → Readable values (m.value "type")

variable {tools : MetadataTools τ} {now : τ}

omit [LinearOrder τ] in
theorem storeScope_scope {filters : MemorySearchFilters} {m : Metadata} {scope : MemoryScope}
    (h : storeScope tools filters m = true) (hscope : filters.scope = some scope) :
    tools.textOf m "scope" "workspace" = scope.name := by
  unfold storeScope at h
  dsimp only at h
  rw [hscope] at h
  cases scope with
  | global => exact of_decide_eq_true h
  | workspace => exact (of_decide_eq_true h).1
  | session => exact (of_decide_eq_true h).1

/-- What the filter in Python has read of a document that it accepts. -/
structure Accepted (tools : MetadataTools τ) (filters : Option MemorySearchFilters) (types : Option (List String))
    (m : Metadata) : Prop where
  scope : ∀ fs, filters = some fs → ∀ scope, fs.scope = some scope → tools.textOf m "scope" "workspace" ∈ [scope.name]
  layer : ∀ fs, filters = some fs → fs.layers ≠ [] → tools.textOf m "layer" "semantic" ∈ fs.layers
  type : ∀ values, types = some values → tools.textOf m "type" "" ∈ values

theorem accepted_of_recallable {filters : Option MemorySearchFilters} {types : Option (List String)} {m : Metadata}
    (h : isMemoryRecallable tools now filters types m = .ok true) : Accepted tools filters types m := by
  unfold isMemoryRecallable at h
  cases hstate : isMetadataRecallable tools now m with
  | error e =>
    rw [hstate] at h
    exact nomatch h
  | ok recallable =>
    rw [hstate] at h
    have hall := Except.ok.inj h
    rw [Bool.and_eq_true, Bool.and_eq_true, Bool.and_eq_true] at hall
    obtain ⟨⟨-, htypes⟩, hfilters⟩ := hall
    refine ⟨?_, ?_, ?_⟩
    · rintro fs rfl scope hscope
      rw [Option.all_some, Bool.and_eq_true, Bool.and_eq_true] at hfilters
      exact List.mem_singleton.mpr (storeScope_scope hfilters.2 hscope)
    · rintro fs rfl hlayers
      rw [Option.all_some, Bool.and_eq_true, Bool.and_eq_true] at hfilters
      obtain hempty | hlayer := Bool.or_eq_true _ _ ▸ hfilters.1.1
      · exact absurd (List.isEmpty_iff.mp hempty) hlayers
      · exact of_decide_eq_true hlayer
    · rintro values rfl
      exact of_decide_eq_true htypes

theorem mem_buildQueryFilter {filters : Option MemorySearchFilters} {types : Option (List String)} {c : FieldCondition} :
    c ∈ buildQueryFilter filters types ↔
      (∃ fs, filters = some fs ∧ ∃ scope, fs.scope = some scope ∧ c = ⟨"scope", [scope.name]⟩) ∨
      (∃ fs, filters = some fs ∧ fs.scope = some .session ∧ ∃ s, given fs.sessionId = some s ∧ c = ⟨"session_id", [s]⟩) ∨
      (∃ fs, filters = some fs ∧ fs.layers ≠ [] ∧ c = ⟨"layer", fs.layers⟩) ∨
      ∃ values, types = some values ∧ values ≠ [] ∧ c = ⟨"type", values⟩ := by
  unfold buildQueryFilter
  dsimp only
  rw [List.mem_append, List.mem_append, List.mem_append, or_assoc, or_assoc]
  refine or_congr ?_ (or_congr ?_ (or_congr ?_ ?_))
  · cases filters with
    | none => simp
    | some fs => cases hscope : fs.scope <;> simp [hscope, eq_comm]
  · cases filters with
    | none => simp
    | some fs =>
      dsimp only
      by_cases hscope : fs.scope = some .session
      · rw [if_pos hscope]
        cases hsession : given fs.sessionId <;> simp [hscope, hsession]
      · rw [if_neg hscope]
        simp [hscope]
  · cases filters with
    | none => simp
    | some fs =>
      dsimp only
      by_cases hlayers : fs.layers = []
      · simp [hlayers]
      · rw [if_neg (by simpa using hlayers)]
        simp [hlayers]
  · cases types with
    | none => simp
    | some values =>
      dsimp only
      by_cases hvalues : values = []
      · simp [hvalues]
      · rw [if_neg (by simpa using hvalues)]
        simp [hvalues]

theorem fields_value (localNow : String) (m : Metadata) {key : String} (hkey : key ∈ payloadKeys) (h : key ≠ "timestamp") :
    (serializeDoc localNow m).fields.value key = m.value key := by
  simp only [payloadKeys, List.mem_cons, List.not_mem_nil, or_false] at hkey
  obtain rfl | rfl | rfl | rfl | rfl | rfl | rfl | rfl | rfl := hkey
  · exact absurd rfl h
  all_goals
    simp [serializeDoc, Metadata.ofEntries, Metadata.value, Dict.get_set]

/-- **The pushed-down filter finds a document** that the filter in Python accepts exactly where
    its conditions can read the fields of the document. -/
theorem pushdown_finds (localNow : String) (m : Metadata) (filters : Option MemorySearchFilters)
    (types : Option (List String))
    (h : isMemoryRecallable tools now filters types (deserializeDoc (serializeDoc localNow m)) = .ok true) :
    pushedDown filters types (serializeDoc localNow m) = true ↔ Findable filters types m := by
  obtain ⟨hscope, hlayer, htype⟩ := accepted_of_recallable h
  simp only [MetadataTools.textOf, value_deserialize localNow m (show "scope" ≠ "timestamp" by decide)] at hscope
  simp only [MetadataTools.textOf, value_deserialize localNow m (show "layer" ≠ "timestamp" by decide)] at hlayer
  simp only [MetadataTools.textOf, value_deserialize localNow m (show "type" ≠ "timestamp" by decide)] at htype
  have hvalue : ∀ key ∈ payloadKeys, key ≠ "timestamp" → ∀ allowed,
      FieldCondition.holds ⟨key, allowed⟩ (serializeDoc localNow m) = matchesAny allowed (m.value key) := by
    intro key hkey hne allowed
    show matchesAny allowed ((serializeDoc localNow m).fields.value key) = _
    rw [fields_value localNow m hkey hne]
  unfold pushedDown
  rw [List.all_eq_true]
  constructor
  · intro hall
    refine ⟨fun fs hfs scope hs => ?_, fun fs hfs hs s hgiven => ?_, fun fs hfs hs => ?_, fun values hvalues hs => ?_⟩
    · have hholds := hall _ (mem_buildQueryFilter.mpr (Or.inl ⟨fs, hfs, scope, hs, rfl⟩))
      rw [hvalue "scope" (by decide) (by decide)] at hholds
      exact (matchesAny_iff tools (hscope fs hfs scope hs)).mp hholds
    · have hholds := hall _ (mem_buildQueryFilter.mpr (Or.inr (Or.inl ⟨fs, hfs, hs, s, hgiven, rfl⟩)))
      rw [hvalue "session_id" (by decide) (by decide)] at hholds
      exact hholds
    · have hholds := hall _ (mem_buildQueryFilter.mpr (Or.inr (Or.inr (Or.inl ⟨fs, hfs, hs, rfl⟩))))
      rw [hvalue "layer" (by decide) (by decide)] at hholds
      exact (matchesAny_iff tools (hlayer fs hfs hs)).mp hholds
    · have hholds := hall _ (mem_buildQueryFilter.mpr (Or.inr (Or.inr (Or.inr ⟨values, hvalues, hs, rfl⟩))))
      rw [hvalue "type" (by decide) (by decide)] at hholds
      exact (matchesAny_iff tools (htype values hvalues)).mp hholds
  · intro hfind c hc
    obtain ⟨fs, hfs, scope, hs, rfl⟩ | ⟨fs, hfs, hs, s, hgiven, rfl⟩ | ⟨fs, hfs, hs, rfl⟩ | ⟨values, hvalues, hs, rfl⟩ :=
      mem_buildQueryFilter.mp hc
    · rw [hvalue "scope" (by decide) (by decide)]
      exact (matchesAny_iff tools (hscope fs hfs scope hs)).mpr (hfind.scope fs hfs scope hs)
    · rw [hvalue "session_id" (by decide) (by decide)]
      exact hfind.session fs hfs hs s hgiven
    · rw [hvalue "layer" (by decide) (by decide)]
      exact (matchesAny_iff tools (hlayer fs hfs hs)).mpr (hfind.layer fs hfs hs)
    · rw [hvalue "type" (by decide) (by decide)]
      exact (matchesAny_iff tools (htype values hvalues)).mpr (hfind.type values hvalues hs)

/-- A memory with a scope of its own is found. -/
theorem pushdown_finds_tea : pushedDown (some { scope := some .workspace }) none
    (serializeDoc "now" (Metadata.ofEntries [("scope", .str "workspace")])) = true := by
  refine (@pushdown_finds Bool _ newYear false "now" (Metadata.ofEntries [("scope", .str "workspace")])
    (some { scope := some .workspace }) none (by decide +kernel)).mpr ⟨?_, ?_, ?_, ?_⟩
  · rintro fs hfs scope hscope
    obtain rfl := Option.some.inj hfs
    exact Or.inl ⟨"workspace", by decide +kernel, fun hempty => absurd hempty (by decide)⟩
  · rintro fs hfs hscope
    obtain rfl := Option.some.inj hfs
    exact absurd hscope (by decide)
  · rintro fs hfs hlayers
    obtain rfl := Option.some.inj hfs
    exact absurd rfl hlayers
  · exact fun values hvalues => nomatch hvalues

/-- A memory of a workspace that was stored without a scope is accepted and never returned, and
    so is one whose session was stored with a blank after it. -/
theorem unscoped_lost :
    (isMemoryRecallable newYear false (some { scope := some .workspace }) none
        (deserializeDoc (serializeDoc "now" (Metadata.ofEntries []))) = .ok true ∧
      pushedDown (some { scope := some .workspace }) none (serializeDoc "now" (Metadata.ofEntries [])) = false) ∧
    isMemoryRecallable newYear false (some { scope := some .session, sessionId := some "s" }) none
        (deserializeDoc (serializeDoc "now" (Metadata.ofEntries [("scope", .str "session"), ("session_id", .str "s ")]))) =
        .ok true ∧
      pushedDown (some { scope := some .session, sessionId := some "s" }) none
        (serializeDoc "now" (Metadata.ofEntries [("scope", .str "session"), ("session_id", .str "s ")])) = false := by
  decide +kernel

end Memory
