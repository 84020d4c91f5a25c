import Mathlib.Data.List.Sort
import Yuizaki.Plan.Validate

/- The hash of a plan (`canonical_json_bytes` in `modules/agent/planner.py`, `plan_hash`
   in `modules/agent/failure_recovery.py`).

   The dictionaries of the steps are normalised (some lists are sorted), put in a stable
   topological order, written as JSON with sorted keys, and hashed. A `Codec` is the JSON
   writer, which here only decides an order, and the digest of what it writes. Where the
   digest tells values apart, two plans with one hash have the same steps up to the order
   of their dependencies (`planHash_steps`). -/
namespace Plan

/-- `json.dumps` with compact separators of a value with sorted keys, and the SHA-256
digest of that text. -/
structure Codec (δ : Type) where
  dumps : Json → String
  digest : Json → δ

variable {δ : Type}

/-! ## Sorted keys -/

/-- Sort the entries of an object by key. -/
def sortEntries (kvs : List (String × Json)) : List (String × Json) :=
  kvs.insertionSort (fun a b => a.1 ≤ b.1)

mutual

/-- `sort_keys=True`, at every depth. -/
def sortKeys : Json → Json
  | .obj kvs => .obj (sortEntries (sortKeysEntries kvs))
  | .arr xs => .arr (sortKeysList xs)
  | .null => .null
  | .bool b => .bool b
  | .int n => .int n
  | .num q => .num q
  | .str s => .str s

/-- `sortKeys` of each element. -/
def sortKeysList : List Json → List Json
  | [] => []
  | x :: xs => sortKeys x :: sortKeysList xs

/-- `sortKeys` of each entry. -/
def sortKeysEntries : List (String × Json) → List (String × Json)
  | [] => []
  | (k, v) :: rest => (k, sortKeys v) :: sortKeysEntries rest

end

/-- `canonical_json_bytes`, decoded. -/
def canonicalJson (codec : Codec δ) (value : Json) : String := codec.dumps (sortKeys value)

/-! ## Normalisation -/

/-- The fields whose lists have no order. -/
def unorderedFields : List String :=
  ["depends_on", "status_in", "status_not_in", "content_contains", "error_contains", "values",
    "all_of", "any_of", "none_of"]

/-- Sort the values of a field by their canonical JSON, where the field has no order. -/
def sortField (codec : Codec δ) (field : Option String) (items : List Json) : List Json :=
  if field.any (fun f => f ∈ unorderedFields) then
    items.insertionSort (fun a b => canonicalJson codec a ≤ canonicalJson codec b)
  else items

mutual

/-- `normalize` of `plan_hash`. -/
def normalize (codec : Codec δ) (field : Option String) : Json → Json
  | .obj kvs => .obj (normalizeEntries codec kvs)
  | .arr xs => .arr (sortField codec field (normalizeList codec xs))
  | .null => .null
  | .bool b => .bool b
  | .int n => .int n
  | .num q => .num q
  | .str s => .str s

/-- `normalize` of each element. -/
def normalizeList (codec : Codec δ) : List Json → List Json
  | [] => []
  | x :: xs => normalize codec none x :: normalizeList codec xs

/-- `normalize` of each entry, under its key. -/
def normalizeEntries (codec : Codec δ) : List (String × Json) → List (String × Json)
  | [] => []
  | (k, v) :: rest => (k, normalize codec (some k) v) :: normalizeEntries codec rest

end

/-! ## The canonical order -/

/-- `str(value)` of a text. -/
def textOf : Json → String
  | .str s => s
  | _ => ""

/-- The identifier of a step's dictionary. -/
def stepIdOf (value : Json) : String := textOf (value.get "id")

/-- The dependencies of a step's dictionary. -/
def dependsOnOf (value : Json) : List String :=
  match value.get "depends_on" with
  | .arr xs => xs.map textOf
  | _ => []

/-- `by_id`: a later step of the same identifier takes the place of the earlier one. -/
def byId (values : List Json) : List (String × Json) :=
  values.foldl (fun kvs value => Json.setEntry kvs (stepIdOf value) value) []

/-- Rounds of the steps whose dependencies are placed, each sorted by identifier. -/
def layers : ℕ → List String → List (String × Json) → List (String × Json)
  | 0, _, remaining => remaining
  | fuel + 1, completed, remaining =>
    let ready := remaining.filter (fun e => (dependsOnOf e.2).all (fun d => d ∈ completed))
    let round := sortEntries (if ready = [] then remaining else ready)
    let placed := round.map Prod.fst
    if remaining = [] then []
    else round ++ layers fuel (placed ++ completed) (remaining.filter (fun e => e.1 ∉ placed))

/-- The dictionaries of a plan in canonical order. -/
def canonicalSteps (codec : Codec δ) (steps : List Step) : List Json :=
  let entries := byId (steps.map (fun step => normalize codec none step.toDict))
  (layers entries.length [] entries).map Prod.snd

def planHash (codec : Codec δ) (steps : List Step) : δ :=
  codec.digest (sortKeys (.arr (canonicalSteps codec steps)))

/-! ## What the hash determines -/

section Lookup

variable {kvs kvs' : List (String × Json)} {k : String} {v : Json}

theorem lookup_iff_mem (hnodup : (kvs.map Prod.fst).Nodup) :
    kvs.lookup k = some v ↔ (k, v) ∈ kvs := by
  induction kvs with
  | nil => simp
  | cons e rest ih =>
    obtain ⟨k', w⟩ := e
    obtain ⟨hnew, hrest⟩ := List.nodup_cons.mp hnodup
    rw [Json.lookup_cons_if]
    by_cases hk : k = k'
    · subst hk
      rw [if_pos rfl]
      constructor
      · intro h
        cases h
        exact List.mem_cons_self
      · intro h
        rcases List.mem_cons.mp h with heq | hmem
        · cases heq
          rfl
        · exact absurd (List.mem_map.mpr ⟨(k, v), hmem, rfl⟩) hnew
    · rw [if_neg hk, ih hrest]
      constructor
      · exact List.mem_cons_of_mem _
      · intro h
        rcases List.mem_cons.mp h with heq | hmem
        · cases heq
          exact absurd rfl hk
        · exact hmem

theorem lookup_perm (hnodup : (kvs.map Prod.fst).Nodup) (hperm : kvs'.Perm kvs) :
    kvs'.lookup k = kvs.lookup k := by
  have hnodup' : (kvs'.map Prod.fst).Nodup := (hperm.map Prod.fst).nodup_iff.mpr hnodup
  ext v
  rw [lookup_iff_mem hnodup', lookup_iff_mem hnodup]
  exact hperm.mem_iff

theorem keys_sortKeysEntries : (sortKeysEntries kvs).map Prod.fst = kvs.map Prod.fst := by
  induction kvs with
  | nil => rfl
  | cons e rest ih =>
    rw [sortKeysEntries, List.map_cons, List.map_cons, ih]

theorem keys_normalizeEntries (codec : Codec δ) :
    (normalizeEntries codec kvs).map Prod.fst = kvs.map Prod.fst := by
  induction kvs with
  | nil => rfl
  | cons e rest ih =>
    rw [normalizeEntries, List.map_cons, List.map_cons, ih]

theorem lookup_sortKeysEntries :
    (sortKeysEntries kvs).lookup k = (kvs.lookup k).map sortKeys := by
  induction kvs with
  | nil => rfl
  | cons e rest ih =>
    rw [sortKeysEntries, Json.lookup_cons_if, Json.lookup_cons_if, ih]
    split <;> rfl

theorem lookup_normalizeEntries (codec : Codec δ) :
    (normalizeEntries codec kvs).lookup k =
      (kvs.lookup k).map (normalize codec (some k)) := by
  induction kvs with
  | nil => rfl
  | cons e rest ih =>
    rw [normalizeEntries, Json.lookup_cons_if, Json.lookup_cons_if, ih]
    split
    · rename_i hk
      rw [hk]
      rfl
    · rfl

theorem get_sortKeys (hnodup : (kvs.map Prod.fst).Nodup) :
    (sortKeys (.obj kvs)).get k = sortKeys ((Json.obj kvs).get k) := by
  have hkeys : ((sortKeysEntries kvs).map Prod.fst).Nodup := by
    rw [keys_sortKeysEntries]
    exact hnodup
  have hsorted : (sortEntries (sortKeysEntries kvs)).lookup k = (sortKeysEntries kvs).lookup k :=
    lookup_perm hkeys (List.perm_insertionSort _ _)
  rw [sortKeys]
  change ((sortEntries (sortKeysEntries kvs)).lookup k).getD .null =
    sortKeys ((kvs.lookup k).getD .null)
  rw [hsorted, lookup_sortKeysEntries]
  cases kvs.lookup k with
  | none => rw [Option.map_none, Option.getD_none, sortKeys]
  | some v => rw [Option.map_some, Option.getD_some, Option.getD_some]

theorem get_normalize (codec : Codec δ) (kvs : List (String × Json)) (k : String) :
    (normalize codec none (.obj kvs)).get k = normalize codec (some k) ((Json.obj kvs).get k) := by
  rw [normalize]
  change ((normalizeEntries codec kvs).lookup k).getD .null =
    normalize codec (some k) ((kvs.lookup k).getD .null)
  rw [lookup_normalizeEntries]
  cases kvs.lookup k with
  | none => rw [Option.map_none, Option.getD_none, normalize]
  | some v => rw [Option.map_some, Option.getD_some, Option.getD_some]

end Lookup

section Determines

variable {codec : Codec δ} {steps steps' : List Step} {step step' : Step}

/-- The normalised dictionary of a step. -/
def stepDict (codec : Codec δ) (step : Step) : Json := normalize codec none step.toDict

theorem stepDict_id : (stepDict codec step).get "id" = .str step.id := by
  unfold stepDict Step.toDict
  rw [get_normalize]
  change normalize codec (some "id") (.str step.id) = _
  rw [normalize]

theorem stepDict_dependsOn : (stepDict codec step).get "depends_on" =
    .arr (sortField codec (some "depends_on") (step.dependsOn.map .str)) := by
  have hlist : ∀ xs : List String, normalizeList codec (xs.map .str) = xs.map .str := by
    intro xs
    induction xs with
    | nil => rfl
    | cons x rest ih => rw [List.map_cons, normalizeList, ih, normalize]
  unfold stepDict Step.toDict
  rw [get_normalize]
  change normalize codec (some "depends_on") (textsJson step.dependsOn) = _
  rw [textsJson, normalize, hlist]

theorem stepIdOf_stepDict : stepIdOf (stepDict codec step) = step.id := by
  rw [stepIdOf, stepDict_id]
  rfl

theorem keys_stepDict (codec : Codec δ) (step : Step) : ∃ kvs, stepDict codec step = .obj kvs ∧ (kvs.map Prod.fst).Nodup := by
  unfold stepDict Step.toDict
  rw [normalize]
  refine ⟨_, rfl, ?_⟩
  rw [keys_normalizeEntries, List.map_append]
  cases step.body <;> simp [StepBody.fields]

theorem sorted_id : (sortKeys (stepDict codec step)).get "id" = .str step.id := by
  obtain ⟨kvs, hkvs, hnodup⟩ := keys_stepDict codec step
  rw [hkvs, get_sortKeys hnodup, ← hkvs, stepDict_id, sortKeys]

theorem sorted_dependsOn : (sortKeys (stepDict codec step)).get "depends_on" =
    .arr (sortField codec (some "depends_on") (step.dependsOn.map .str)) := by
  obtain ⟨kvs, hkvs, hnodup⟩ := keys_stepDict codec step
  have hlist : ∀ xs : List Json, (∀ x ∈ xs, ∃ s, x = .str s) → sortKeysList xs = xs := by
    intro xs
    induction xs with
    | nil => exact fun _ => rfl
    | cons x rest ih =>
      intro h
      obtain ⟨s, rfl⟩ := h x List.mem_cons_self
      rw [sortKeysList, ih (fun y hy => h y (List.mem_cons_of_mem _ hy)), sortKeys]
  rw [hkvs, get_sortKeys hnodup, ← hkvs, stepDict_dependsOn, sortKeys, hlist]
  intro x hx
  have hmem : x ∈ step.dependsOn.map Json.str := by
    unfold sortField at hx
    split at hx
    · exact (List.perm_insertionSort _ _).mem_iff.mp hx
    · exact hx
  obtain ⟨s, -, rfl⟩ := List.mem_map.mp hmem
  exact ⟨s, rfl⟩

theorem same_step (h : sortKeys (stepDict codec step) = sortKeys (stepDict codec step')) :
    step.id = step'.id ∧ step.dependsOn.Perm step'.dependsOn := by
  have hid := congrArg (fun j => j.get "id") h
  have hdeps := congrArg (fun j => j.get "depends_on") h
  rw [sorted_id, sorted_id] at hid
  rw [sorted_dependsOn, sorted_dependsOn] at hdeps
  have hsort : ∀ xs : List Json, (sortField codec (some "depends_on") xs).Perm xs := by
    intro xs
    unfold sortField
    split
    · exact List.perm_insertionSort _ _
    · exact List.Perm.refl _
  have hperm : (step.dependsOn.map Json.str).Perm (step'.dependsOn.map Json.str) := by
    have h₁ := hsort (step.dependsOn.map Json.str)
    have h₂ := hsort (step'.dependsOn.map Json.str)
    rw [Json.arr.inj hdeps] at h₁
    exact h₁.symm.trans h₂
  have htexts := hperm.map textOf
  have hback : ∀ xs : List String, (xs.map Json.str).map textOf = xs := by
    intro xs
    rw [List.map_map]
    exact List.map_id xs
  rw [hback, hback] at htexts
  exact ⟨Json.str.inj hid, htexts⟩

theorem byId_dicts (hnodup : (ids steps).Nodup) :
    byId (steps.map (stepDict codec)) = steps.map (fun s => (s.id, stepDict codec s)) := by
  have hset : ∀ (kvs : List (String × Json)) (k : String) (v : Json), k ∉ kvs.map Prod.fst →
      Json.setEntry kvs k v = kvs ++ [(k, v)] := by
    intro kvs k v hnew
    induction kvs with
    | nil => rfl
    | cons e rest ih =>
      rw [List.map_cons, List.mem_cons, not_or] at hnew
      rw [Json.setEntry, if_neg (fun h => hnew.1 h.symm), ih hnew.2, List.cons_append]
  have hfold : ∀ (rest : List Step) (kvs : List (String × Json)),
      (kvs.map Prod.fst ++ ids rest).Nodup →
      (rest.map (stepDict codec)).foldl
          (fun kvs value => Json.setEntry kvs (stepIdOf value) value) kvs =
        kvs ++ rest.map (fun s => (s.id, stepDict codec s)) := by
    intro rest
    induction rest with
    | nil => exact fun kvs _ => (List.append_nil kvs).symm
    | cons s rest ih =>
      intro kvs h
      have hnew : s.id ∉ kvs.map Prod.fst := by
        intro hmem
        exact (List.nodup_append.mp h).2.2 s.id hmem s.id List.mem_cons_self rfl
      rw [List.map_cons, List.foldl_cons, stepIdOf_stepDict, hset _ _ _ hnew, ih, List.map_cons,
        List.append_assoc, List.singleton_append]
      rw [List.map_append, List.append_assoc]
      exact h
  have h := hfold steps [] (by simpa using hnodup)
  rw [List.nil_append] at h
  exact h

theorem mem_layers {fuel : ℕ} {completed : List String} {remaining : List (String × Json)}
    (hnodup : (remaining.map Prod.fst).Nodup) {e : String × Json} :
    e ∈ layers fuel completed remaining ↔ e ∈ remaining := by
  induction fuel generalizing completed remaining with
  | zero => exact Iff.rfl
  | succ fuel ih =>
    unfold layers
    dsimp only
    split
    · rename_i hnil
      rw [hnil]
    · generalize hround : (if remaining.filter
          (fun e => (dependsOnOf e.2).all (fun d => d ∈ completed)) = [] then remaining
        else remaining.filter (fun e => (dependsOnOf e.2).all (fun d => d ∈ completed))) = round
      have hsub : ∀ e ∈ round, e ∈ remaining := by
        intro e he
        rw [← hround] at he
        split at he
        · exact he
        · exact (List.mem_filter.mp he).1
      have hsorted : ∀ e, e ∈ sortEntries round ↔ e ∈ round :=
        fun e => (List.perm_insertionSort _ _).mem_iff
      have hrest : ((remaining.filter (fun e =>
          e.1 ∉ (sortEntries round).map Prod.fst)).map Prod.fst).Nodup :=
        (List.filter_sublist.map Prod.fst).nodup hnodup
      rw [List.mem_append, hsorted, ih hrest, List.mem_filter]
      constructor
      · rintro (he | ⟨he, -⟩)
        · exact hsub e he
        · exact he
      · intro he
        by_cases hplaced : e.1 ∈ (sortEntries round).map Prod.fst
        · -- an entry with a placed key is the placed entry
          obtain ⟨e', he', hkey⟩ := List.mem_map.mp hplaced
          have he'' := hsub e' ((hsorted e').mp he')
          have heq : e' = e := List.inj_on_of_nodup_map hnodup he'' he hkey
          exact Or.inl (heq ▸ (hsorted e').mp he')
        · exact Or.inr ⟨he, decide_eq_true hplaced⟩

theorem mem_canonicalSteps (hnodup : (ids steps).Nodup) {j : Json} :
    j ∈ canonicalSteps codec steps ↔ ∃ s ∈ steps, stepDict codec s = j := by
  have hkeys : ((steps.map (fun s => (s.id, stepDict codec s))).map Prod.fst).Nodup := by
    rw [List.map_map]
    exact hnodup
  unfold canonicalSteps
  dsimp only
  change j ∈ (layers (byId (steps.map (stepDict codec))).length []
    (byId (steps.map (stepDict codec)))).map Prod.snd ↔ _
  rw [byId_dicts hnodup, List.mem_map]
  constructor
  · rintro ⟨e, he, rfl⟩
    obtain ⟨s, hs, rfl⟩ := List.mem_map.mp ((mem_layers hkeys).mp he)
    exact ⟨s, hs, rfl⟩
  · rintro ⟨s, hs, rfl⟩
    exact ⟨(s.id, stepDict codec s), (mem_layers hkeys).mpr (List.mem_map.mpr ⟨s, hs, rfl⟩), rfl⟩

theorem mem_sortKeysList {xs : List Json} {j : Json} :
    j ∈ sortKeysList xs ↔ ∃ x ∈ xs, sortKeys x = j := by
  induction xs with
  | nil => simp [sortKeysList]
  | cons x rest ih =>
    rw [sortKeysList, List.mem_cons, ih]
    simp [eq_comm]

theorem planHash_steps (hdigest : Function.Injective codec.digest)
    (hnodup : (ids steps).Nodup) (hnodup' : (ids steps').Nodup) (h : planHash codec steps = planHash codec steps') :
    ∀ s ∈ steps, ∃ s' ∈ steps', s'.id = s.id ∧ s'.dependsOn.Perm s.dependsOn := by
  have hcanonical := hdigest h
  rw [sortKeys, sortKeys] at hcanonical
  have hlist := Json.arr.inj hcanonical
  intro s hs
  have hmem : sortKeys (stepDict codec s) ∈ sortKeysList (canonicalSteps codec steps) :=
    mem_sortKeysList.mpr ⟨_, (mem_canonicalSteps hnodup).mpr ⟨s, hs, rfl⟩, rfl⟩
  rw [hlist] at hmem
  obtain ⟨j, hj, hsame⟩ := mem_sortKeysList.mp hmem
  obtain ⟨s', hs', rfl⟩ := (mem_canonicalSteps hnodup').mp hj
  obtain ⟨hid, hdeps⟩ := same_step hsame
  exact ⟨s', hs', hid, hdeps⟩

end Determines

end Plan
