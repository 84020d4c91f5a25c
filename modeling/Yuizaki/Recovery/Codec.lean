import Yuizaki.Plan.Canonical
import Yuizaki.Recovery.Store

/- The durable documents of recovery (`serialize_tool_step`, `deserialize_tool_step` and the
   snapshots in `modules/agent/recovery_store.py`).

   A step is stored as the JSON text of its dictionary, with sorted keys, and rebuilt from
   the text field by field. Both sides check it: what is stored has every check of
   `validate_plan` behind it, and so has what comes back. A stored document can always be
   read, what is read has the dictionary that was stored, and storing it again gives the
   same text (`documents_round_trip`). -/
namespace Recovery

open Plan JsonText Fallible

/-! ## Tool steps -/

/-- `success_criteria`: a node or a dictionary. -/
inductive Criteria where
  | node (criteria : Predicate)
  | dict (kvs : List (String × Json))

def Criteria.dictForm : Criteria → Json
  | .node criteria => criteria.toDict
  | .dict kvs => .obj kvs

/-- The criteria `__post_init__` fills in. -/
def defaultCriteriaDict : Criteria :=
  .dict [("op", .str "status_in"), ("values", textsJson ["ok", "created"])]

/-- `ToolStep`. A field that nothing checks holds any JSON value. `__post_init__` fills in
the criteria and the key, and takes a payload from version 1 only. -/
structure ToolStep where
  id : String
  title : String
  description : Json
  payload : Option (List (String × Json))
  dependsOn : Json
  condition : Option StepCondition
  ownerAgentId : Json
  ownerAgentRole : Json
  routeReason : Json
  successCriteria : Criteria
  planVersion : PyNumber
  compatibilityTrace : Json
  toolName : Option String
  arguments : List (String × Json)
  timeoutSeconds : Option PyNumber
  retryBudget : ℤ
  retryOwner : String
  idempotencyKey : String
  legacy : payload.isSome = true → planVersion.value = 1

/-- The entries of `asdict`. -/
def ToolStep.entries (step : ToolStep) : List (String × Json) :=
  [("id", .str step.id), ("title", .str step.title), ("kind", .str "tool"),
    ("description", step.description), ("payload", optionalObject step.payload),
    ("depends_on", step.dependsOn),
    ("condition", (step.condition.map StepCondition.asDict).getD .null),
    ("owner_agent_id", step.ownerAgentId), ("owner_agent_role", step.ownerAgentRole),
    ("route_reason", step.routeReason), ("success_criteria", step.successCriteria.dictForm),
    ("plan_version", step.planVersion.json), ("compatibility_trace", step.compatibilityTrace),
    ("tool_name", optionalText step.toolName), ("arguments", .obj step.arguments),
    ("timeout_seconds", (step.timeoutSeconds.map PyNumber.json).getD .null),
    ("retry_budget", .int step.retryBudget), ("retry_owner", .str step.retryOwner),
    ("idempotency_key", .str step.idempotencyKey)]

def ToolStep.toDict (step : ToolStep) : Json := .obj step.entries

/-! ## Validating a step -/

/-- A text, or nothing where there is none or `None`. -/
def optionalTextOf : Option Json → Option (Option String)
  | none => some none
  | some .null => some none
  | some (.str s) => some (some s)
  | some _ => none

def textItems : List Json → Option (List String)
  | [] => some []
  | .str s :: rest => (textItems rest).map (fun texts => s :: texts)
  | _ :: _ => none

/-- A list of texts, empty where there is none. -/
def textsOf : Option Json → Option (List String)
  | none => some []
  | some (.arr xs) => textItems xs
  | some _ => none

def nonemptyList : Option Json → Bool
  | some (.arr xs) => !xs.isEmpty
  | _ => false

/-- The checks of one predicate of criteria, apart from those of its children. -/
def checkNode (known keys : List String) (op source values children : Option Json) : Bool :=
  match op, optionalTextOf source, textsOf values with
  | some (.str op), some source, some values =>
    keys.all (fun key => key ∈ ["op", "source_step_id", "values", "children"]) &&
    decide (op ∈ predicateOperators) &&
    if op ∈ combinators then decide (source = none ∧ values = []) && nonemptyList children
    else !(children.getD .null).truthy && decide (values ≠ []) &&
      decide (source.getD "" = "" ∨ source.getD "" ∈ known)
  | _, _, _ => false

mutual

/-- `_validate_predicate` of a dictionary of criteria, whose source may be left out. -/
def validateDict (known : List String) : Json → Bool
  | .null => true
  | .obj kvs =>
    checkNode known (kvs.map Prod.fst) (kvs.lookup "op") (kvs.lookup "source_step_id")
      (kvs.lookup "values") (kvs.lookup "children") &&
    ((validateEntries known kvs).lookup "children").getD true
  | _ => false

/-- Each entry as the children of the predicate. -/
def validateEntries (known : List String) : List (String × Json) → List (String × Bool)
  | [] => []
  | (key, value) :: rest => (key, validateChildren known value) :: validateEntries known rest

/-- The children in a value; what is empty has none. -/
def validateChildren (known : List String) : Json → Bool
  | .arr xs => validateItems known xs
  | .str s => s = ""
  | .obj kvs => kvs.isEmpty
  | _ => false

def validateItems (known : List String) : List Json → Bool
  | [] => true
  | x :: xs => validateDict known x && validateItems known xs

end

/-- `_validate_predicate` of the criteria of a step. -/
def Criteria.valid (id : String) : Criteria → Bool
  | .node criteria =>
    (validatePredicate ("step " ++ id ++ ".success_criteria") [id] true criteria).isOk
  | .dict kvs => validateDict [id] (.obj kvs)

/-- Dependencies that are none, and can be gone through. -/
def noDependencies : Json → Bool
  | .arr xs => xs.isEmpty
  | .str s => s = ""
  | .obj kvs => kvs.isEmpty
  | _ => false

/-- A step as `validate_plan` reads it, apart from its criteria; what it does not read is
left empty. -/
def ToolStep.planStep (step : ToolStep) : Step where
  id := step.id
  title := step.title
  description := ""
  payload := none
  dependsOn := []
  condition := step.condition
  ownerAgentId := none
  ownerAgentRole := none
  routeReason := none
  successCriteria := some defaultCriteria
  planVersion := step.planVersion.value.floor
  compatibilityTrace := none
  body := .tool step.toolName [] step.timeoutSeconds step.retryBudget step.retryOwner
    step.idempotencyKey

/-- `validate_plan` of the step alone. -/
def validateToolStep (step : ToolStep) : Except String Unit := do
  ensure (noDependencies step.dependsOn = true) "steps[0].depends_on contains an invalid id"
  validatePlan (fun _ => false) {} [step.planStep]
  ensure (step.successCriteria.valid step.id = true)
    ("step " ++ step.id ++ ".success_criteria is not a predicate")

/-! ## Writing and reading a step -/

/-- `json.dumps` with sorted keys. -/
def encode (floats : Floats) (value : Json) : String := dumps floats (sortKeys value)

def serializeToolStep (floats : Floats) (wide : String → String) (step : ToolStep) :
    Except String String := do
  ensure (step.planVersion.value = 2) "recovery_step_requires_typed_plan"
  ensure (step.condition.isNone = true ∧ step.dependsOn.truthy = false)
    "recovery_step_requires_independent_step"
  checkArgs wide 0 (.obj step.arguments)
  match validateToolStep step with
  | .error _ => .error "recovery_step_invalid"
  | .ok _ =>
    if maxRecoveryJsonBytes < (encode floats step.toDict).utf8ByteSize then
      .error "recovery_step_too_large"
    else .ok (encode floats step.toDict)

/-- The fields of a `ToolStep`. -/
def toolStepFields : List String :=
  ["id", "title", "kind", "description", "payload", "depends_on", "condition", "owner_agent_id",
    "owner_agent_role", "route_reason", "success_criteria", "plan_version",
    "compatibility_trace", "tool_name", "arguments", "timeout_seconds", "retry_budget",
    "retry_owner", "idempotency_key"]

def requiredFields : List String :=
  ["id", "title", "tool_name", "arguments", "timeout_seconds", "retry_budget", "retry_owner",
    "idempotency_key", "success_criteria"]

def requiredText (value : Option Json) (message : String) : Except String String :=
  match value with
  | some (.str s) => .ok s
  | _ => .error message

def requiredObject (value : Option Json) (message : String) :
    Except String (List (String × Json)) :=
  match value with
  | some (.obj kvs) => .ok kvs
  | _ => .error message

/-- An `int` that is required. -/
def requiredInt (value : Option Json) (message : String) : Except String ℤ :=
  match value with
  | some (.int n) => .ok n
  | _ => .error message

def numberOf : Option Json → Option PyNumber
  | some (.int n) => some (.int n)
  | some (.num q) => some (.float q)
  | _ => none

def criteriaOf : Option Json → Option Criteria
  | some .null => some defaultCriteriaDict
  | some (.obj kvs) => some (.dict kvs)
  | _ => none

def keyOf (id : String) : Option Json → Option String
  | some .null => some ("plan:" ++ id)
  | some (.str key) => some key
  | _ => none

/-- `ToolStep(**constructor)` of a document of version 2, and its validation. -/
def constructToolStep (kvs : List (String × Json)) (id title toolName : String)
    (arguments : List (String × Json)) (retryBudget : ℤ) : Option ToolStep := do
  guard ((kvs.lookup "payload").getD .null = .null)
  let criteria ← criteriaOf (kvs.lookup "success_criteria")
  let version ← numberOf (kvs.lookup "plan_version")
  let owner ← match kvs.lookup "retry_owner" with
    | some (.str owner) => some owner
    | _ => none
  let key ← keyOf id (kvs.lookup "idempotency_key")
  let step : ToolStep :=
    { id, title, toolName := some toolName, arguments, retryBudget
      description := (kvs.lookup "description").getD (.str "")
      payload := none
      dependsOn := (kvs.lookup "depends_on").getD (.arr [])
      condition := none
      ownerAgentId := (kvs.lookup "owner_agent_id").getD .null
      ownerAgentRole := (kvs.lookup "owner_agent_role").getD .null
      routeReason := (kvs.lookup "route_reason").getD .null
      successCriteria := criteria
      planVersion := version
      compatibilityTrace := (kvs.lookup "compatibility_trace").getD .null
      timeoutSeconds := numberOf (kvs.lookup "timeout_seconds")
      retryOwner := owner
      idempotencyKey := key
      legacy := fun h => nomatch h }
  match validateToolStep step with
  | .error _ => none
  | .ok _ => some step

/-- `deserialize_tool_step`, once the document is an object. -/
def readToolStep (wide : String → String) (kvs : List (String × Json)) :
    Except String ToolStep := do
  ensure (∀ key ∈ kvs.map Prod.fst, key ∈ toolStepFields) "recovery_step_unknown_field"
  ensure (kvs.lookup "kind" = some (.str "tool") ∧
    (kvs.lookup "plan_version").bind Json.number = some 2) "recovery_step_requires_typed_tool"
  ensure (∀ key ∈ requiredFields, (kvs.lookup key).isSome = true) "recovery_step_missing_field"
  let id ← requiredText (kvs.lookup "id") "recovery_step_invalid_identity"
  ensure (id ≠ "") "recovery_step_invalid_identity"
  let title ← requiredText (kvs.lookup "title") "recovery_step_invalid_identity"
  let toolName ← requiredText (kvs.lookup "tool_name") "recovery_step_invalid_tool_name"
  ensure (notBlank toolName) "recovery_step_invalid_tool_name"
  let arguments ← requiredObject (kvs.lookup "arguments") "recovery_step_invalid_arguments"
  let retryBudget ← requiredInt (kvs.lookup "retry_budget") "recovery_step_invalid_arguments"
  ensure (0 ≤ retryBudget) "recovery_step_invalid_arguments"
  ensure ((kvs.lookup "condition").getD .null = .null ∧
    ((kvs.lookup "depends_on").getD .null).truthy = false) "recovery_step_requires_independent_step"
  checkArgs wide 0 (.obj arguments)
  match constructToolStep kvs id title toolName arguments retryBudget with
  | none => .error "recovery_step_invalid"
  | some step => .ok step

def deserializeToolStep (floats : Floats) (wide : String → String) (document : String) :
    Except String ToolStep :=
  match loads floats document with
  | none => .error "recovery_step_invalid_json"
  | some (.obj kvs) => readToolStep wide kvs
  | some _ => .error "recovery_step_document_must_be_object"

/-! ## Sorted keys -/

section Sorted

variable {floats : Floats} {wide : String → String} {kvs : List (String × Json)} {j : Json}

theorem sortEntries_sorted (kvs : List (String × Json)) : sortEntries (sortEntries kvs) = sortEntries kvs := by
  unfold sortEntries
  exact (List.pairwise_insertionSort (fun a b : String × Json => a.1 ≤ b.1) kvs).insertionSort_eq

theorem sortKeys_sorted (j : Json) : sortKeys (sortKeys j) = sortKeys j := by
  induction j using Json.induction with
  | null | bool | int | num | str => simp only [sortKeys]
  | arr xs ih =>
    rw [sortKeys_arr, sortKeys_arr, List.map_map]
    exact congrArg Json.arr (List.map_congr_left ih)
  | obj kvs ih =>
    have hvalues : (kvs.map (fun e => (e.1, sortKeys e.2))).map (fun e => (e.1, sortKeys e.2)) =
        kvs.map (fun e => (e.1, sortKeys e.2)) := by
      rw [List.map_map]
      exact List.map_congr_left fun e he => Prod.ext rfl (ih e he)
    rw [sortKeys_obj, sortKeys_obj, sortEntries_map, hvalues, sortEntries_sorted]

theorem lookup_sorted (hnodup : (kvs.map Prod.fst).Nodup) (k : String) :
    (sortEntries (sortKeysEntries kvs)).lookup k = (kvs.lookup k).map sortKeys := by
  have hkeys : ((sortKeysEntries kvs).map Prod.fst).Nodup := by
    rw [keys_sortKeysEntries]
    exact hnodup
  have hsorted : (sortEntries (sortKeysEntries kvs)).lookup k = (sortKeysEntries kvs).lookup k :=
    lookup_perm hkeys (List.perm_insertionSort _ _)
  rw [hsorted, lookup_sortKeysEntries]

theorem keys_sorted (kvs : List (String × Json)) :
    ((sortEntries (sortKeysEntries kvs)).map Prod.fst).Perm (kvs.map Prod.fst) := by
  have hperm : (sortEntries (sortKeysEntries kvs)).Perm (sortKeysEntries kvs) :=
    List.perm_insertionSort _ _
  have hkeys := hperm.map Prod.fst
  rw [keys_sortKeysEntries] at hkeys
  exact hkeys

theorem distinct_sorted (h : distinctKeys j = true) : distinctKeys (sortKeys j) = true := by
  induction j using Json.induction with
  | null | bool | int | num | str =>
    simp only [sortKeys]
    exact h
  | arr xs ih =>
    rw [sortKeys_arr, distinct_arr]
    intro y hy
    obtain ⟨x, hx, rfl⟩ := List.mem_map.mp hy
    exact ih x hx (distinct_arr.mp h x hx)
  | obj kvs ih =>
    obtain ⟨hnodup, hvalues⟩ := distinct_obj.mp h
    rw [sortKeys, distinct_obj]
    refine ⟨(keys_sorted kvs).nodup_iff.mpr hnodup, fun e he => ?_⟩
    have hmem : e ∈ sortKeysEntries kvs := (List.perm_insertionSort _ _).mem_iff.mp he
    rw [sortKeysEntries_map] at hmem
    obtain ⟨x, hx, rfl⟩ := List.mem_map.mp hmem
    exact ih x hx (hvalues x hx)

end Sorted

/-! ## Checks do not see the order of keys -/

section Checks

variable {wide : String → String} {known keys keys' : List String} {j : Json}

theorem truthy_sorted (j : Json) : (sortKeys j).truthy = j.truthy := by
  cases j with
  | null | bool | int | num | str => simp only [sortKeys]
  | arr xs => cases xs <;> simp only [sortKeys, sortKeysList, Json.truthy, List.isEmpty]
  | obj kvs =>
    have hlength : (sortEntries (sortKeysEntries kvs)).length = kvs.length := by
      rw [sortKeysEntries_map]
      unfold sortEntries
      rw [List.length_insertionSort, List.length_map]
    have hempty : (sortEntries (sortKeysEntries kvs)).isEmpty = kvs.isEmpty := by
      rw [Bool.eq_iff_iff, List.isEmpty_iff_length_eq_zero, List.isEmpty_iff_length_eq_zero, hlength]
    rw [sortKeys]
    exact congrArg not hempty

theorem checkArgs_obj {depth : ℕ} {kvs : List (String × Json)} :
    checkArgs wide depth (.obj kvs) = .ok () ↔ depth ≤ 8 ∧ kvs.length ≤ 128 ∧
      ∀ e ∈ kvs, e.1.length ≤ 128 ∧ secretKey wide e.1 = false ∧
        checkArgs wide (depth + 1) e.2 = .ok () := by
  have hentries : ∀ es : List (String × Json), checkEntries wide depth es = .ok () ↔
      ∀ e ∈ es, e.1.length ≤ 128 ∧ secretKey wide e.1 = false ∧
        checkArgs wide (depth + 1) e.2 = .ok () := by
    intro es
    induction es with
    | nil => exact ⟨fun _ _ he => absurd he List.not_mem_nil, fun _ => rfl⟩
    | cons e es ih =>
      obtain ⟨key, child⟩ := e
      rw [checkEntries, List.forall_mem_cons, ← ih]
      by_cases hlong : 128 < key.length
      · rw [if_pos hlong]
        exact ⟨fun h => (nomatch h), fun h => absurd h.1.1 (Nat.not_le_of_lt hlong)⟩
      · rw [if_neg hlong]
        cases hsecret : secretKey wide key with
        | true =>
          rw [if_pos rfl]
          exact ⟨fun h => (nomatch h), fun h => absurd h.1.2.1 (by decide)⟩
        | false =>
          rw [if_neg Bool.false_ne_true]
          cases hchild : checkArgs wide (depth + 1) child with
          | error message => exact ⟨fun h => (nomatch h), fun h => (nomatch h.1.2.2)⟩
          | ok _ => exact ⟨fun h => ⟨⟨Nat.le_of_not_lt hlong, rfl, rfl⟩, h⟩, fun h => h.2⟩
  rw [checkArgs]
  by_cases hdeep : 8 < depth
  · rw [if_pos hdeep]
    exact ⟨fun h => (nomatch h), fun h => absurd h.1 (by omega)⟩
  · rw [if_neg hdeep]
    by_cases hlarge : 128 < kvs.length
    · rw [if_pos hlarge]
      exact ⟨fun h => (nomatch h), fun h => absurd h.2.1 (by omega)⟩
    · rw [if_neg hlarge, hentries]
      exact ⟨fun h => ⟨Nat.le_of_not_lt hdeep, Nat.le_of_not_lt hlarge, h⟩, fun h => h.2.2⟩

theorem checkArgs_arr {depth : ℕ} {xs : List Json} :
    checkArgs wide depth (.arr xs) = .ok () ↔ depth ≤ 8 ∧ xs.length ≤ 128 ∧
      ∀ x ∈ xs, checkArgs wide (depth + 1) x = .ok () := by
  have hitems : ∀ ys : List Json, checkItems wide depth ys = .ok () ↔
      ∀ y ∈ ys, checkArgs wide (depth + 1) y = .ok () := by
    intro ys
    induction ys with
    | nil => exact ⟨fun _ _ hy => absurd hy List.not_mem_nil, fun _ => rfl⟩
    | cons y ys ih =>
      rw [checkItems, List.forall_mem_cons, ← ih]
      cases hchild : checkArgs wide (depth + 1) y with
      | error message => exact ⟨fun h => (nomatch h), fun h => (nomatch h.1)⟩
      | ok _ => exact ⟨fun h => ⟨rfl, h⟩, fun h => h.2⟩
  rw [checkArgs]
  by_cases hdeep : 8 < depth
  · rw [if_pos hdeep]
    exact ⟨fun h => (nomatch h), fun h => absurd h.1 (by omega)⟩
  · rw [if_neg hdeep]
    by_cases hlarge : 128 < xs.length
    · rw [if_pos hlarge]
      exact ⟨fun h => (nomatch h), fun h => absurd h.2.1 (by omega)⟩
    · rw [if_neg hlarge, hitems]
      exact ⟨fun h => ⟨Nat.le_of_not_lt hdeep, Nat.le_of_not_lt hlarge, h⟩, fun h => h.2.2⟩

theorem checkArgs_sorted {depth : ℕ} (h : checkArgs wide depth j = .ok ()) :
    checkArgs wide depth (sortKeys j) = .ok () := by
  induction j using Json.induction generalizing depth with
  | null | bool | int | num | str =>
    simp only [sortKeys]
    exact h
  | arr xs ih =>
    obtain ⟨hdepth, hlength, hitems⟩ := checkArgs_arr.mp h
    rw [sortKeys_arr, checkArgs_arr, List.length_map]
    refine ⟨hdepth, hlength, fun y hy => ?_⟩
    obtain ⟨x, hx, rfl⟩ := List.mem_map.mp hy
    exact ih x hx (hitems x hx)
  | obj kvs ih =>
    obtain ⟨hdepth, hlength, hentries⟩ := checkArgs_obj.mp h
    have hperm : (sortEntries (kvs.map (fun e => (e.1, sortKeys e.2)))).Perm
        (kvs.map (fun e => (e.1, sortKeys e.2))) := List.perm_insertionSort _ _
    rw [sortKeys_obj, checkArgs_obj, hperm.length_eq, List.length_map]
    refine ⟨hdepth, hlength, fun y hy => ?_⟩
    obtain ⟨e, he, rfl⟩ := List.mem_map.mp (hperm.mem_iff.mp hy)
    obtain ⟨hkey, hsecret, hvalue⟩ := hentries e he
    exact ⟨hkey, hsecret, ih e he hvalue⟩

theorem optionalTextOf_sorted (v : Option Json) : optionalTextOf (v.map sortKeys) = optionalTextOf v := by
  cases v with
  | none => rfl
  | some v => cases v <;> simp only [Option.map_some, sortKeys, optionalTextOf]

theorem textItems_sorted (xs : List Json) : textItems (xs.map sortKeys) = textItems xs := by
  induction xs with
  | nil => rfl
  | cons x xs ih => cases x <;> simp only [List.map_cons, sortKeys, textItems, ih]

theorem textsOf_sorted (v : Option Json) : textsOf (v.map sortKeys) = textsOf v := by
  cases v with
  | none => rfl
  | some v =>
    cases v with
    | arr xs =>
      rw [Option.map_some, sortKeys_arr]
      exact textItems_sorted xs
    | null | bool | int | num | str | obj => simp only [Option.map_some, sortKeys, textsOf]

theorem nonemptyList_sorted (v : Option Json) : nonemptyList (v.map sortKeys) = nonemptyList v := by
  cases v with
  | none => rfl
  | some v =>
    cases v with
    | arr xs => cases xs <;> simp only [Option.map_some, sortKeys, sortKeysList, nonemptyList, List.isEmpty]
    | null | bool | int | num | str | obj => simp only [Option.map_some, sortKeys, nonemptyList]

theorem checkNode_sorted (hkeys : keys.Perm keys') (op source values children : Option Json) :
    checkNode known keys (op.map sortKeys) (source.map sortKeys) (values.map sortKeys)
      (children.map sortKeys) = checkNode known keys' op source values children := by
  have hop : ∀ s : String, op.map sortKeys = some (.str s) ↔ op = some (.str s) := by
    intro s
    cases op with
    | none => exact ⟨fun h => (nomatch h), fun h => (nomatch h)⟩
    | some v => cases v <;> simp [sortKeys]
  have hall : ∀ p : String → Bool, keys.all p = keys'.all p := fun p => hkeys.all_eq
  have htruthy : ((children.map sortKeys).getD .null).truthy = (children.getD .null).truthy := by
    cases children with
    | none => rfl
    | some v => exact truthy_sorted v
  unfold checkNode
  rw [optionalTextOf_sorted, textsOf_sorted, nonemptyList_sorted, htruthy]
  cases op with
  | none => rfl
  | some v =>
    cases v <;> simp only [Option.map_some, sortKeys, hall]

theorem validateEntries_map (known : List String) (kvs : List (String × Json)) :
    validateEntries known kvs = kvs.map (fun e => (e.1, validateChildren known e.2)) := by
  induction kvs with
  | nil => rfl
  | cons e kvs ih => rw [validateEntries, List.map_cons, ih]

theorem validateItems_iff {xs : List Json} :
    validateItems known xs = true ↔ ∀ x ∈ xs, validateDict known x = true := by
  induction xs with
  | nil => exact ⟨fun _ _ hx => absurd hx List.not_mem_nil, fun _ => rfl⟩
  | cons x xs ih => rw [validateItems, Bool.and_eq_true, ih, List.forall_mem_cons]

theorem lookup_map {β γ : Type} {f : β → γ} (kvs : List (String × β)) (k : String) :
    (kvs.map (fun e => (e.1, f e.2))).lookup k = (kvs.lookup k).map f := by
  induction kvs with
  | nil => rfl
  | cons e kvs ih =>
    rw [List.map_cons, List.lookup_cons, List.lookup_cons, ih]
    split <;> rfl

theorem validateDict_obj (kvs : List (String × Json)) : validateDict known (.obj kvs) =
    (checkNode known (kvs.map Prod.fst) (kvs.lookup "op") (kvs.lookup "source_step_id")
      (kvs.lookup "values") (kvs.lookup "children") &&
    ((kvs.lookup "children").map (validateChildren known)).getD true) := by
  rw [validateDict, validateEntries_map, lookup_map]

theorem validate_sorted (h : distinctKeys j = true) :
    validateDict known (sortKeys j) = validateDict known j ∧
      validateChildren known (sortKeys j) = validateChildren known j := by
  induction j using Json.induction with
  | null | bool | int | num | str => simp only [sortKeys, and_self]
  | arr xs ih =>
    rw [sortKeys_arr]
    refine ⟨by rw [validateDict, validateDict] <;> simp, ?_⟩
    rw [validateChildren, validateChildren, Bool.eq_iff_iff, validateItems_iff, validateItems_iff]
    constructor
    · intro hall x hx
      rw [← (ih x hx (distinct_arr.mp h x hx)).1]
      exact hall _ (List.mem_map.mpr ⟨x, hx, rfl⟩)
    · intro hall y hy
      obtain ⟨x, hx, rfl⟩ := List.mem_map.mp hy
      rw [(ih x hx (distinct_arr.mp h x hx)).1]
      exact hall x hx
  | obj kvs ih =>
    obtain ⟨hnodup, hvalues⟩ := distinct_obj.mp h
    have hchildren : ((kvs.lookup "children").map sortKeys).map (validateChildren known) =
        (kvs.lookup "children").map (validateChildren known) := by
      cases hlookup : kvs.lookup "children" with
      | none => rfl
      | some v =>
        have hmem := (lookup_iff_mem hnodup).mp hlookup
        exact congrArg some (ih _ hmem (hvalues _ hmem)).2
    have hlength : (sortEntries (sortKeysEntries kvs)).length = kvs.length := by
      have hperm := (keys_sorted kvs).length_eq
      rwa [List.length_map, List.length_map] at hperm
    rw [sortKeys]
    constructor
    · rw [validateDict_obj, validateDict_obj, lookup_sorted hnodup, lookup_sorted hnodup,
        lookup_sorted hnodup, lookup_sorted hnodup, checkNode_sorted (keys_sorted kvs), hchildren]
    · rw [validateChildren, validateChildren, Bool.eq_iff_iff, List.isEmpty_iff_length_eq_zero,
        List.isEmpty_iff_length_eq_zero, hlength]

theorem textItems_texts (values : List String) : textItems (values.map .str) = some values := by
  induction values with
  | nil => rfl
  | cons value values ih => rw [List.map_cons, textItems, ih, Option.map_some]

theorem validatePredicates_iff {path : String} {implicit : Bool} {index : ℕ} {ps : List Predicate}
    (h : validatePredicates path known implicit index ps = .ok ()) :
    ∀ p ∈ ps, ∃ path', validatePredicate path' known implicit p = .ok () := by
  induction ps generalizing index with
  | nil => exact fun _ hp => absurd hp List.not_mem_nil
  | cons p ps ih =>
    rw [validatePredicates, bind_ok] at h
    obtain ⟨_, hp, hps⟩ := h
    exact List.forall_mem_cons.mpr ⟨⟨_, hp⟩, ih hps⟩

theorem checkNode_read {op : String} {source values children : Option Json} {source' : Option String}
    {values' : List String} (hsource : optionalTextOf source = some source')
    (hvalues : textsOf values = some values') :
    checkNode known keys (some (.str op)) source values children =
      (keys.all (fun key => key ∈ ["op", "source_step_id", "values", "children"]) &&
        decide (op ∈ predicateOperators) &&
        if op ∈ combinators then decide (source' = none ∧ values' = []) && nonemptyList children
        else !(children.getD .null).truthy && decide (values' ≠ []) &&
          decide (source'.getD "" = "" ∨ source'.getD "" ∈ known)) := by
  unfold checkNode
  rw [hsource, hvalues]

theorem validate_node {path : String} {p : Predicate} (h : validatePredicate path known true p = .ok ()) :
    validateDict known p.toDict = true := by
  induction p using Predicate.induction generalizing path with
  | intro op source values children ih =>
    rw [validatePredicate, ensure_bind] at h
    obtain ⟨hop, hrest⟩ := h
    obtain ⟨hlookop, hlooksource, hlookvalues, hlookchildren⟩ :=
      lookup_dictEntries ⟨op, source, values, children⟩
    dsimp only at hlookop hlooksource hlookvalues hlookchildren
    have hkeys : ((dictEntries ⟨op, source, values, children⟩).map Prod.fst).all
        (fun key => key ∈ ["op", "source_step_id", "values", "children"]) = true := by
      unfold dictEntries
      split <;> split <;> split <;> simp
    have htexts : textsOf (if values = [] then none else some (textsJson values)) = some values := by
      split
      · rename_i hnil
        rw [hnil]
        rfl
      · exact textItems_texts values
    have hitems : ∀ hchildren : ∀ c ∈ children, ∃ path', validatePredicate path' known true c = .ok (),
        (((if children.isEmpty = true then none else some (Json.arr (children.map Predicate.toDict))).map
          (validateChildren known)).getD true) = true := by
      intro hchildren
      split
      · rfl
      · show validateChildren known (.arr _) = true
        rw [validateChildren, validateItems_iff]
        intro x hx
        obtain ⟨c, hc, rfl⟩ := List.mem_map.mp hx
        obtain ⟨path', hpath⟩ := hchildren c hc
        exact ih c hc hpath
    have hsource : optionalTextOf (if source.getD "" = "" then none else some (.str (source.getD ""))) =
        some (if source.getD "" = "" then none else some (source.getD "")) := by
      split <;> rfl
    rw [toDict_eq, validateDict_obj, hlookop, hlooksource, hlookvalues, hlookchildren,
      checkNode_read hsource htexts, hkeys, decide_eq_true hop, Bool.true_and, Bool.true_and]
    dsimp only at hrest
    by_cases hcombinator : op ∈ combinators
    · rw [if_pos hcombinator, ensure_bind, ensure_bind] at hrest
      obtain ⟨⟨rfl, rfl⟩, hsome, hchildren⟩ := hrest
      rw [hitems (validatePredicates_iff hchildren), if_pos hcombinator, hsome]
      cases children with
      | nil => cases hsome
      | cons c children => rfl
    · rw [if_neg hcombinator, ensure_bind, ensure_bind, ensure_bind, ensure_bind] at hrest
      obtain ⟨hnone, -, hnonempty, hknown, hchildren⟩ := hrest
      rw [hitems (validatePredicates_iff hchildren), if_neg hcombinator, hnone, if_pos rfl,
        decide_eq_true hnonempty]
      by_cases hblank : source.getD "" = ""
      · rw [if_pos hblank]
        rfl
      · rw [if_neg hblank, Option.getD_some, decide_eq_true (Or.inr (hknown.resolve_left hblank))]
        rfl

end Checks

/-! ## Steps -/

section Steps

variable {floats : Floats} {wide : String → String} {step : ToolStep}

theorem dictForm_obj (c : Criteria) : ∃ kvs, c.dictForm = .obj kvs := by
  cases c with
  | node p => exact toDict_obj p
  | dict kvs => exact ⟨kvs, rfl⟩

theorem Criteria.valid_stored {c : Criteria} {id : String} {kvs : List (String × Json)}
    (hkvs : c.dictForm = .obj kvs) (hdistinct : distinctKeys (.obj kvs) = true) (h : c.valid id = true) :
    (Criteria.dict (sortEntries (sortKeysEntries kvs))).valid id = true := by
  have hvalid : validateDict [id] (.obj kvs) = true := by
    cases c with
    | node p =>
      cases hp : validatePredicate ("step " ++ id ++ ".success_criteria") [id] true p with
      | error message =>
        rw [Criteria.valid, hp] at h
        cases h
      | ok _ =>
        rw [← hkvs]
        exact validate_node hp
    | dict entries =>
      obtain rfl := Json.obj.inj hkvs
      exact h
  have hsorted : validateDict [id] (sortKeys (.obj kvs)) = validateDict [id] (.obj kvs) :=
    (validate_sorted hdistinct).1
  rw [sortKeys] at hsorted
  exact hsorted.trans hvalid

/-- What is checked of a step before it is stored. -/
structure Storable (wide : String → String) (step : ToolStep) : Prop where
  version : step.planVersion.value = 2
  condition : step.condition = none
  payload : step.payload = none
  truthy : step.dependsOn.truthy = false
  noDependencies : noDependencies step.dependsOn = true
  arguments : checkArgs wide 0 (.obj step.arguments) = .ok ()
  plan : validatePlan (fun _ => false) {} [step.planStep] = .ok ()
  criteria : step.successCriteria.valid step.id = true

theorem validateToolStep_ok : validateToolStep step = .ok () ↔ noDependencies step.dependsOn = true ∧
    validatePlan (fun _ => false) {} [step.planStep] = .ok () ∧ step.successCriteria.valid step.id = true := by
  unfold validateToolStep
  rw [ensure_bind]
  constructor
  · intro ⟨hnone, hrest⟩
    obtain ⟨_, hplan, hcriteria⟩ := bind_ok.mp hrest
    refine ⟨hnone, hplan, ?_⟩
    unfold ensure at hcriteria
    by_contra hinvalid
    rw [if_neg hinvalid] at hcriteria
    cases hcriteria
  · intro ⟨hnone, hplan, hcriteria⟩
    refine ⟨hnone, bind_ok.mpr ⟨(), hplan, ?_⟩⟩
    exact if_pos hcriteria

theorem serializeToolStep_ok {document : String} : serializeToolStep floats wide step = .ok document ↔
    Storable wide step ∧ document = encode floats step.toDict ∧
      (encode floats step.toDict).utf8ByteSize ≤ maxRecoveryJsonBytes := by
  unfold serializeToolStep
  rw [ensure_bind, ensure_bind]
  constructor
  · intro ⟨hversion, ⟨hcondition, htruthy⟩, hrest⟩
    obtain ⟨_, hargs, hrest⟩ := bind_ok.mp hrest
    cases hvalidate : validateToolStep step with
    | error message =>
      rw [hvalidate] at hrest
      cases hrest
    | ok u =>
      rw [hvalidate] at hrest
      dsimp only at hrest
      obtain ⟨hnone, hplan, hcriteria⟩ := validateToolStep_ok.mp hvalidate
      have hpayload : step.payload = none := by
        cases hp : step.payload with
        | none => rfl
        | some kvs =>
          have hone := step.legacy (by rw [hp]; rfl)
          rw [hversion] at hone
          exact absurd hone (by decide)
      split at hrest
      · cases hrest
      · rename_i hsize
        refine ⟨⟨hversion, Option.isNone_iff_eq_none.mp hcondition, hpayload, htruthy, hnone, hargs, hplan,
          hcriteria⟩, (Except.ok.inj hrest).symm, Nat.le_of_not_lt hsize⟩
  · intro ⟨h, hdocument, hsize⟩
    refine ⟨h.version, ⟨by rw [h.condition]; rfl, h.truthy⟩, bind_ok.mpr ⟨(), h.arguments, ?_⟩⟩
    have hvalidate := validateToolStep_ok.mpr ⟨h.noDependencies, h.plan, h.criteria⟩
    rw [hvalidate, hdocument]
    exact if_neg (Nat.not_lt.mpr hsize)

theorem Storable.fields (h : Storable wide step) : step.id ≠ "" ∧
    (∃ name, step.toolName = some name ∧ notBlank name) ∧ 0 ≤ step.retryBudget ∧
      step.timeoutSeconds.isSome = true := by
  have hplan := h.plan
  have hversion : 2 ≤ step.planVersion.value.floor := by
    rw [h.version]
    decide
  unfold validatePlan at hplan
  obtain ⟨_, -, hplan⟩ := bind_ok.mp hplan
  obtain ⟨_, hsteps, -⟩ := bind_ok.mp hplan
  unfold checkSteps at hsteps
  dsimp only at hsteps
  rw [ensure_bind, ensure_bind, bind_ok] at hsteps
  obtain ⟨⟨hid, -⟩, -, _, hbody, -⟩ := hsteps
  unfold checkBody ToolStep.planStep at hbody
  dsimp only at hbody
  rw [ensure_bind, ensure_bind, ensure_bind] at hbody
  obtain ⟨hname, hbudget, -, hbody⟩ := hbody
  rw [if_pos hversion, ensure_bind, ensure_bind] at hbody
  obtain ⟨hnamed, htimeout, -⟩ := hbody
  refine ⟨hid, ?_, hbudget, htimeout⟩
  cases hname' : step.toolName with
  | none =>
    rw [hname'] at hnamed
    exact absurd rfl hnamed
  | some name => exact ⟨name, rfl, hname name hname'⟩

/-- A step as it comes back: its dictionaries have sorted keys, its criteria are the
dictionary `criteria`. -/
def ToolStep.reread (step : ToolStep) (criteria : List (String × Json)) : ToolStep :=
  { step with
    description := sortKeys step.description
    payload := none
    dependsOn := sortKeys step.dependsOn
    condition := none
    ownerAgentId := sortKeys step.ownerAgentId
    ownerAgentRole := sortKeys step.ownerAgentRole
    routeReason := sortKeys step.routeReason
    successCriteria := .dict (sortEntries (sortKeysEntries criteria))
    compatibilityTrace := sortKeys step.compatibilityTrace
    arguments := sortEntries (sortKeysEntries step.arguments)
    legacy := fun h => nomatch h }

theorem noDependencies_sorted (j : Json) : noDependencies (sortKeys j) = noDependencies j := by
  have htruthy := truthy_sorted j
  cases j with
  | null | bool | int | num | str => simp only [sortKeys]
  | arr xs | obj xs =>
    rw [sortKeys] at htruthy ⊢
    exact Bool.not_inj htruthy

theorem Storable.reread (h : Storable wide step) {criteria : List (String × Json)}
    (hcriteria : step.successCriteria.dictForm = .obj criteria)
    (hdistinct : distinctKeys (.obj criteria) = true) : Storable wide (step.reread criteria) where
  version := h.version
  condition := rfl
  payload := rfl
  truthy := (truthy_sorted _).trans h.truthy
  noDependencies := (noDependencies_sorted _).trans h.noDependencies
  arguments := by
    have hsorted := checkArgs_sorted h.arguments
    rw [sortKeys] at hsorted
    exact hsorted
  plan := by
    have hsame : (step.reread criteria).planStep = step.planStep := by
      unfold ToolStep.planStep ToolStep.reread
      rw [h.condition]
    rw [hsame]
    exact h.plan
  criteria := Criteria.valid_stored hcriteria hdistinct h.criteria

theorem Storable.reread_toDict (h : Storable wide step) {criteria : List (String × Json)}
    (hcriteria : step.successCriteria.dictForm = .obj criteria) :
    sortKeys (step.reread criteria).toDict = sortKeys step.toDict := by
  have hsorted : ∀ kvs, sortKeys (.obj (sortEntries (sortKeysEntries kvs))) = sortKeys (.obj kvs) := by
    intro kvs
    have hobj : sortKeys (.obj kvs) = .obj (sortEntries (sortKeysEntries kvs)) := by rw [sortKeys]
    rw [← hobj]
    exact sortKeys_sorted _
  have hentries : sortKeysEntries (step.reread criteria).entries = sortKeysEntries step.entries := by
    have hform : (Criteria.dict (sortEntries (sortKeysEntries criteria))).dictForm =
        .obj (sortEntries (sortKeysEntries criteria)) := rfl
    unfold ToolStep.entries
    simp only [sortKeysEntries, ToolStep.reread, sortKeys_sorted, hform, hsorted, hcriteria, h.condition,
      h.payload, Option.map_none, Option.getD_none]
  unfold ToolStep.toDict
  rw [sortKeys, sortKeys, hentries]

theorem numberOf_json (n : PyNumber) : numberOf (some (sortKeys n.json)) = some n := by
  cases n <;> simp only [PyNumber.json, sortKeys, numberOf]

theorem nodup_toolStepFields : toolStepFields.Nodup := by decide

theorem Storable.read (h : Storable wide step) {criteria : List (String × Json)}
    (hcriteria : step.successCriteria.dictForm = .obj criteria)
    (hdistinct : distinctKeys (.obj criteria) = true) :
    readToolStep wide (sortEntries (sortKeysEntries step.entries)) = .ok (step.reread criteria) := by
  obtain ⟨kvs, hkvs⟩ : ∃ kvs, sortEntries (sortKeysEntries step.entries) = kvs := ⟨_, rfl⟩
  have hnodup : (step.entries.map Prod.fst).Nodup := nodup_toolStepFields
  have hget : ∀ {k : String} {v : Json}, step.entries.lookup k = some v → kvs.lookup k = some (sortKeys v) := by
    intro k v hv
    rw [← hkvs, lookup_sorted hnodup, hv]
    rfl
  have htext : ∀ {k s : String}, step.entries.lookup k = some (.str s) → kvs.lookup k = some (.str s) := by
    intro k s hs
    rw [hget hs, sortKeys]
  have hnull : ∀ {k : String}, step.entries.lookup k = some .null → kvs.lookup k = some .null := by
    intro k hk
    rw [hget hk, sortKeys]
  obtain ⟨hid, ⟨name, hname, hblank⟩, hbudget, htimeout⟩ := h.fields
  have hkeys : (kvs.map Prod.fst).Perm toolStepFields := hkvs ▸ keys_sorted step.entries
  have hversion : kvs.lookup "plan_version" = some (sortKeys step.planVersion.json) := hget rfl
  have hcondition : kvs.lookup "condition" = some .null := by
    apply hnull
    show some ((step.condition.map StepCondition.asDict).getD .null) = _
    rw [h.condition]
    rfl
  have hpayload : kvs.lookup "payload" = some .null := by
    apply hnull
    show some (optionalObject step.payload) = _
    rw [h.payload]
    rfl
  have htool : kvs.lookup "tool_name" = some (.str name) := by
    apply htext
    show some (optionalText step.toolName) = _
    rw [hname]
    rfl
  have hdepends : kvs.lookup "depends_on" = some (sortKeys step.dependsOn) := hget rfl
  have hargs : kvs.lookup "arguments" = some (.obj (sortEntries (sortKeysEntries step.arguments))) := by
    rw [hget (v := .obj step.arguments) rfl, sortKeys]
  have hretries : kvs.lookup "retry_budget" = some (.int step.retryBudget) := by
    rw [hget (v := .int step.retryBudget) rfl, sortKeys]
  have hsuccess : kvs.lookup "success_criteria" = some (.obj (sortEntries (sortKeysEntries criteria))) := by
    rw [hget (v := step.successCriteria.dictForm) rfl, hcriteria, sortKeys]
  have hseconds : numberOf (kvs.lookup "timeout_seconds") = step.timeoutSeconds := by
    rw [hget (v := (step.timeoutSeconds.map PyNumber.json).getD .null) rfl]
    cases hsome : step.timeoutSeconds with
    | none =>
      rw [hsome] at htimeout
      cases htimeout
    | some n => exact numberOf_json n
  have hstored := h.reread hcriteria hdistinct
  -- the step that is built is the one that was stored
  have hbuilt : constructToolStep kvs step.id step.title name (sortEntries (sortKeysEntries step.arguments))
      step.retryBudget = some (step.reread criteria) := by
    have hvalidate : validateToolStep (step.reread criteria) = .ok () :=
      validateToolStep_ok.mpr ⟨hstored.noDependencies, hstored.plan, hstored.criteria⟩
    have hsame : step.reread criteria = { step.reread criteria with toolName := some name } := by
      unfold ToolStep.reread
      rw [hname]
    unfold constructToolStep
    rw [hpayload, hsuccess, hversion, numberOf_json, hseconds, hdepends, htext (k := "retry_owner") rfl,
      htext (k := "idempotency_key") rfl, hget (k := "description") rfl, hget (k := "owner_agent_id") rfl,
      hget (k := "owner_agent_role") rfl, hget (k := "route_reason") rfl,
      hget (k := "compatibility_trace") rfl]
    show (match validateToolStep { step.reread criteria with toolName := some name } with
      | .error _ => none
      | .ok _ => some { step.reread criteria with toolName := some name }) = _
    rw [← hsame, hvalidate]
  rw [hkvs]
  unfold readToolStep
  refine ensure_bind.mpr ⟨fun key hkey => hkeys.mem_iff.mp hkey, ensure_bind.mpr ⟨⟨htext rfl, ?_⟩,
    ensure_bind.mpr ⟨?_, ?_⟩⟩⟩
  · rw [hversion, Option.bind_some]
    have hvalue := h.version
    cases hnumber : step.planVersion <;> rw [hnumber] at hvalue <;>
      simpa only [PyNumber.json, sortKeys, Json.number, PyNumber.value, Option.some.injEq] using hvalue
  · intro key hkey
    have hmem : key ∈ kvs.map Prod.fst := by
      rw [hkeys.mem_iff]
      revert key
      decide
    obtain ⟨e, he, rfl⟩ := List.mem_map.mp hmem
    rw [Option.isSome_iff_ne_none]
    intro hnone
    have hdiffer := List.lookup_eq_none_iff.mp hnone e he
    rw [bne_self_eq_false] at hdiffer
    cases hdiffer
  · refine bind_ok.mpr ⟨step.id, by rw [htext rfl]; rfl, ensure_bind.mpr ⟨hid, ?_⟩⟩
    refine bind_ok.mpr ⟨step.title, by rw [htext rfl]; rfl, ?_⟩
    refine bind_ok.mpr ⟨name, by rw [htool]; rfl, ensure_bind.mpr ⟨hblank, ?_⟩⟩
    refine bind_ok.mpr ⟨sortEntries (sortKeysEntries step.arguments), by rw [hargs]; rfl, ?_⟩
    refine bind_ok.mpr ⟨step.retryBudget, by rw [hretries]; rfl, ensure_bind.mpr ⟨hbudget, ?_⟩⟩
    refine ensure_bind.mpr ⟨⟨by rw [hcondition]; rfl, by rw [hdepends]; exact hstored.truthy⟩, ?_⟩
    refine bind_ok.mpr ⟨(), hstored.arguments, ?_⟩
    rw [hbuilt]

theorem step_round_trip {document : String} (hdistinct : distinctKeys step.toDict = true)
    (h : serializeToolStep floats wide step = .ok document) :
    ∃ step', deserializeToolStep floats wide document = .ok step' ∧ alike step'.toDict step.toDict ∧
      serializeToolStep floats wide step' = .ok document := by
  obtain ⟨hstorable, hdocument, hsize⟩ := serializeToolStep_ok.mp h
  obtain ⟨criteria, hcriteria⟩ := dictForm_obj step.successCriteria
  have hentries : ∀ e ∈ step.entries, distinctKeys e.2 = true := (distinct_obj.mp hdistinct).2
  have hform : distinctKeys (.obj criteria) = true := by
    have hnodup : (step.entries.map Prod.fst).Nodup := nodup_toolStepFields
    have hmem : ("success_criteria", step.successCriteria.dictForm) ∈ step.entries :=
      (lookup_iff_mem hnodup).mp rfl
    rw [← hcriteria]
    exact hentries _ hmem
  have hsame := hstorable.reread_toDict hcriteria
  have hencoded : encode floats (step.reread criteria).toDict = encode floats step.toDict :=
    congrArg (dumps floats) hsame
  refine ⟨step.reread criteria, ?_, hsame, ?_⟩
  · have hsorted : sortKeys step.toDict = .obj (sortEntries (sortKeysEntries step.entries)) := by
      unfold ToolStep.toDict
      rw [sortKeys]
    unfold deserializeToolStep
    rw [hdocument]
    unfold encode
    rw [loads_dumps (distinct_sorted hdistinct), hsorted]
    exact hstorable.read hcriteria hform
  · rw [serializeToolStep_ok, hencoded]
    exact ⟨hstorable.reread hcriteria hform, hdocument, hsize⟩

end Steps

/-! ## Snapshots -/

/-- Snapshots as JSON text; steps are written and read as given. -/
def textCodec (floats : Floats) (wide : String → String) (serializeStep : Step → Except String String)
    (deserializeStep : String → Except String Step) : RecoveryCodec where
  serializeStep := serializeStep
  deserializeStep := deserializeStep
  dumps := fun value => .ok (encode floats value)
  loads := fun document => match loads floats document with
    | some value => .ok value
    | none => .error "not strict JSON"
  wide := wide

section Snapshots

variable {floats : Floats} {wide : String → String} {serializeStep : Step → Except String String}
  {deserializeStep : String → Except String Step}

theorem serializeSnapshot_some {label : String} {value : Json} {document : Option String}
    (hnull : value ≠ .null) : serializeSnapshot (textCodec floats wide serializeStep deserializeStep) label
        (some value) = .ok document ↔
      (label = "context" → isObject value = true) ∧ checkArgs wide 0 value = .ok () ∧
        (encode floats value).utf8ByteSize ≤ maxRecoveryJsonBytes ∧ document = some (encode floats value) := by
  have hcontext : (label = "context" ∧ isObject value = false) ↔ ¬ (label = "context" → isObject value = true) := by
    rw [Classical.not_imp, Bool.not_eq_true]
  unfold serializeSnapshot
  split
  · rename_i heq
    cases heq
  · rename_i heq
    exact absurd (Option.some.inj heq) hnull
  · rename_i value' _ heq
    obtain rfl := Option.some.inj heq
    by_cases hobject : label = "context" → isObject value = true
    · rw [if_neg (fun h => hcontext.mp h hobject)]
      show (match checkArgs wide 0 value with
        | .error message => .error message
        | .ok _ => if maxRecoveryJsonBytes < (encode floats value).utf8ByteSize then
            .error ("recovery_" ++ label ++ "_too_large")
          else .ok (some (encode floats value)) : Except String (Option String)) = _ ↔ _
      cases hargs : checkArgs wide 0 value with
      | error message => exact ⟨fun h => (nomatch h), fun h => (nomatch h.2.1)⟩
      | ok u =>
        dsimp only
        split
        · rename_i hsize
          exact ⟨fun h => (nomatch h), fun h => absurd h.2.2.1 (Nat.not_le_of_lt hsize)⟩
        · rename_i hsize
          constructor
          · intro h
            exact ⟨hobject, rfl, Nat.le_of_not_lt hsize, (Except.ok.inj h).symm⟩
          · intro h
            rw [h.2.2.2]
    · rw [if_pos (hcontext.mpr hobject)]
      exact ⟨fun h => (nomatch h), fun h => absurd h.1 hobject⟩

theorem isObject_sorted (value : Json) : isObject (sortKeys value) = isObject value := by
  cases value <;> simp only [sortKeys, isObject]

theorem snapshot_round_trip {label : String} {value : Option Json} {document : Option String}
    (hdistinct : distinctKeys (value.getD .null) = true)
    (h : serializeSnapshot (textCodec floats wide serializeStep deserializeStep) label value = .ok document) :
    ∃ value', deserializeSnapshot (textCodec floats wide serializeStep deserializeStep) label document =
        .ok value' ∧ alike (value'.getD .null) (value.getD .null) ∧
      serializeSnapshot (textCodec floats wide serializeStep deserializeStep) label value' = .ok document := by
  have hnone : ∀ v : Option Json, v.getD .null = .null →
      serializeSnapshot (textCodec floats wide serializeStep deserializeStep) label v = .ok none := by
    intro v hv
    cases v with
    | none => rfl
    | some v =>
      rw [Option.getD_some] at hv
      rw [hv]
      rfl
  by_cases hnull : value.getD .null = .null
  · rw [hnone value hnull] at h
    obtain rfl := Except.ok.inj h
    exact ⟨none, rfl, congrArg sortKeys hnull.symm, hnone none rfl⟩
  · obtain ⟨v, rfl⟩ : ∃ v, value = some v := by
      cases value with
      | none => exact absurd rfl hnull
      | some v => exact ⟨v, rfl⟩
    rw [Option.getD_some] at hnull hdistinct
    obtain ⟨hobject, hargs, hsize, rfl⟩ := (serializeSnapshot_some hnull).mp h
    have hsorted : sortKeys v ≠ .null := by
      intro heq
      cases v with
      | null => exact hnull rfl
      | bool | int | num | str | arr | obj =>
        rw [sortKeys] at heq
        cases heq
    have hencoded : encode floats (sortKeys v) = encode floats v := congrArg (dumps floats) (sortKeys_sorted v)
    refine ⟨some (sortKeys v), ?_, sortKeys_sorted v, ?_⟩
    · unfold deserializeSnapshot textCodec encode
      dsimp only
      rw [loads_dumps (distinct_sorted hdistinct)]
      dsimp only
      rw [checkArgs_sorted hargs]
    · rw [serializeSnapshot_some hsorted, isObject_sorted, hencoded]
      exact ⟨hobject, checkArgs_sorted hargs, hsize, rfl⟩

end Snapshots

/-! ## Documents -/

/-- Every step that is stored comes back with an equal dictionary and is stored again as
the same text, and so with every snapshot. -/
theorem documents_round_trip (floats : Floats) (wide : String → String) :
    (∀ step document, distinctKeys step.toDict = true → serializeToolStep floats wide step = .ok document →
      ∃ step', deserializeToolStep floats wide document = .ok step' ∧ alike step'.toDict step.toDict ∧
        serializeToolStep floats wide step' = .ok document) ∧
    ∀ serializeStep deserializeStep label value document, distinctKeys (value.getD .null) = true →
      serializeSnapshot (textCodec floats wide serializeStep deserializeStep) label value = .ok document →
      ∃ value', deserializeSnapshot (textCodec floats wide serializeStep deserializeStep) label document =
          .ok value' ∧ alike (value'.getD .null) (value.getD .null) ∧
        serializeSnapshot (textCodec floats wide serializeStep deserializeStep) label value' = .ok document :=
  ⟨fun _ _ hdistinct h => step_round_trip hdistinct h,
    fun _ _ _ _ _ hdistinct h => snapshot_round_trip hdistinct h⟩

def searchStep : ToolStep where
  id := "s1"
  title := "call"
  description := .str ""
  payload := none
  dependsOn := .arr []
  condition := none
  ownerAgentId := .null
  ownerAgentRole := .null
  routeReason := .null
  successCriteria := defaultCriteriaDict
  planVersion := .int 2
  compatibilityTrace := .null
  toolName := some "web_search"
  arguments := [("q", .str "x"), ("limit", .int 5)]
  timeoutSeconds := some (.int 30)
  retryBudget := 0
  retryOwner := "step_executor"
  idempotencyKey := "plan:s1"
  legacy := fun h => nomatch h

def turnContext : Json := .obj [("turn", .int 1), ("messages", .arr [.str "hello", .null])]

/-- The call is stored, and so is a context, and what comes back is stored again as the same
text. -/
theorem documents_round_trip_search :
    let codec := textCodec ratioFloats (fun s => s) (fun _ => .error "") (fun _ => .error "")
    ∃ document step' snapshot value',
      serializeToolStep ratioFloats (fun s => s) searchStep = .ok document ∧
      deserializeToolStep ratioFloats (fun s => s) document = .ok step' ∧
      serializeToolStep ratioFloats (fun s => s) step' = .ok document ∧
      serializeSnapshot codec "context" (some turnContext) = .ok snapshot ∧
      deserializeSnapshot codec "context" snapshot = .ok value' ∧
      serializeSnapshot codec "context" value' = .ok snapshot := by
  intro codec
  have hok : (serializeToolStep ratioFloats (fun s => s) searchStep).isOk = true ∧
      (serializeSnapshot codec "context" (some turnContext)).isOk = true := by decide +kernel
  obtain ⟨hsteps, hsnapshots⟩ := documents_round_trip ratioFloats (fun s => s)
  cases hstep : serializeToolStep ratioFloats (fun s => s) searchStep with
  | error message =>
    rw [hstep] at hok
    cases hok.1
  | ok document =>
    cases hsnapshot : serializeSnapshot codec "context" (some turnContext) with
    | error message =>
      rw [hsnapshot] at hok
      cases hok.2
    | ok snapshot =>
      obtain ⟨step', hread, -, hagain⟩ := hsteps searchStep document (by decide +kernel) hstep
      obtain ⟨value', hloaded, -, hsame⟩ :=
        hsnapshots _ _ "context" (some turnContext) snapshot (by decide +kernel) hsnapshot
      exact ⟨document, step', snapshot, value', rfl, hread, hagain, rfl, hloaded, hsame⟩

end Recovery
