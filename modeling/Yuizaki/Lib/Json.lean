import Mathlib.Data.Rat.Defs

/- JSON values as Python holds them after `json.loads`: an object keeps its
   entries in insertion order, and an `int` is not a `float` (a rational here).
   Reading a missing key and testing a value for truth follow `dict.get` and Python's
   `bool`. -/

inductive Json where
  | null
  | bool (b : Bool)
  | int (n : ℤ)
  | num (q : ℚ)
  | str (s : String)
  | arr (xs : List Json)
  | obj (kvs : List (String × Json))

namespace Json

mutual

/-- Equality of values is decidable, one constructor at a time. -/
def decEq : (a b : Json) → Decidable (a = b)
  | .null, .null => isTrue rfl
  | .bool a, .bool b => decidable_of_iff (a = b) (by simp)
  | .int a, .int b => decidable_of_iff (a = b) (by simp)
  | .num a, .num b => decidable_of_iff (a = b) (by simp)
  | .str a, .str b => decidable_of_iff (a = b) (by simp)
  | .arr a, .arr b => @decidable_of_iff _ (a = b) (by simp) (decEqList a b)
  | .obj a, .obj b => @decidable_of_iff _ (a = b) (by simp) (decEqEntries a b)
  | .null, .bool _ | .null, .int _ | .null, .num _ | .null, .str _ | .null, .arr _
  | .null, .obj _
  | .bool _, .null | .bool _, .int _ | .bool _, .num _ | .bool _, .str _ | .bool _, .arr _
  | .bool _, .obj _
  | .int _, .null | .int _, .bool _ | .int _, .num _ | .int _, .str _ | .int _, .arr _
  | .int _, .obj _
  | .num _, .null | .num _, .bool _ | .num _, .int _ | .num _, .str _ | .num _, .arr _
  | .num _, .obj _
  | .str _, .null | .str _, .bool _ | .str _, .int _ | .str _, .num _ | .str _, .arr _
  | .str _, .obj _
  | .arr _, .null | .arr _, .bool _ | .arr _, .int _ | .arr _, .num _ | .arr _, .str _
  | .arr _, .obj _
  | .obj _, .null | .obj _, .bool _ | .obj _, .int _ | .obj _, .num _ | .obj _, .str _
  | .obj _, .arr _ =>
    isFalse (by simp)

/-- `decEq` down a list. -/
def decEqList : (a b : List Json) → Decidable (a = b)
  | [], [] => isTrue rfl
  | [], _ :: _ | _ :: _, [] => isFalse (by simp)
  | x :: xs, y :: ys =>
    @decidable_of_iff _ (x = y ∧ xs = ys) (by simp) (@instDecidableAnd _ _ (decEq x y) (decEqList xs ys))

/-- `decEq` down the entries of an object. -/
def decEqEntries : (a b : List (String × Json)) → Decidable (a = b)
  | [], [] => isTrue rfl
  | [], _ :: _ | _ :: _, [] => isFalse (by simp)
  | (k, x) :: xs, (l, y) :: ys =>
    @decidable_of_iff _ ((k = l ∧ x = y) ∧ xs = ys) (by simp)
      (@instDecidableAnd _ _ (@instDecidableAnd _ _ inferInstance (decEq x y)) (decEqEntries xs ys))

end

instance : DecidableEq Json := decEq

/-- A number: a `bool` counts as 0 or 1. -/
def number : Json → Option ℚ
  | .bool b => some (if b then 1 else 0)
  | .int n => some n
  | .num q => some q
  | _ => none

mutual

/-- Python's `a == b`: numbers by value, objects whatever the order of their keys. -/
def same : (a b : Json) → Bool
  | .null, .null => true
  | .str a, .str b => a = b
  | .arr a, .arr b => a.length = b.length ∧ sameItems a b = true
  | .obj a, .obj b => a.length = b.length ∧ sameEntries a b = true
  | .bool a, b => b.number = some (if a then 1 else 0)
  | .int a, b => b.number = some (a : ℚ)
  | .num a, b => b.number = some a
  | _, _ => false

/-- `==` item by item. -/
def sameItems : (a b : List Json) → Bool
  | x :: xs, y :: ys => same x y ∧ sameItems xs ys = true
  | _, _ => true

/-- `==` key by key. -/
def sameEntries : (a b : List (String × Json)) → Bool
  | [], _ => true
  | (k, x) :: rest, b =>
    match b.lookup k with
    | some y => same x y && sameEntries rest b
    | none => false

end

/-- `dict.get(key)`: `None` when the value is no object or has no such key. -/
def get (j : Json) (key : String) : Json :=
  match j with
  | .obj kvs => (kvs.lookup key).getD .null
  | _ => .null

/-- `key in value` on an object. -/
def hasKey (j : Json) (key : String) : Bool :=
  match j with
  | .obj kvs => (kvs.lookup key).isSome
  | _ => false

/-- Python's `bool(value)`. -/
def truthy : Json → Bool
  | .null => false
  | .bool b => b
  | .int n => n ≠ 0
  | .num q => q ≠ 0
  | .str s => s ≠ ""
  | .arr xs => !xs.isEmpty
  | .obj kvs => !kvs.isEmpty

/-- Python's `a or b`. -/
def or (a b : Json) : Json := if a.truthy then a else b

/-- `dict[key] = value`: an existing key keeps its place. -/
def setEntry (kvs : List (String × Json)) (key : String) (v : Json) : List (String × Json) :=
  match kvs with
  | [] => [(key, v)]
  | (k, w) :: rest => if k = key then (k, v) :: rest else (k, w) :: setEntry rest key v

/-- A dictionary with the entries of another laid over its own. -/
def merge (a b : List (String × Json)) : List (String × Json) :=
  b.foldl (fun d e => setEntry d e.1 e.2) a

theorem lookup_cons_if {α : Type} (k a : String) (v : α) (rest : List (String × α)) :
    ((k, v) :: rest).lookup a = if a = k then some v else rest.lookup a := by
  by_cases h : a = k
  · simp [h]
  · have hb : (a == k) = false := by simpa using h
    simp [List.lookup_cons, h, hb]

theorem lookup_setEntry (kvs : List (String × Json)) (key k : String) (v : Json) :
    (setEntry kvs key v).lookup k = if k = key then some v else kvs.lookup k := by
  induction kvs with
  | nil => simp [setEntry, lookup_cons_if]
  | cons e rest ih =>
    obtain ⟨k', w⟩ := e
    simp only [setEntry]
    split
    · -- the key is already there
      rename_i hk'
      subst hk'
      by_cases hk : k = k' <;> simp [lookup_cons_if, hk]
    · rename_i hk'
      simp only [lookup_cons_if, ih]
      by_cases hk : k = k'
      · subst hk; simp [hk']
      · simp [hk]

theorem mem_keys_setEntry (kvs : List (String × Json)) (key k : String) (v : Json) :
    k ∈ (setEntry kvs key v).map Prod.fst ↔ k = key ∨ k ∈ kvs.map Prod.fst := by
  induction kvs with
  | nil => simp [setEntry]
  | cons e rest ih =>
    obtain ⟨k', w⟩ := e
    rw [setEntry]
    split
    · rename_i hk'
      subst hk'
      simp
    · simp only [List.map_cons, List.mem_cons, ih]
      exact or_left_comm

theorem nodup_setEntry {kvs : List (String × Json)} (h : (kvs.map Prod.fst).Nodup) (key : String)
    (v : Json) : ((setEntry kvs key v).map Prod.fst).Nodup := by
  induction kvs with
  | nil => simp [setEntry]
  | cons e rest ih =>
    obtain ⟨k', w⟩ := e
    rw [List.map_cons, List.nodup_cons] at h
    rw [setEntry]
    split
    · exact List.nodup_cons.mpr h
    · rename_i hk'
      refine List.nodup_cons.mpr ⟨fun hmem => ?_, ih h.2⟩
      rcases (mem_keys_setEntry rest key k' v).mp hmem with heq | hold
      · exact hk' heq
      · exact h.1 hold

theorem mem_keys_merge {a b : List (String × Json)} {k : String}
    (h : k ∈ (merge a b).map Prod.fst) : k ∈ a.map Prod.fst ∨ k ∈ b.map Prod.fst := by
  induction b generalizing a with
  | nil => exact Or.inl h
  | cons e rest ih =>
    rcases ih (a := setEntry a e.1 e.2) h with hfirst | hrest
    · rcases (mem_keys_setEntry a e.1 k e.2).mp hfirst with heq | hold
      · exact Or.inr (heq ▸ List.mem_cons_self)
      · exact Or.inl hold
    · exact Or.inr (List.mem_cons_of_mem _ hrest)

theorem names_merge {a b : List (String × Json)} {names : List String}
    (ha : ∀ k ∈ a.map Prod.fst, k ∈ names) (hb : ∀ k ∈ b.map Prod.fst, k ∈ names) :
    ∀ k ∈ (merge a b).map Prod.fst, k ∈ names := by
  intro k hk
  rcases mem_keys_merge hk with hk | hk
  · exact ha k hk
  · exact hb k hk

theorem nodup_merge {a : List (String × Json)} (h : (a.map Prod.fst).Nodup)
    (b : List (String × Json)) : ((merge a b).map Prod.fst).Nodup := by
  induction b generalizing a with
  | nil => exact h
  | cons e rest ih => exact ih (nodup_setEntry h e.1 e.2)

/-- What holds of a list where it holds of its elements, and of an object where it holds
of its values, holds of every value. -/
@[elab_as_elim]
theorem induction {P : Json → Prop} (null : P .null) (bool : ∀ b, P (.bool b))
    (int : ∀ n, P (.int n)) (num : ∀ q, P (.num q)) (str : ∀ s, P (.str s))
    (arr : ∀ xs, (∀ x ∈ xs, P x) → P (.arr xs))
    (obj : ∀ kvs : List (String × Json), (∀ e ∈ kvs, P e.2) → P (.obj kvs)) (j : Json) : P j :=
  @Json.rec P (fun xs => ∀ x ∈ xs, P x) (fun kvs => ∀ e ∈ kvs, P e.2) (fun e => P e.2)
    null bool int num str arr obj
    (fun _ hx => absurd hx List.not_mem_nil)
    (fun _ _ hx hxs => List.forall_mem_cons.mpr ⟨hx, hxs⟩)
    (fun _ he => absurd he List.not_mem_nil)
    (fun _ _ he hkvs => List.forall_mem_cons.mpr ⟨he, hkvs⟩)
    (fun _ _ hv => hv) j

end Json
