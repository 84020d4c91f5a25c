import Mathlib.Data.List.Nodup

/- Dictionaries that keep the order in which their keys came in.

   A Python `dict`, or a table with a primary key: a list of entries with distinct keys.
   Setting a present key replaces its value in place, a new key goes to the end, and
   erasing and filtering keep the order of the rest. Every rule is about `get`, so that
   a proof about a dictionary never unfolds the list. -/

/-- Entries with distinct keys, oldest first. -/
structure Dict (κ ρ : Type) where
  entries : List (κ × ρ)
  nodup : (entries.map Prod.fst).Nodup

namespace Dict

variable {κ ρ : Type} [DecidableEq κ]

instance [DecidableEq ρ] : DecidableEq (Dict κ ρ) := fun a b =>
  decidable_of_iff (a.entries = b.entries)
    ⟨fun h => by cases a; cases b; cases h; rfl, fun h => by rw [h]⟩

def empty : Dict κ ρ := ⟨[], List.nodup_nil⟩

def find (k : κ) : List (κ × ρ) → Option ρ
  | [] => none
  | e :: rest => if e.1 = k then some e.2 else find k rest

/-- `d.get(k)`. -/
def get (d : Dict κ ρ) (k : κ) : Option ρ := find k d.entries

def put (k : κ) (v : ρ) : List (κ × ρ) → List (κ × ρ)
  | [] => [(k, v)]
  | e :: rest => if e.1 = k then (k, v) :: rest else e :: put k v rest

theorem mem_keys_put {k k' : κ} {v : ρ} {es : List (κ × ρ)} :
    k' ∈ (put k v es).map Prod.fst ↔ k' = k ∨ k' ∈ es.map Prod.fst := by
  induction es with
  | nil => simp [put]
  | cons e rest ih =>
    rw [put]
    split
    · rename_i he
      rw [List.map_cons, List.map_cons, List.mem_cons, List.mem_cons, he]
      exact ⟨fun h => h.elim Or.inl (fun h => Or.inr (Or.inr h)),
        fun h => h.elim Or.inl (fun h => h)⟩
    · rw [List.map_cons, List.map_cons, List.mem_cons, List.mem_cons, ih]
      exact or_left_comm

theorem nodup_put {k : κ} {v : ρ} {es : List (κ × ρ)} (h : (es.map Prod.fst).Nodup) :
    ((put k v es).map Prod.fst).Nodup := by
  induction es with
  | nil => exact List.nodup_singleton _
  | cons e rest ih =>
    obtain ⟨hnew, hrest⟩ := List.nodup_cons.mp h
    rw [put]
    split
    · rename_i he
      rw [List.map_cons, ← he]
      exact h
    · rename_i he
      rw [List.map_cons]
      refine List.nodup_cons.mpr ⟨fun hmem => ?_, ih hrest⟩
      rcases mem_keys_put.mp hmem with heq | hmem
      · exact he heq
      · exact hnew hmem

/-- `d[k] = v`. -/
def set (d : Dict κ ρ) (k : κ) (v : ρ) : Dict κ ρ := ⟨put k v d.entries, nodup_put d.nodup⟩

def filter (d : Dict κ ρ) (p : κ → ρ → Bool) : Dict κ ρ :=
  ⟨d.entries.filter (fun e => p e.1 e.2), (List.filter_sublist.map Prod.fst).nodup d.nodup⟩

/-- `d.pop(k, None)`. -/
def erase (d : Dict κ ρ) (k : κ) : Dict κ ρ := d.filter (fun k' _ => k' ≠ k)

/-- `d.move_to_end(k)`. -/
def moveToEnd (d : Dict κ ρ) (k : κ) : Dict κ ρ :=
  match d.get k with
  | none => d
  | some v => (d.erase k).set k v

/-- `d[b] = d.pop(a)`, where `a` is a key. -/
def rename (d : Dict κ ρ) (a b : κ) : Dict κ ρ :=
  match d.get a with
  | none => d
  | some v => (d.erase a).set b v

def mapValues (d : Dict κ ρ) (f : κ → ρ → ρ) : Dict κ ρ :=
  ⟨d.entries.map (fun e => (e.1, f e.1 e.2)), by
    rw [List.map_map]
    exact d.nodup⟩

/-- Every value changed in place, or left out. -/
def filterMap {ρ' : Type} (d : Dict κ ρ) (f : κ → ρ → Option ρ') : Dict κ ρ' :=
  ⟨d.entries.filterMap (fun e => (f e.1 e.2).map (fun v => (e.1, v))), by
    refine List.Sublist.nodup ?_ d.nodup
    induction d.entries with
    | nil => exact List.Sublist.slnil
    | cons e rest ih =>
      rw [List.filterMap_cons]
      cases f e.1 e.2 with
      | none => exact List.Sublist.cons _ ih
      | some v => exact List.Sublist.cons_cons _ ih⟩

/-- The newest entries, as many as there may be. -/
def keepNewest (d : Dict κ ρ) (n : ℕ) : Dict κ ρ :=
  ⟨d.entries.drop (d.entries.length - n), ((List.drop_sublist _ _).map Prod.fst).nodup d.nodup⟩

def keys (d : Dict κ ρ) : List κ := d.entries.map Prod.fst

section Rules

variable {d : Dict κ ρ} {k k' : κ} {v v' : ρ} {p : κ → ρ → Bool}

@[simp] theorem get_empty : (empty : Dict κ ρ).get k = none := rfl

theorem find_put {es : List (κ × ρ)} :
    find k' (put k v es) = if k' = k then some v else find k' es := by
  induction es with
  | nil =>
    rw [put, find, find]
    exact if_congr eq_comm rfl rfl
  | cons e rest ih =>
    rw [put]
    split
    · rename_i he
      rw [find, find, he]
      by_cases hk : k' = k
      · rw [if_pos hk.symm, if_pos hk]
      · rw [if_neg (Ne.symm hk), if_neg hk, if_neg (Ne.symm hk)]
    · rename_i he
      rw [find, find, ih]
      by_cases hk : k' = k
      · rw [hk, if_neg he, if_pos rfl, if_pos rfl]
      · rw [if_neg hk, if_neg hk]

theorem get_set : (d.set k v).get k' = if k' = k then some v else d.get k' := find_put

@[simp] theorem get_set_self : (d.set k v).get k = some v := by
  rw [get_set, if_pos rfl]

theorem get_set_of_ne (h : k' ≠ k) : (d.set k v).get k' = d.get k' := by
  rw [get_set, if_neg h]

theorem put_self {es : List (κ × ρ)} (h : find k es = some v) : put k v es = es := by
  induction es with
  | nil => cases h
  | cons e rest ih =>
    rw [find] at h
    rw [put]
    split at h
    · rename_i he
      cases h
      rw [if_pos he, ← he]
    · rename_i he
      rw [if_neg he, ih h]

theorem set_self (h : d.get k = some v) : d.set k v = d := by
  unfold set
  cases d
  simp only [put_self h]

theorem put_new {es : List (κ × ρ)} (h : find k es = none) : put k v es = es ++ [(k, v)] := by
  induction es with
  | nil => rfl
  | cons e rest ih =>
    rw [find] at h
    split at h
    · cases h
    · rename_i he
      rw [put, if_neg he, ih h]
      rfl

theorem entries_set_new (h : d.get k = none) : (d.set k v).entries = d.entries ++ [(k, v)] := put_new h

theorem find_mem {es : List (κ × ρ)} (h : find k es = some v) : (k, v) ∈ es := by
  induction es with
  | nil => cases h
  | cons e rest ih =>
    rw [find] at h
    split at h
    · rename_i he
      cases h
      rw [← he]
      exact List.mem_cons_self
    · exact List.mem_cons_of_mem _ (ih h)

theorem find_of_mem {es : List (κ × ρ)} (hnodup : (es.map Prod.fst).Nodup) (h : (k, v) ∈ es) :
    find k es = some v := by
  induction es with
  | nil => cases h
  | cons e rest ih =>
    obtain ⟨hnew, hrest⟩ := List.nodup_cons.mp hnodup
    rw [find]
    rcases List.mem_cons.mp h with rfl | h
    · rw [if_pos rfl]
    · have hne : e.1 ≠ k := fun heq => hnew (heq ▸ List.mem_map.mpr ⟨(k, v), h, rfl⟩)
      rw [if_neg hne]
      exact ih hrest h

theorem get_eq_some : d.get k = some v ↔ (k, v) ∈ d.entries :=
  ⟨find_mem, find_of_mem d.nodup⟩

theorem mem_keys : k ∈ d.keys ↔ ∃ v, d.get k = some v := by
  unfold keys
  rw [List.mem_map]
  constructor
  · intro h
    obtain ⟨e, he, hk⟩ := h
    exact ⟨e.2, get_eq_some.mpr (hk ▸ he)⟩
  · intro h
    obtain ⟨v, hv⟩ := h
    exact ⟨(k, v), get_eq_some.mp hv, rfl⟩

theorem get_filter : (d.filter p).get k = (d.get k).filter (p k) := by
  ext v
  rw [get_eq_some, Option.filter_eq_some_iff, get_eq_some]
  exact List.mem_filter

theorem get_erase : (d.erase k).get k' = if k' = k then none else d.get k' := by
  unfold erase
  rw [get_filter]
  by_cases hk : k' = k
  · rw [if_pos hk, hk]
    cases d.get k <;> simp
  · rw [if_neg hk]
    cases d.get k' <;> simp [hk]

theorem erase_self (h : d.get k = none) : d.erase k = d := by
  have hkept : d.entries.filter (fun e => decide (e.1 ≠ k)) = d.entries := by
    rw [List.filter_eq_self]
    intro e he
    refine decide_eq_true (fun heq => ?_)
    have hfound : d.get k = some e.2 := get_eq_some.mpr (heq ▸ he)
    rw [h] at hfound
    cases hfound
  unfold erase filter
  cases d
  simp only [hkept]

theorem get_mapValues (f : κ → ρ → ρ) : (d.mapValues f).get k = (d.get k).map (f k) := by
  show find k (d.entries.map (fun e => (e.1, f e.1 e.2))) = (find k d.entries).map (f k)
  induction d.entries with
  | nil => rfl
  | cons e rest ih =>
    rw [List.map_cons, find, find]
    by_cases hk : e.1 = k
    · rw [if_pos hk, if_pos hk, hk]
      rfl
    · rw [if_neg hk, if_neg hk]
      exact ih

theorem get_filterMap {ρ' : Type} (f : κ → ρ → Option ρ') : (d.filterMap f).get k = (d.get k).bind (f k) := by
  ext v
  rw [get_eq_some, Option.bind_eq_some_iff]
  show (k, v) ∈ d.entries.filterMap _ ↔ _
  rw [List.mem_filterMap]
  constructor
  · intro h
    obtain ⟨e, he, hv⟩ := h
    obtain ⟨v', hf, heq⟩ := Option.map_eq_some_iff.mp hv
    obtain ⟨rfl, rfl⟩ := Prod.mk.inj heq
    exact ⟨e.2, get_eq_some.mpr he, hf⟩
  · intro h
    obtain ⟨w, hw, hf⟩ := h
    exact ⟨(k, w), get_eq_some.mp hw, by rw [hf]; rfl⟩

theorem get_moveToEnd : (d.moveToEnd k).get k' = d.get k' := by
  unfold moveToEnd
  cases hk : d.get k with
  | none => rfl
  | some v =>
    show ((d.erase k).set k v).get k' = d.get k'
    rw [get_set, get_erase]
    by_cases heq : k' = k
    · rw [if_pos heq, heq, hk]
    · rw [if_neg heq, if_neg heq]

theorem get_rename {a b : κ} (hfree : d.get b = none) :
    (d.rename a b).get k = if k = b then d.get a else if k = a then none else d.get k := by
  unfold rename
  cases ha : d.get a with
  | none =>
    show d.get k = _
    by_cases hb : k = b
    · rw [if_pos hb, hb, hfree]
    · rw [if_neg hb]
      by_cases heq : k = a
      · rw [if_pos heq, heq, ha]
      · rw [if_neg heq]
  | some v =>
    show ((d.erase a).set b v).get k = _
    rw [get_set, get_erase]

theorem length_keys_eq {d d' : Dict κ ρ} (h : ∀ k, (d.get k).isSome = (d'.get k).isSome) :
    d.keys.length = d'.keys.length := by
  have hmem (k : κ) : k ∈ d.keys ↔ k ∈ d'.keys := by
    rw [mem_keys, mem_keys, ← Option.isSome_iff_exists, ← Option.isSome_iff_exists, h k]
  exact ((List.perm_ext_iff_of_nodup d.nodup d'.nodup).mpr hmem).length_eq

theorem length_keys_set (h : d.get k ≠ none) : (d.set k v).keys.length = d.keys.length := by
  refine length_keys_eq (fun k' => ?_)
  rw [get_set]
  by_cases heq : k' = k
  · rw [if_pos heq, heq]
    exact (Option.ne_none_iff_isSome.mp h).symm
  · rw [if_neg heq]

theorem length_put_le {es : List (κ × ρ)} : (put k v es).length ≤ es.length + 1 := by
  induction es with
  | nil => exact Nat.le_refl _
  | cons e rest ih =>
    rw [put]
    split
    · exact Nat.le_succ _
    · exact Nat.succ_le_succ ih

theorem length_keys_set_le : (d.set k v).keys.length ≤ d.keys.length + 1 := by
  unfold keys set
  rw [List.length_map, List.length_map]
  exact length_put_le

theorem length_keys_moveToEnd : (d.moveToEnd k).keys.length = d.keys.length :=
  length_keys_eq (fun _ => by rw [get_moveToEnd])

theorem length_keys_erase (h : d.get k ≠ none) :
    (d.erase k).keys.length + 1 = d.keys.length := by
  obtain ⟨v, hv⟩ := Option.ne_none_iff_exists'.mp h
  have hkeys : (d.erase k).keys = d.keys.erase k := by
    unfold keys
    rw [d.nodup.erase_eq_filter, List.filter_map]
    unfold erase filter
    refine congrArg (List.map Prod.fst) (List.filter_congr (fun e _ => ?_))
    show decide (e.1 ≠ k) = (e.1 != k)
    by_cases heq : e.1 = k <;> simp [heq]
  have hmem : k ∈ d.keys := mem_keys.mpr ⟨v, hv⟩
  rw [hkeys, List.length_erase_of_mem hmem]
  have hpos : 0 < d.keys.length := List.length_pos_of_mem hmem
  omega

theorem length_keys_rename_le {a b : κ} : (d.rename a b).keys.length ≤ d.keys.length := by
  unfold rename
  cases ha : d.get a with
  | none => exact Nat.le_refl _
  | some v =>
    show ((d.erase a).set b v).keys.length ≤ d.keys.length
    have herase := length_keys_erase (d := d) (k := a) (by rw [ha]; exact Option.some_ne_none v)
    have hset := length_keys_set_le (d := d.erase a) (k := b) (v := v)
    omega

theorem get_erase_all (ks : List κ) (d : Dict κ ρ) :
    (ks.foldl erase d).get k = if k ∈ ks then none else d.get k := by
  induction ks generalizing d with
  | nil => rw [if_neg List.not_mem_nil]; rfl
  | cons k' rest ih =>
    rw [List.foldl_cons, ih, get_erase]
    by_cases hk : k = k'
    · rw [if_pos hk, ite_self, if_pos (List.mem_cons.mpr (Or.inl hk))]
    · have hmem : k ∈ k' :: rest ↔ k ∈ rest := List.mem_cons.trans (or_iff_right hk)
      rw [if_neg hk]
      exact if_congr hmem.symm rfl rfl

end Rules

/-! ## What remains of a dictionary -/

/-- Every entry of the first is one of the second. -/
def Within (d d' : Dict κ ρ) : Prop := ∀ k v, d.get k = some v → d'.get k = some v

section Within

variable {d d' d'' : Dict κ ρ}

theorem Within.refl (d : Dict κ ρ) : Within d d := fun _ _ h => h

theorem Within.trans (h : Within d d') (h' : Within d' d'') : Within d d'' :=
  fun k v hk => h' k v (h k v hk)

theorem Within.none (h : Within d d') {k : κ} (hk : d'.get k = none) : d.get k = none := by
  cases hd : d.get k with
  | none => rfl
  | some v =>
    rw [h k v hd] at hk
    cases hk

theorem empty_within : Within empty d := fun _ _ h => by cases h

theorem filter_within (p : κ → ρ → Bool) : Within (d.filter p) d := fun k v h => by
  rw [get_filter, Option.filter_eq_some_iff] at h
  exact h.1

theorem erase_within (k : κ) : Within (d.erase k) d := filter_within _

theorem keepNewest_within (n : ℕ) : Within (d.keepNewest n) d := fun _ _ h =>
  get_eq_some.mpr (List.mem_of_mem_drop (get_eq_some.mp h))

end Within

end Dict
