import Mathlib.Data.List.Basic
import Mathlib.Data.List.Pairwise

/- A journal: a table with an autoincrement id and a unique key.

   Entries are kept in id order. An insert of a key that is already present is
   ignored, a new key takes the next id, a row is changed in place under its id,
   and nothing is removed. The invariants (ids increase and stay below the next
   one, no key twice) are fields, so every journal has them. The rules say which
   entries an operation leaves, and what the first entry that meets a predicate
   knows about the entries before it. -/

/-- One journal entry: its id and key never change, its row may. -/
structure Journal.Entry (κ ρ : Type) where
  id : ℕ
  key : κ
  row : ρ
deriving DecidableEq

structure Journal (κ ρ : Type) where
  entries : List (Journal.Entry κ ρ)
  nextId : ℕ
  sorted : entries.Pairwise (fun a b => a.id < b.id)
  below : ∀ e ∈ entries, e.id < nextId
  unique : entries.Pairwise (fun a b => a.key ≠ b.key)

namespace Journal

variable {κ ρ : Type}

/-- The empty journal; the first id is 1. -/
def empty : Journal κ ρ where
  entries := []
  nextId := 1
  sorted := List.Pairwise.nil
  below := by simp
  unique := List.Pairwise.nil

/-- Append a row under a key no entry has. -/
def push (j : Journal κ ρ) (key : κ) (row : ρ) (fresh : ∀ e ∈ j.entries, e.key ≠ key) :
    Journal κ ρ where
  entries := j.entries ++ [⟨j.nextId, key, row⟩]
  nextId := j.nextId + 1
  sorted := by
    refine List.pairwise_append.mpr ⟨j.sorted, List.pairwise_singleton _ _, ?_⟩
    intro a ha b hb
    rw [List.mem_singleton] at hb
    subst hb
    exact j.below a ha
  below := by
    intro e he
    rcases List.mem_append.mp he with he | he
    · exact Nat.lt_succ_of_lt (j.below e he)
    · rw [List.mem_singleton] at he
      subst he
      exact Nat.lt_succ_self _
  unique := by
    refine List.pairwise_append.mpr ⟨j.unique, List.pairwise_singleton _ _, ?_⟩
    intro a ha b hb
    rw [List.mem_singleton] at hb
    subst hb
    exact fresh a ha

/-- Append, or leave the journal alone when the key is present. -/
def insertOrIgnore [DecidableEq κ] (j : Journal κ ρ) (key : κ) (row : ρ) : Journal κ ρ :=
  if h : ∀ e ∈ j.entries, e.key ≠ key then j.push key row h else j

/-- What `modify` does to one entry. -/
def Entry.modify (id : ℕ) (f : ρ → ρ) (e : Entry κ ρ) : Entry κ ρ :=
  if e.id = id then { e with row := f e.row } else e

@[simp] theorem Entry.modify_id (id : ℕ) (f : ρ → ρ) (e : Entry κ ρ) :
    (e.modify id f).id = e.id := by
  unfold Entry.modify
  split <;> rfl

@[simp] theorem Entry.modify_key (id : ℕ) (f : ρ → ρ) (e : Entry κ ρ) :
    (e.modify id f).key = e.key := by
  unfold Entry.modify
  split <;> rfl

theorem Entry.modify_row (id : ℕ) (f : ρ → ρ) (e : Entry κ ρ) :
    (e.modify id f).row = if e.id = id then f e.row else e.row := by
  unfold Entry.modify
  split <;> rfl

def modify (j : Journal κ ρ) (id : ℕ) (f : ρ → ρ) : Journal κ ρ where
  entries := j.entries.map (Entry.modify id f)
  nextId := j.nextId
  sorted := by
    rw [List.pairwise_map]
    simpa using j.sorted
  below := by
    intro e he
    obtain ⟨e₀, h₀, rfl⟩ := List.mem_map.mp he
    simpa using j.below e₀ h₀
  unique := by
    rw [List.pairwise_map]
    simpa using j.unique

def find (j : Journal κ ρ) (id : ℕ) : Option (Entry κ ρ) := j.entries.find? (·.id = id)

def findKey [DecidableEq κ] (j : Journal κ ρ) (key : κ) : Option (Entry κ ρ) :=
  j.entries.find? (·.key = key)

/-- The entry with the smallest id whose row meets `p`. -/
def first (j : Journal κ ρ) (p : ρ → Bool) : Option (Entry κ ρ) := j.entries.find? (p ·.row)

/-! ## Which entries there are -/

theorem mem_empty {e : Entry κ ρ} : ¬ e ∈ (empty : Journal κ ρ).entries := by
  simp [empty]

theorem mem_insertOrIgnore [DecidableEq κ] {j : Journal κ ρ} {key : κ} {row : ρ}
    {e : Entry κ ρ} :
    e ∈ (j.insertOrIgnore key row).entries ↔
      e ∈ j.entries ∨ (∀ x ∈ j.entries, x.key ≠ key) ∧ e = ⟨j.nextId, key, row⟩ := by
  unfold insertOrIgnore
  split
  · rename_i h
    simp only [push, List.mem_append, List.mem_singleton]
    constructor
    · rintro (he | he)
      · exact Or.inl he
      · exact Or.inr ⟨h, he⟩
    · rintro (he | ⟨_, he⟩)
      · exact Or.inl he
      · exact Or.inr he
  · rename_i h
    constructor
    · exact Or.inl
    · rintro (he | ⟨hf, _⟩)
      · exact he
      · exact absurd hf h

theorem mem_modify {j : Journal κ ρ} {id : ℕ} {f : ρ → ρ} {e : Entry κ ρ} :
    e ∈ (j.modify id f).entries ↔ ∃ e₀ ∈ j.entries, e₀.modify id f = e := by
  simp [modify]

theorem pairwise_eq {α : Type} {R : α → α → Prop} {l : List α} (h : l.Pairwise R)
    {a b : α} (ha : a ∈ l) (hb : b ∈ l) (hab : ¬ R a b) (hba : ¬ R b a) : a = b := by
  induction l with
  | nil => simp at ha
  | cons x rest ih =>
    obtain ⟨hx, hrest⟩ := List.pairwise_cons.mp h
    rcases List.mem_cons.mp ha with ha | ha
    · rcases List.mem_cons.mp hb with hb | hb
      · rw [ha, hb]
      · exact absurd (hx b hb) (ha ▸ hab)
    · rcases List.mem_cons.mp hb with hb | hb
      · exact absurd (hx a ha) (hb ▸ hba)
      · exact ih hrest ha hb

theorem eq_of_id {j : Journal κ ρ} {a b : Entry κ ρ} (ha : a ∈ j.entries)
    (hb : b ∈ j.entries) (h : a.id = b.id) : a = b :=
  pairwise_eq j.sorted ha hb (by omega) (by omega)

/-! ## Lookups -/

theorem find_eq_some {j : Journal κ ρ} {id : ℕ} {e : Entry κ ρ} :
    j.find id = some e ↔ e ∈ j.entries ∧ e.id = id := by
  constructor
  · intro h
    exact ⟨List.mem_of_find?_eq_some h, by simpa using List.find?_some h⟩
  · rintro ⟨hm, hid⟩
    cases hf : j.find id with
    | none =>
      have := List.find?_eq_none.mp hf e hm
      simp [hid] at this
    | some e' =>
      have hm' := List.mem_of_find?_eq_some hf
      have hid' : e'.id = id := by simpa using List.find?_some hf
      rw [eq_of_id hm hm' (by omega)]

theorem find?_pairwise {α : Type} {R : α → α → Prop} {l : List α} {p : α → Bool} {a b : α}
    (hl : l.Pairwise R) (h : l.find? p = some a) (hb : b ∈ l) (hab : ¬ R a b) (hne : b ≠ a) :
    p b = false := by
  induction l with
  | nil => simp at hb
  | cons x rest ih =>
    obtain ⟨hx, hrest⟩ := List.pairwise_cons.mp hl
    cases hpx : p x with
    | true =>
      simp only [List.find?_cons, hpx, Option.some.injEq] at h
      subst h
      rcases List.mem_cons.mp hb with rfl | hb
      · exact absurd rfl hne
      · exact absurd (hx _ hb) hab
    | false =>
      simp only [List.find?_cons, hpx] at h
      rcases List.mem_cons.mp hb with rfl | hb
      · exact hpx
      · exact ih hrest h hb

theorem first_eq_some {j : Journal κ ρ} {p : ρ → Bool} {e : Entry κ ρ}
    (h : j.first p = some e) :
    e ∈ j.entries ∧ p e.row = true ∧ ∀ b ∈ j.entries, b.id < e.id → p b.row = false := by
  have hp : p e.row = true := by
    have := List.find?_some (p := fun x : Entry κ ρ => p x.row) h
    exact this
  refine ⟨List.mem_of_find?_eq_some h, hp, ?_⟩
  intro b hb hlt
  have hne : b ≠ e := by
    intro heq
    rw [heq] at hlt
    exact Nat.lt_irrefl _ hlt
  exact find?_pairwise (p := fun x : Entry κ ρ => p x.row) j.sorted h hb
    (Nat.lt_asymm hlt) hne

end Journal
