import Mathlib.Data.Option.Basic
import Yuizaki.Lib.JsonText
import Yuizaki.Lib.Sorting
import Yuizaki.Plan.Hash

/- Values and predicates as the hash of a plan reads them.

   The keys of a value are sorted member by member, and `alike` is equality up to their order.
   The dictionary of a predicate has its entries in one order, without those that are empty. -/
namespace Plan

open JsonText Sorting

/-! ## Values -/

/-- Equal up to the order of the keys of objects. -/
def alike (a b : Json) : Prop := sortKeys a = sortKeys b

theorem sortKeysList_map (xs : List Json) : sortKeysList xs = xs.map sortKeys := by
  induction xs with
  | nil => rfl
  | cons x xs ih => rw [sortKeysList, List.map_cons, ih]

theorem sortKeysEntries_map (kvs : List (String × Json)) :
    sortKeysEntries kvs = kvs.map (fun e => (e.1, sortKeys e.2)) := by
  induction kvs with
  | nil => rfl
  | cons e kvs ih => rw [sortKeysEntries, List.map_cons, ih]

theorem sortEntries_map {f : Json → Json} (kvs : List (String × Json)) :
    (sortEntries kvs).map (fun e => (e.1, f e.2)) = sortEntries (kvs.map (fun e => (e.1, f e.2))) :=
  List.map_insertionSort _ _ _ kvs (fun _ _ _ _ => Iff.rfl)

theorem distinct_arr {xs : List Json} :
    distinctKeys (.arr xs) = true ↔ ∀ x ∈ xs, distinctKeys x = true := by
  rw [distinctKeys]
  induction xs with
  | nil => exact ⟨fun _ _ hx => absurd hx List.not_mem_nil, fun _ => rfl⟩
  | cons x xs ih => rw [distinctItems, Bool.and_eq_true, ih, List.forall_mem_cons]

theorem distinct_obj {kvs : List (String × Json)} : distinctKeys (.obj kvs) = true ↔
    (kvs.map Prod.fst).Nodup ∧ ∀ e ∈ kvs, distinctKeys e.2 = true := by
  have hmembers : ∀ es : List (String × Json),
      distinctMembers es = true ↔ ∀ e ∈ es, distinctKeys e.2 = true := by
    intro es
    induction es with
    | nil => exact ⟨fun _ _ he => absurd he List.not_mem_nil, fun _ => rfl⟩
    | cons e es ih => rw [distinctMembers, Bool.and_eq_true, ih, List.forall_mem_cons]
  rw [distinctKeys, Bool.and_eq_true, hmembers, decide_eq_true_iff]

theorem sortKeys_arr (xs : List Json) : sortKeys (.arr xs) = .arr (xs.map sortKeys) := by
  rw [sortKeys, sortKeysList_map]

theorem sortKeys_obj (kvs : List (String × Json)) :
    sortKeys (.obj kvs) = .obj (sortEntries (kvs.map (fun e => (e.1, sortKeys e.2)))) := by
  rw [sortKeys, sortKeysEntries_map]

/-! ## Predicates -/

@[elab_as_elim]
theorem Predicate.induction {P : Predicate → Prop}
    (intro : ∀ op source values children, (∀ c ∈ children, P c) → P ⟨op, source, values, children⟩)
    (p : Predicate) : P p :=
  @Predicate.rec P (fun ps => ∀ c ∈ ps, P c) intro
    (fun _ hc => absurd hc List.not_mem_nil)
    (fun _ _ hp hps => List.forall_mem_cons.mpr ⟨hp, hps⟩) p

theorem predicateDicts_map (ps : List Predicate) : predicateDicts ps = ps.map Predicate.toDict := by
  induction ps with
  | nil => rfl
  | cons p ps ih => rw [predicateDicts, List.map_cons, ih]

/-- The entries of `to_dict`. -/
def dictEntries (p : Predicate) : List (String × Json) :=
  [("op", .str p.op)] ++
    (if p.sourceStepId.getD "" = "" then []
      else [("source_step_id", .str (p.sourceStepId.getD ""))]) ++
    (if p.values = [] then [] else [("values", textsJson p.values)]) ++
    (if p.children.isEmpty then [] else [("children", .arr (p.children.map Predicate.toDict))])

theorem toDict_eq (p : Predicate) : p.toDict = .obj (dictEntries p) := by
  obtain ⟨op, source, values, children⟩ := p
  rw [Predicate.toDict, predicateDicts_map]
  rfl

theorem lookup_dictEntries (p : Predicate) :
    (dictEntries p).lookup "op" = some (.str p.op) ∧
    (dictEntries p).lookup "source_step_id" =
      (if p.sourceStepId.getD "" = "" then none else some (.str (p.sourceStepId.getD ""))) ∧
    (dictEntries p).lookup "values" = (if p.values = [] then none else some (textsJson p.values)) ∧
    (dictEntries p).lookup "children" =
      (if p.children.isEmpty then none else some (.arr (p.children.map Predicate.toDict))) := by
  unfold dictEntries
  refine ⟨rfl, ?_, ?_, ?_⟩ <;> split <;> split <;> split <;> rfl

theorem toDict_obj (p : Predicate) : ∃ kvs, p.toDict = .obj kvs := ⟨_, toDict_eq p⟩

end Plan
