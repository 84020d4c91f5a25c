import Yuizaki.Lib.Dict
import Mathlib.Data.List.Count

/- How many entries of a dictionary meet a predicate.

   The rules say how a count changes where one value is set or every value is changed, and
   when one count bounds another, so that a bound on a count is kept without looking at the
   order of the entries. -/
namespace Dict

variable {κ ρ : Type} [DecidableEq κ] {d d' : Dict κ ρ} {k : κ} {v v' : ρ} {p q : κ → ρ → Bool}

/-- `SELECT COUNT(*) … WHERE p`. -/
def count (d : Dict κ ρ) (p : κ → ρ → Bool) : ℕ := d.entries.countP fun e => p e.1 e.2

theorem count_put_old {es : List (κ × ρ)} (h : find k es = some v) :
    (put k v' es).countP (fun e => p e.1 e.2) + (if p k v then 1 else 0) =
      es.countP (fun e => p e.1 e.2) + if p k v' then 1 else 0 := by
  induction es with
  | nil => cases h
  | cons e rest ih =>
    rw [find] at h
    split at h
    · rename_i heq
      obtain rfl := Option.some.inj h
      rw [put, if_pos heq, List.countP_cons, List.countP_cons, heq]
      show _ + (if p k v' = true then 1 else 0) + _ = _
      omega
    · rename_i hne
      rw [put, if_neg hne, List.countP_cons, List.countP_cons]
      have := ih h
      omega

theorem count_set_old (p : κ → ρ → Bool) (v' : ρ) (h : d.get k = some v) :
    (d.set k v').count p + (if p k v then 1 else 0) = d.count p + if p k v' then 1 else 0 :=
  count_put_old h

omit [DecidableEq κ] in
theorem count_mapValues (f : κ → ρ → ρ) : (d.mapValues f).count p = d.count fun k v => p k (f k v) := by
  show (d.entries.map _).countP _ = _
  rw [List.countP_map]
  rfl

omit [DecidableEq κ] in
theorem count_or (h : ∀ k v, p k v = true → q k v = false) :
    d.count (fun k v => p k v || q k v) = d.count p + d.count q := by
  unfold count
  induction d.entries with
  | nil => rfl
  | cons e rest ih =>
    rw [List.countP_cons, List.countP_cons, List.countP_cons, ih]
    cases hp : p e.1 e.2 with
    | false =>
      simp only [hp, Bool.false_or, Bool.false_eq_true, if_false]
      omega
    | true =>
      simp only [hp, h e.1 e.2 hp, Bool.or_false, Bool.false_eq_true, if_true, if_false]
      omega

theorem count_le (h : ∀ k v, d.get k = some v → p k v = true → q k v = true) : d.count p ≤ d.count q :=
  List.countP_mono_left fun e he hp => h e.1 e.2 (get_eq_some.mpr he) hp

theorem count_congr (h : ∀ k v, d.get k = some v → p k v = q k v) : d.count p = d.count q :=
  Nat.le_antisymm (count_le fun k v hv hp => h k v hv ▸ hp) (count_le fun k v hv hq => (h k v hv).symm ▸ hq)

theorem count_pos (h : d.get k = some v) (hp : p k v = true) : 0 < d.count p :=
  List.countP_pos_iff.mpr ⟨(k, v), get_eq_some.mp h, hp⟩

theorem count_put {es : List (κ × ρ)} (hnodup : (es.map Prod.fst).Nodup) :
    (put k v es).countP (fun e => p e.1 e.2) =
      es.countP (fun e => decide (e.1 ≠ k) && p e.1 e.2) + if p k v then 1 else 0 := by
  induction es with
  | nil => simp [put, List.countP_cons]
  | cons e rest ih =>
    obtain ⟨hnew, hnodup⟩ := List.nodup_cons.mp hnodup
    rw [put, List.countP_cons]
    split
    · rename_i heq
      have hrest : rest.countP (fun e => p e.1 e.2) = rest.countP fun e => decide (e.1 ≠ k) && p e.1 e.2 := by
        apply List.countP_congr
        intro e' he'
        have hne : e'.1 ≠ k := fun hk => hnew (heq ▸ hk ▸ List.mem_map_of_mem he')
        simp [hne]
      rw [List.countP_cons, hrest]
      simp [heq]
    · rename_i hne
      rw [List.countP_cons, ih hnodup]
      simp only [hne, ne_eq, not_false_eq_true, decide_true, Bool.true_and]
      omega

theorem count_set : (d.set k v).count p =
    d.count (fun k' v' => decide (k' ≠ k) && p k' v') + if p k v then 1 else 0 := count_put d.nodup

theorem mapValues_at {f : κ → ρ → ρ} (h : d.get k = some v)
    (hrest : ∀ k' v', d.get k' = some v' → k' ≠ k → f k' v' = v') : d.mapValues f = d.set k (f k v) := by
  have hentries : ∀ es : List (κ × ρ), (es.map Prod.fst).Nodup → find k es = some v →
      (∀ e ∈ es, e.1 ≠ k → f e.1 e.2 = e.2) → es.map (fun e => (e.1, f e.1 e.2)) = put k (f k v) es := by
    intro es hnodup hfind hkeep
    induction es with
    | nil => cases hfind
    | cons e rest ih =>
      obtain ⟨hnew, hnodup⟩ := List.nodup_cons.mp hnodup
      rw [find] at hfind
      split at hfind
      · rename_i heq
        obtain rfl := Option.some.inj hfind
        have hsame : rest.map (fun e => (e.1, f e.1 e.2)) = rest := by
          conv_rhs => rw [← List.map_id rest]
          apply List.map_congr_left
          intro e' he'
          have hne : e'.1 ≠ k := fun hk => hnew (heq ▸ hk ▸ List.mem_map_of_mem he')
          rw [hkeep e' (List.mem_cons_of_mem _ he') hne]
          rfl
        rw [put, if_pos heq, List.map_cons, hsame, heq]
      · rename_i hne
        rw [put, if_neg hne, List.map_cons, hkeep e List.mem_cons_self hne,
          ih hnodup hfind fun e' he' => hkeep e' (List.mem_cons_of_mem _ he')]
  have hsame := hentries d.entries d.nodup h fun e he hne => hrest e.1 e.2 (get_eq_some.mpr he) hne
  unfold mapValues set
  simp only [hsame]

end Dict
