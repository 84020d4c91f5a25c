import Mathlib.Data.Nat.Notation

/- Loops that stop at a limit.

   A loop takes steps until it is done or has gathered so much, but a step may gather several at
   once. So what it gathers stays within the limit exactly where the loop without the limit gathers
   that much after some whole step, or never more (`Bounded.size_le_iff`). -/
namespace Bounded

variable {ε σ : Type} (step : σ → Except ε σ) (size : σ → ℕ) (done : σ → Bool)

def iterate : ℕ → σ → Except ε σ
  | 0, s => .ok s
  | n + 1, s => (step s).bind (iterate n)

def loop (limit : ℕ) : ℕ → σ → Except ε σ
  | 0, s => .ok s
  | fuel + 1, s => if done s = true ∨ limit ≤ size s then .ok s else (step s).bind (loop limit fuel)

section Rules

variable {step} {size} {done} {s t u : σ} {n m fuel limit : ℕ}

theorem iterate_add (h : iterate step n s = .ok t) : iterate step (n + m) s = iterate step m t := by
  induction n generalizing s with
  | zero =>
    obtain rfl := Except.ok.inj h
    rw [Nat.zero_add]
  | succ n ih =>
    unfold iterate at h
    cases hstep : step s with
    | error e =>
      rw [hstep] at h
      exact nomatch h
    | ok next =>
      rw [hstep] at h
      rw [Nat.succ_add, iterate, hstep]
      exact ih h

theorem iterate_invariant {I : σ → Prop} (hstep : ∀ s t, I s → step s = .ok t → I t) (h : iterate step n s = .ok t)
    (hs : I s) : I t := by
  induction n generalizing s with
  | zero =>
    obtain rfl := Except.ok.inj h
    exact hs
  | succ n ih =>
    unfold iterate at h
    cases hnext : step s with
    | error e =>
      rw [hnext] at h
      exact nomatch h
    | ok next =>
      rw [hnext] at h
      exact ih h (hstep s next hs hnext)

theorem size_le_of_iterate (hmono : ∀ s t, step s = .ok t → size s ≤ size t) (h : iterate step n s = .ok t) :
    size s ≤ size t :=
  iterate_invariant (I := fun u => size s ≤ size u) (fun u v hu huv => Nat.le_trans hu (hmono u v huv)) h (Nat.le_refl _)

theorem iterate_of_done (hstays : ∀ s, done s = true → step s = .ok s) (h : done s = true) :
    iterate step n s = .ok s := by
  induction n with
  | zero => rfl
  | succ n ih =>
    unfold iterate
    rw [hstays s h]
    exact ih

theorem loop_iterate (h : loop step size done limit fuel s = .ok t) :
    ∃ n ≤ fuel, iterate step n s = .ok t ∧ (n < fuel → done t = true ∨ limit ≤ size t) ∧
      ∀ m < n, ∀ u, iterate step m s = .ok u → done u = false ∧ size u < limit := by
  induction fuel generalizing s with
  | zero =>
    obtain rfl := Except.ok.inj h
    exact ⟨0, Nat.le_refl _, rfl, fun hlt => absurd hlt (Nat.lt_irrefl 0), fun m hm => absurd hm (Nat.not_lt_zero m)⟩
  | succ fuel ih =>
    unfold loop at h
    by_cases hstop : done s = true ∨ limit ≤ size s
    · rw [if_pos hstop] at h
      obtain rfl := Except.ok.inj h
      exact ⟨0, Nat.zero_le _, rfl, fun _ => hstop, fun m hm => absurd hm (Nat.not_lt_zero m)⟩
    · rw [if_neg hstop] at h
      cases hstep : step s with
      | error e =>
        rw [hstep] at h
        exact nomatch h
      | ok next =>
        rw [hstep] at h
        obtain ⟨n, hn, hiterate, hend, hbefore⟩ := ih h
        refine ⟨n + 1, Nat.succ_le_succ hn, ?_, fun hlt => hend (Nat.lt_of_succ_lt_succ hlt), fun m hm u hu => ?_⟩
        · unfold iterate
          rw [hstep]
          exact hiterate
        · cases m with
          | zero =>
            obtain rfl := Except.ok.inj hu
            exact ⟨eq_false_of_ne_true fun hdone => hstop (.inl hdone), Nat.lt_of_not_le fun hle => hstop (.inr hle)⟩
          | succ m =>
            unfold iterate at hu
            rw [hstep] at hu
            exact hbefore m (Nat.lt_of_succ_lt_succ hm) u hu

theorem measure_of_iterate {M : σ → ℕ} {I : σ → Prop} (hkeeps : ∀ s t, I s → step s = .ok t → I t)
    (hlower : ∀ s t, I s → done s = false → step s = .ok t → M t < M s) (hs : I s)
    (h : iterate step n s = .ok t) (hrunning : ∀ m < n, ∀ u, iterate step m s = .ok u → done u = false) :
    M t + n ≤ M s := by
  induction n generalizing s with
  | zero =>
    obtain rfl := Except.ok.inj h
    exact Nat.le_refl _
  | succ n ih =>
    unfold iterate at h
    cases hstep : step s with
    | error e =>
      rw [hstep] at h
      exact nomatch h
    | ok next =>
      rw [hstep] at h
      have hfirst := hlower s next hs (hrunning 0 (Nat.succ_pos n) s rfl) hstep
      have hrest := ih (hkeeps s next hs hstep) h fun m hm u hu => by
        refine hrunning (m + 1) (Nat.succ_lt_succ hm) u ?_
        unfold iterate
        rw [hstep]
        exact hu
      omega

/-- **What a loop gathers**: it stays within the limit exactly where the steps without a limit gather that much
after some whole step, or never more. -/
theorem size_le_iff (hmono : ∀ s t, step s = .ok t → size s ≤ size t) (hstays : ∀ s, done s = true → step s = .ok s)
    (hiterate : iterate step n s = .ok t) (hend : done t = true ∨ limit ≤ size t)
    (hbefore : ∀ m < n, ∀ u, iterate step m s = .ok u → done u = false ∧ size u < limit) :
    size t ≤ limit ↔ (∃ m u, iterate step m s = .ok u ∧ size u = limit) ∨
      ∀ m u, iterate step m s = .ok u → size u ≤ limit := by
  constructor
  · intro hle
    obtain hdone | hfull := hend
    · refine .inr fun m u hu => ?_
      by_cases hm : m ≤ n
      · -- the steps before the loop was done gathered less
        obtain ⟨k, rfl⟩ := Nat.exists_eq_add_of_le hm
        rw [iterate_add hu] at hiterate
        exact Nat.le_trans (size_le_of_iterate hmono hiterate) hle
      · obtain ⟨k, rfl⟩ := Nat.exists_eq_add_of_le (Nat.le_of_not_le hm)
        rw [iterate_add hiterate, iterate_of_done hstays hdone] at hu
        obtain rfl := Except.ok.inj hu
        exact hle
    · exact .inl ⟨n, t, hiterate, Nat.le_antisymm hle hfull⟩
  · intro h
    obtain ⟨m, u, hu, hsize⟩ | hall := h
    · have hm : n ≤ m := Nat.le_of_not_lt fun hlt => absurd (hbefore m hlt u hu).2 (hsize ▸ Nat.lt_irrefl _)
      obtain ⟨k, rfl⟩ := Nat.exists_eq_add_of_le hm
      rw [iterate_add hiterate] at hu
      exact hsize ▸ size_le_of_iterate hmono hu
    · exact hall n t hiterate

end Rules

end Bounded
