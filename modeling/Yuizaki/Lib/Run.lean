import Mathlib.Logic.Relation

/- Runs of a labelled transition system.

   A system is a step relation `step : σ → ℓ → σ → Prop`. `Run step s₀ hist s`
   says that `s` is reached from `s₀` by the labels of `hist`, newest first, so
   that a question about "the last time something happened" is a question about
   the front of a list. The rules below turn what one step keeps into what a
   whole run keeps: a property of states (`Run.invariant`), a property of a state
   and the labels that led to it (`Run.history`), and a property that holds all along
   a run exactly where every step of it meets a condition (`Run.always_iff_meets`). -/
namespace Transition

variable {σ ℓ : Type}

/-- `Run step s₀ hist s`: the labels of `hist`, newest first, lead from `s₀` to `s`. -/
inductive Run (step : σ → ℓ → σ → Prop) (s₀ : σ) : List ℓ → σ → Prop
  | start : Run step s₀ [] s₀
  | next {hist : List ℓ} {s s' : σ} {l : ℓ} :
      Run step s₀ hist s → step s l s' → Run step s₀ (l :: hist) s'

namespace Run

variable {step : σ → ℓ → σ → Prop} {s₀ s s' : σ} {l : ℓ} {hist hist' : List ℓ}

theorem cons_inv (h : Run step s₀ (l :: hist) s') :
    ∃ s, Run step s₀ hist s ∧ step s l s' := by
  cases h with
  | next hrun hs => exact ⟨_, hrun, hs⟩

theorem append (h : Run step s₀ hist s) (h' : Run step s hist' s') :
    Run step s₀ (hist' ++ hist) s' := by
  induction h' with
  | start => exact h
  | next _ hs ih => exact Run.next ih hs

theorem split (h : Run step s₀ (hist' ++ hist) s') :
    ∃ s, Run step s₀ hist s ∧ Run step s hist' s' := by
  induction hist' generalizing s' with
  | nil => exact ⟨s', h, Run.start⟩
  | cons l rest ih =>
    obtain ⟨t, ht, hs⟩ := cons_inv h
    obtain ⟨s, h₁, h₂⟩ := ih ht
    exact ⟨s, h₁, Run.next h₂ hs⟩

theorem invariant {I : σ → Prop} (hrun : Run step s₀ hist s)
    (h0 : I s₀) (hstep : ∀ s l s', I s → step s l s' → I s') : I s := by
  induction hrun with
  | start => exact h0
  | next _ hs ih => exact hstep _ _ _ ih hs

theorem history {I : List ℓ → σ → Prop} (hrun : Run step s₀ hist s) (h0 : I [] s₀)
    (hstep : ∀ hist s l s', I hist s → step s l s' → I (l :: hist) s') : I hist s := by
  induction hrun with
  | start => exact h0
  | next _ hs ih => exact hstep _ _ _ _ ih hs

theorem mono {step' : σ → ℓ → σ → Prop} (h : Run step s₀ hist s)
    (hstep : ∀ s l s', step s l s' → step' s l s') : Run step' s₀ hist s := by
  induction h with
  | start => exact Run.start
  | next _ hs ih => exact Run.next ih (hstep _ _ _ hs)

/-- What a computed step does with labels in turn, oldest first. -/
def exec (next : σ → ℓ → Option σ) : σ → List ℓ → Option σ
  | s, [] => some s
  | s, l :: rest => (next s l).bind fun s' => exec next s' rest

theorem of_exec {next : σ → ℓ → Option σ} {ls : List ℓ} (h : exec next s ls = some s') :
    Run (fun s l s' => next s l = some s') s ls.reverse s' := by
  induction ls generalizing s with
  | nil =>
    obtain rfl : s = s' := Option.some.inj h
    exact Run.start
  | cons l rest ih =>
    obtain ⟨t, ht, hrest⟩ := Option.bind_eq_some_iff.mp h
    rw [List.reverse_cons]
    exact append (Run.next Run.start ht) (ih hrest)

theorem of_foldl (next : σ → ℓ → σ) (s : σ) (ls : List ℓ) :
    Run (fun s l s' => next s l = s') s ls.reverse (ls.foldl next s) := by
  induction ls generalizing s with
  | nil => exact Run.start
  | cons l rest ih =>
    rw [List.reverse_cons, List.foldl_cons]
    exact append (Run.next Run.start rfl) (ih (next s l))

/-- A property of every state along a run. -/
def Always (step : σ → ℓ → σ → Prop) (s₀ : σ) (P : σ → Prop) (hist : List ℓ) : Prop :=
  ∀ newer older s, hist = newer ++ older → Run step s₀ older s → P s

/-- A condition on every step along a run. -/
def Meets (step : σ → ℓ → σ → Prop) (s₀ : σ) (C : σ → ℓ → Prop) (hist : List ℓ) : Prop :=
  ∀ newer l older s s', hist = newer ++ l :: older → Run step s₀ older s → step s l s' → C s l

/-- A property that holds along a run exactly where the steps meet a condition: steps under the
condition keep `Q`, which implies the property, and a step from `Q` that ends in the property has
met the condition. -/
theorem always_iff_meets_kept {I P Q : σ → Prop} {C : σ → ℓ → Prop}
    (hI₀ : I s₀) (hI : ∀ s l s', I s → step s l s' → I s') (hQ₀ : Q s₀)
    (hQ : ∀ s l s', I s → Q s → step s l s' → C s l → Q s') (hP : ∀ s, I s → Q s → P s)
    (hC : ∀ s l s', I s → Q s → step s l s' → P s' → C s l) :
    Always step s₀ P hist ↔ Meets step s₀ C hist := by
  have hinv {older : List ℓ} {t : σ} (ht : Run step s₀ older t) : I t := ht.invariant hI₀ hI
  constructor
  · intro h
    have hkept (newer : List ℓ) {older : List ℓ} {t : σ} (hsplit : hist = newer ++ older) (ht : Run step s₀ older t) : Q t := by
      induction ht generalizing newer with
      | start => exact hQ₀
      | next ht hstep ih =>
        rename_i older t t' l
        have hbefore : Q t := ih (newer ++ [l]) (by simp [hsplit])
        have hafter : P t' := h newer (l :: older) t' hsplit (Run.next ht hstep)
        exact hQ t l t' (hinv ht) hbefore hstep (hC t l t' (hinv ht) hbefore hstep hafter)
    intro newer l older t t' hsplit ht hstep
    have hbefore : Q t := hkept (newer ++ [l]) (by simp [hsplit]) ht
    have hafter : P t' := h newer (l :: older) t' hsplit (Run.next ht hstep)
    exact hC t l t' (hinv ht) hbefore hstep hafter
  · intro h newer older t hsplit ht
    refine hP t (hinv ht) ?_
    induction ht generalizing newer with
    | start => exact hQ₀
    | next ht hstep ih =>
      rename_i older t t' l
      refine hQ t l t' (hinv ht) (ih (newer ++ [l]) (by simp [hsplit])) hstep ?_
      exact h newer l older t t' hsplit ht hstep

/-- A property of the states that steps under a condition keep, together with `Q`, and that
no other step keeps, holds along a run exactly where its steps meet the condition. -/
theorem always_iff_meets {I P Q : σ → Prop} {C : σ → ℓ → Prop}
    (hI₀ : I s₀) (hI : ∀ s l s', I s → step s l s' → I s') (hQ₀ : Q s₀)
    (hQ : ∀ s l s', I s → Q s → step s l s' → C s l → Q s') (hP : ∀ s, I s → Q s → P s)
    (hC : ∀ s l s', I s → P s → step s l s' → P s' → C s l) :
    Always step s₀ P hist ↔ Meets step s₀ C hist :=
  always_iff_meets_kept hI₀ hI hQ₀ hQ hP fun s l s' hs hkept => hC s l s' hs (hP s hs hkept)

end Run

end Transition
