import Mathlib.Data.List.Basic

/- Rules of pre- and postconditions.

   A program of the state monad `EStateM ε σ` ends with a value or with an `ε`, and leaves a
   state in either case. `Triple P x Q E` says that from a state of `P` it ends with a value
   in `Q`, or with an error in `E`. There is one rule for each way of building a program, and
   one for each kind of loop: over a list and a number of times. -/
namespace Hoare

variable {ε σ α β : Type}

/-- From `P` the program ends with a value in `Q` or with an error in `E`. -/
def Triple (P : σ → Prop) (x : EStateM ε σ α) (Q : α → σ → Prop) (E : ε → σ → Prop) : Prop :=
  ∀ s, P s → match x s with
    | .ok a s' => Q a s'
    | .error e s' => E e s'

/-- The body as often as it is said, or until it ends with an error. -/
def times (body : EStateM ε σ Unit) : ℕ → EStateM ε σ Unit
  | 0 => pure ()
  | n + 1 => do
    body
    times body n

/-- The body for each item, or until it ends with an error. -/
def each (body : α → EStateM ε σ Unit) : List α → EStateM ε σ Unit
  | [] => pure ()
  | item :: items => do
    body item
    each body items

namespace Triple

variable {P P' : σ → Prop} {Q Q' : α → σ → Prop} {R : β → σ → Prop} {E E' : ε → σ → Prop}
  {x : EStateM ε σ α}

theorem pure {a : α} (h : ∀ s, P s → Q a s) : Triple P (pure a : EStateM ε σ α) Q E :=
  fun s hs => h s hs

theorem throw {e : ε} (h : ∀ s, P s → E e s) : Triple P (throw e : EStateM ε σ α) Q E :=
  fun s hs => h s hs

theorem bind {f : α → EStateM ε σ β} (hx : Triple P x Q E) (hf : ∀ a, Triple (Q a) (f a) R E) :
    Triple P (x >>= f) R E := by
  intro s hs
  have hfirst := hx s hs
  show match EStateM.bind x f s with
    | .ok b s' => R b s'
    | .error e s' => E e s'
  unfold EStateM.bind
  cases hrun : x s with
  | ok a s' =>
    rw [hrun] at hfirst
    exact hf a s' hfirst
  | error e s' =>
    rw [hrun] at hfirst
    exact hfirst

theorem conseq (hx : Triple P x Q E) (hpre : ∀ s, P' s → P s) (hpost : ∀ a s, Q a s → Q' a s)
    (herror : ∀ e s, E e s → E' e s) : Triple P' x Q' E' := by
  intro s hs
  have hrun := hx s (hpre s hs)
  cases hend : x s with
  | ok a s' =>
    rw [hend] at hrun
    exact hpost a s' hrun
  | error e s' =>
    rw [hend] at hrun
    exact herror e s' hrun

theorem get {f : σ → EStateM ε σ β} (hf : ∀ s, P s → Triple (fun s' => s' = s) (f s) R E) :
    Triple P (do let s ← get; f s) R E :=
  fun s hs => hf s hs s rfl

theorem modify {g : σ → σ} {D : Unit → σ → Prop} (h : ∀ s, P s → D () (g s)) :
    Triple P (modify g : EStateM ε σ Unit) D E :=
  fun s hs => h s hs

theorem modifyGet {g : σ → α × σ} (h : ∀ s, P s → Q (g s).1 (g s).2) :
    Triple P (modifyGet g : EStateM ε σ α) Q E := by
  intro s hs
  exact h s hs

theorem ite {c : Prop} [Decidable c] {y : EStateM ε σ α} (hx : c → Triple P x Q E)
    (hy : ¬ c → Triple P y Q E) : Triple P (if c then x else y) Q E := by
  by_cases hc : c
  · rw [if_pos hc]
    exact hx hc
  · rw [if_neg hc]
    exact hy hc

theorem each {body : α → EStateM ε σ Unit} (h : ∀ a, Triple P (body a) (fun _ => P) E) (items : List α) :
    Triple P (each body items) (fun _ => P) E := by
  induction items with
  | nil => exact pure fun _ hs => hs
  | cons item items ih => exact bind (h item) fun _ => ih

theorem times {I : ℕ → σ → Prop} {body : EStateM ε σ Unit} {n : ℕ}
    (h : ∀ k, k < n → Triple (I k) body (fun _ => I (k + 1)) E) :
    Triple (I 0) (times body n) (fun _ => I n) E := by
  have hrest : ∀ m k, k + m = n → Triple (I k) (Hoare.times body m) (fun _ => I n) E := by
    intro m
    induction m with
    | zero =>
      intro k hk
      refine pure fun s hs => ?_
      rw [← hk]
      exact hs
    | succ m ih =>
      intro k hk
      exact bind (h k (by omega)) fun _ => ih (k + 1) (by omega)
  exact hrest n 0 (by omega)

end Triple

end Hoare
