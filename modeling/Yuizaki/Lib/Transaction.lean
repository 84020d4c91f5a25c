import Yuizaki.Lib.Dict
import Yuizaki.Lib.Run

/- Calls that read before they lock.

   A call on a shared store reads it one statement at a time, each time as the others have
   left it, and then writes: its first write takes the writer's lock, so what it does from
   there to its commit is one step. A `Call` is such a program, with a description of its
   write that carries what was read. `Clients.next` is one turn of one of the calls.

   A write may be built on what is no longer so. What reading does guarantee of a pending
   write is a relation `R` that a later store cannot undo (`Call.Honest`). `run_invariant`
   proves a property of the store from the writes that meet a condition on the store they
   find, and `always_iff_meets` says that the property holds all along a run exactly where
   every write meets the condition. -/
namespace Transaction

open Transition

/-- A call that has not written: it has its answer, reads the store and goes on, or is about
to write. -/
inductive Call (σ ω α : Type) where
  | quit (answer : α)
  | read (k : σ → Call σ ω α)
  | write (w : ω)

/-- A store and the calls that are under way. -/
structure Clients (σ ω α : Type) where
  store : σ
  calls : Dict ℕ (Call σ ω α)

/-- A turn: a call begins, goes on by a statement, or gives up. -/
inductive Turn (ι : Type) where
  | call (n : ℕ) (op : ι)
  | go (n : ℕ)
  | drop (n : ℕ)

variable {σ ω α ι : Type}

def Clients.start (store : σ) : Clients σ ω α := ⟨store, Dict.empty⟩

section Turns

variable (body : ι → Call σ ω α) (commit : ω → σ → Except α σ)

/-- What a turn does. A write that fails is rolled back. -/
def Clients.next (s : Clients σ ω α) : Turn ι → Option (Clients σ ω α)
  | .call n op =>
    if (s.calls.get n).isSome then none else some { s with calls := s.calls.set n (body op) }
  | .go n =>
    match s.calls.get n with
    | none => none
    | some (.quit _) => some { s with calls := s.calls.erase n }
    | some (.read k) => some { s with calls := s.calls.set n (k s.store) }
    | some (.write w) =>
      match commit w s.store with
      | .ok store => some { store, calls := s.calls.erase n }
      | .error answer => some { s with calls := s.calls.set n (.quit answer) }
  | .drop n => some { s with calls := s.calls.erase n }

def Clients.Step (s : Clients σ ω α) (l : Turn ι) (s' : Clients σ ω α) : Prop :=
  s.next body commit l = some s'

/-- A condition on the writes, for a turn. -/
def Clients.Admits (C : σ → ω → Prop) (s : Clients σ ω α) (l : Turn ι) : Prop :=
  ∀ n w, l = .go n → s.calls.get n = some (.write w) → C s.store w

/-- A turn whose write meets a condition. -/
def Clients.StepWhere (C : σ → ω → Prop) (s : Clients σ ω α) (l : Turn ι) (s' : Clients σ ω α) : Prop :=
  s.Step body commit l s' ∧ s.Admits C l

/-- A turn whose write meets a condition, computed. -/
def Clients.nextWhere (C : σ → ω → Prop) [∀ store w, Decidable (C store w)] (s : Clients σ ω α)
    (l : Turn ι) : Option (Clients σ ω α) :=
  match l with
  | .go n =>
    match s.calls.get n with
    | some (.write w) => if C s.store w then s.next body commit (.go n) else none
    | _ => s.next body commit (.go n)
  | l => s.next body commit l

end Turns

section Rules

variable {body : ι → Call σ ω α} {commit : ω → σ → Except α σ} {s s' : Clients σ ω α} {l : Turn ι}

theorem step_cases (h : s.Step body commit l s') :
    (∃ n w, l = .go n ∧ s.calls.get n = some (.write w) ∧ commit w s.store = .ok s'.store ∧
      s'.calls = s.calls.erase n) ∨
    s'.store = s.store ∧ (∀ m call, s'.calls.get m = some call → s.calls.get m = some call ∨
      (∃ op, call = body op) ∨ (∃ k, s.calls.get m = some (.read k) ∧ call = k s.store) ∨
      ∃ answer, call = .quit answer) := by
  have herase : ∀ n m call, (s.calls.erase n).get m = some call → s.calls.get m = some call :=
    fun n m call hget => by
      rw [Dict.get_erase] at hget
      split at hget
      · cases hget
      · exact hget
  cases l with
  | call n op =>
    simp only [Clients.Step, Clients.next] at h
    split at h
    · cases h
    · obtain rfl := Option.some.inj h
      refine Or.inr ⟨rfl, fun m call hget => ?_⟩
      rw [Dict.get_set] at hget
      split at hget
      · exact Or.inr (Or.inl ⟨op, (Option.some.inj hget).symm⟩)
      · exact Or.inl hget
  | drop n =>
    obtain rfl := Option.some.inj h
    exact Or.inr ⟨rfl, fun m call hget => Or.inl (herase n m call hget)⟩
  | go n =>
    simp only [Clients.Step, Clients.next] at h
    split at h
    · cases h
    · obtain rfl := Option.some.inj h
      exact Or.inr ⟨rfl, fun m call hget => Or.inl (herase n m call hget)⟩
    · rename_i k hcall
      obtain rfl := Option.some.inj h
      refine Or.inr ⟨rfl, fun m call hget => ?_⟩
      rw [Dict.get_set] at hget
      split at hget
      · rename_i hm
        exact Or.inr (Or.inr (Or.inl ⟨k, hm ▸ hcall, (Option.some.inj hget).symm⟩))
      · exact Or.inl hget
    · rename_i w hcall
      split at h
      · rename_i store hcommit
        obtain rfl := Option.some.inj h
        exact Or.inl ⟨n, w, rfl, hcall, hcommit, rfl⟩
      · rename_i answer hcommit
        obtain rfl := Option.some.inj h
        refine Or.inr ⟨rfl, fun m call hget => ?_⟩
        rw [Dict.get_set] at hget
        split at hget
        · exact Or.inr (Or.inr (Or.inr ⟨answer, (Option.some.inj hget).symm⟩))
        · exact Or.inl hget

theorem nextWhere_step {C : σ → ω → Prop} [∀ store w, Decidable (C store w)]
    (h : s.nextWhere body commit C l = some s') : s.StepWhere body commit C l s' := by
  unfold Clients.nextWhere at h
  split at h
  · rename_i n
    split at h
    · rename_i w hcall
      split at h
      · rename_i hC
        refine ⟨h, fun m w' hl hget => ?_⟩
        obtain rfl : n = m := Turn.go.inj hl
        obtain rfl : w = w' := Call.write.inj (Option.some.inj (hcall.symm.trans hget))
        exact hC
      · cases h
    · rename_i hcall
      refine ⟨h, fun m w' hl hget => ?_⟩
      obtain rfl : n = m := Turn.go.inj hl
      exact absurd hget (hcall w')
  · rename_i hgo
    exact ⟨h, fun m _ hl _ => absurd hl (hgo m)⟩

/-! ## What reading guarantees -/

section Reading

variable (J : σ → Prop) (Later : σ → σ → Prop) (R : σ → ω → Prop)

/-- A call whose pending write is in `R` with the store, however the store goes on between its
statements. -/
def Call.Honest : Call σ ω α → σ → Prop
  | .quit _, _ => True
  | .write w, store => R store w
  | .read k, store => ∀ store', J store' → Later store store' → (k store').Honest store'

end Reading

variable {J : σ → Prop} {Later : σ → σ → Prop} {R : σ → ω → Prop}

theorem Call.honest_ite {p : Prop} [Decidable p] {a b : Call σ ω α} {store : σ}
    (ha : a.Honest J Later R store) (hb : b.Honest J Later R store) :
    (if p then a else b).Honest J Later R store := by
  split
  · exact ha
  · exact hb

theorem Call.Honest.later (htrans : ∀ a b c, Later a b → Later b c → Later a c)
    (hR : ∀ a b w, R a w → Later a b → R b w) {call : Call σ ω α} {a b : σ}
    (h : call.Honest J Later R a) (hlater : Later a b) : call.Honest J Later R b := by
  cases call with
  | quit answer => exact trivial
  | write w => exact hR a b w h hlater
  | read k => exact fun c hc hbc => h c hc (htrans a b c hlater hbc)

/-- The store is good and every call has read it honestly. -/
structure Clients.Kept (J : σ → Prop) (Later : σ → σ → Prop) (R : σ → ω → Prop) (s : Clients σ ω α) :
    Prop where
  store : J s.store
  calls : ∀ n call, s.calls.get n = some call → call.Honest J Later R s.store

theorem start_kept {store : σ} (h : J store) :
    (Clients.start store : Clients σ ω α).Kept J Later R where
  store := h
  calls _ _ hget := by cases hget

theorem step_kept {C : σ → ω → Prop} (hrefl : ∀ a, Later a a)
    (htrans : ∀ a b c, Later a b → Later b c → Later a c)
    (hR : ∀ a b w, R a w → Later a b → R b w)
    (hbody : ∀ op store, J store → (body op).Honest J Later R store)
    (hcommit : ∀ store w store', J store → R store w → C store w → commit w store = .ok store' →
      J store' ∧ Later store store')
    (h : s.Kept J Later R) (hstep : s.StepWhere body commit C l s') : s'.Kept J Later R := by
  obtain ⟨hnext, hadmits⟩ := hstep
  obtain ⟨n, w, hl, hcall, hok, hcalls⟩ | ⟨hstore, hcalls⟩ := step_cases hnext
  · have hw : R s.store w := h.calls n _ hcall
    obtain ⟨hJ, hlater⟩ := hcommit s.store w s'.store h.store hw (hadmits n w hl hcall) hok
    refine ⟨hJ, fun m call hget => ?_⟩
    rw [hcalls, Dict.get_erase] at hget
    split at hget
    · cases hget
    · exact (h.calls m call hget).later htrans hR hlater
  · refine ⟨by rw [hstore]; exact h.store, fun m call hget => ?_⟩
    rw [hstore]
    obtain hold | ⟨op, rfl⟩ | ⟨k, hread, rfl⟩ | ⟨answer, rfl⟩ := hcalls m call hget
    · exact h.calls m call hold
    · exact hbody op s.store h.store
    · exact h.calls m _ hread s.store h.store (hrefl s.store)
    · exact trivial

theorem run_invariant {C : σ → ω → Prop} {store : σ} {hist : List (Turn ι)}
    (hrefl : ∀ a, Later a a) (htrans : ∀ a b c, Later a b → Later b c → Later a c)
    (hR : ∀ a b w, R a w → Later a b → R b w)
    (hbody : ∀ op store, J store → (body op).Honest J Later R store)
    (hcommit : ∀ store w store', J store → R store w → C store w → commit w store = .ok store' →
      J store' ∧ Later store store')
    (hrun : Run (Clients.StepWhere body commit C) (Clients.start store) hist s) (hJ₀ : J store) :
    J s.store := by
  have hkept : s.Kept J Later R := hrun.invariant (start_kept hJ₀)
    fun _ _ _ h hstep => step_kept hrefl htrans hR hbody hcommit h hstep
  exact hkept.store

theorem always_iff_meets {P : σ → Prop} {C : σ → ω → Prop} {store : σ} {hist : List (Turn ι)}
    (hrefl : ∀ a, Later a a) (htrans : ∀ a b c, Later a b → Later b c → Later a c)
    (hR : ∀ a b w, R a w → Later a b → R b w)
    (hbody : ∀ op store, J store → (body op).Honest J Later R store)
    (hcommit : ∀ store w store', J store → R store w → commit w store = .ok store' →
      J store' ∧ Later store store')
    (hJ₀ : J store) (hP₀ : P store)
    (hP : ∀ store w store', J store → R store w → P store → C store w →
      commit w store = .ok store' → P store')
    (hC : ∀ store w store', J store → R store w → P store → commit w store = .ok store' →
      P store' → C store w)
    (hfail : ∀ store w answer, commit w store = .error answer → C store w) :
    Run.Always (Clients.Step body commit) (Clients.start store) (fun s => P s.store) hist ↔
      Run.Meets (Clients.Step body commit) (Clients.start store) (Clients.Admits C) hist := by
  have hkept (s : Clients σ ω α) (l : Turn ι) (s' : Clients σ ω α) (h : s.Kept J Later R)
      (hstep : s.Step body commit l s') : s'.Kept J Later R :=
    step_kept (C := fun _ _ => True) hrefl htrans hR hbody
      (fun store w store' hJ hw _ hok => hcommit store w store' hJ hw hok) h ⟨hstep, fun _ _ _ _ => trivial⟩
  refine Run.always_iff_meets (I := Clients.Kept J Later R) (Q := fun s => P s.store)
    (start_kept hJ₀) hkept hP₀
    (fun s l s' h hs hstep hmeets => ?_) (fun s _ hs => hs) (fun s l s' h hs hstep hs' => ?_)
  · obtain ⟨n, w, hl, hcall, hok, -⟩ | ⟨hstore, -⟩ := step_cases hstep
    · have hw : R s.store w := h.calls n _ hcall
      exact hP s.store w s'.store h.store hw hs (hmeets n w hl hcall) hok
    · show P s'.store
      rw [hstore]
      exact hs
  · intro n w hl hcall
    have hw : R s.store w := h.calls n _ hcall
    cases hok : commit w s.store with
    | error answer => exact hfail s.store w answer hok
    | ok store' =>
      -- the turn is this write
      subst hl
      simp only [Clients.Step, Clients.next, hcall, hok] at hstep
      obtain rfl := Option.some.inj hstep
      exact hC s.store w store' h.store hw hs hok hs'

end Rules

end Transaction
