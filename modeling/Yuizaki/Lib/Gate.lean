import Mathlib.Data.List.Basic

/- A lock around jobs of a thread pool.

   A coroutine that wants to touch a store takes an asyncio lock and awaits a job in a
   thread. `Gate` is that lock with the jobs: who holds it, who waits for it in order, the
   jobs that were handed to threads, and what came back and was not taken yet. A coroutine
   that is cancelled leaves the gate (`Gate.leave`), but a job a thread already has goes on
   without it. An operation is pending (`Gate.Pending`) from the request on until it ran. -/

structure Gate (ω α : Type) where
  holder : Option ω
  waiters : List (ω × α)
  jobs : List (Option ω × α)
  returned : List (ω × α × Bool)

namespace Gate

variable {ω α : Type}

/-- Nobody has the lock or waits for it. -/
def new : Gate ω α := ⟨none, [], [], []⟩

def isFree (g : Gate ω α) : Bool := g.holder.isNone && g.waiters.isEmpty

/-- The lock is taken, and the job handed to a thread. -/
def submit (g : Gate ω α) (o : ω) (a : α) : Gate ω α :=
  { g with holder := some o, jobs := g.jobs ++ [(some o, a)] }

def wait (g : Gate ω α) (o : ω) (a : α) : Gate ω α := { g with waiters := g.waiters ++ [(o, a)] }

def request (g : Gate ω α) (o : ω) (a : α) : Gate ω α :=
  if g.isFree then g.submit o a else g.wait o a

/-- A coroutine goes on without what it asked for. -/
def leave [DecidableEq ω] (g : Gate ω α) (o : ω) : Gate ω α where
  holder := if g.holder = some o then none else g.holder
  waiters := g.waiters.filter (fun w => w.1 ≠ o)
  jobs := g.jobs.map (fun j => if j.1 = some o then (none, j.2) else j)
  returned := g.returned.filter (fun r => r.1 ≠ o)

def ran [DecidableEq ω] [DecidableEq α] (g : Gate ω α) (job : Option ω × α) (ok : Bool) : Gate ω α :=
  { g with
    jobs := g.jobs.erase job
    returned := match job.1 with
      | none => g.returned
      | some o => g.returned ++ [(o, job.2, ok)] }

/-- A coroutine takes what came back, and gives up the lock. -/
def take [DecidableEq ω] [DecidableEq α] (g : Gate ω α) (r : ω × α × Bool) : Gate ω α :=
  { g with holder := none, returned := g.returned.erase r }

/-- The operation was asked for, and has not run. -/
def Pending (g : Gate ω α) (a : α) : Prop := (∃ o, (o, a) ∈ g.waiters) ∨ ∃ o, (o, a) ∈ g.jobs

instance [DecidableEq α] (g : Gate ω α) (a : α) : Decidable (g.Pending a) :=
  decidable_of_iff ((∃ w ∈ g.waiters, w.2 = a) ∨ ∃ j ∈ g.jobs, j.2 = a)
    (or_congr ⟨fun ⟨⟨o, _⟩, hw, heq⟩ => ⟨o, heq ▸ hw⟩, fun ⟨o, hw⟩ => ⟨(o, a), hw, rfl⟩⟩
      ⟨fun ⟨⟨o, _⟩, hj, heq⟩ => ⟨o, heq ▸ hj⟩, fun ⟨o, hj⟩ => ⟨(o, a), hj, rfl⟩⟩)

section Rules

variable {g : Gate ω α} {o : ω} {a b : α}

theorem new_pending : ¬ (new : Gate ω α).Pending a := by
  rintro (⟨o, h⟩ | ⟨o, h⟩) <;> cases h

theorem submit_pending : (g.submit o a).Pending b ↔ g.Pending b ∨ b = a := by
  rw [Pending, Pending, submit, or_assoc]
  refine or_congr_right ⟨fun ⟨p, hp⟩ => ?_, fun h => ?_⟩
  · rcases List.mem_append.mp hp with hold | hnew
    · exact Or.inl ⟨p, hold⟩
    · exact Or.inr (Prod.mk.inj (List.mem_singleton.mp hnew)).2
  · rcases h with ⟨p, hp⟩ | rfl
    · exact ⟨p, List.mem_append_left _ hp⟩
    · exact ⟨some o, List.mem_append_right _ (List.mem_singleton.mpr rfl)⟩

theorem wait_pending : (g.wait o a).Pending b ↔ g.Pending b ∨ b = a := by
  rw [Pending, Pending, wait, or_right_comm]
  refine or_congr_left ⟨fun ⟨p, hp⟩ => ?_, fun h => ?_⟩
  · rcases List.mem_append.mp hp with hold | hnew
    · exact Or.inl ⟨p, hold⟩
    · exact Or.inr (Prod.mk.inj (List.mem_singleton.mp hnew)).2
  · rcases h with ⟨p, hp⟩ | rfl
    · exact ⟨p, List.mem_append_left _ hp⟩
    · exact ⟨o, List.mem_append_right _ (List.mem_singleton.mpr rfl)⟩

theorem request_pending : (g.request o a).Pending b ↔ g.Pending b ∨ b = a := by
  rw [request]
  split
  · exact submit_pending
  · exact wait_pending

theorem leave_pending [DecidableEq ω] (h : (g.leave o).Pending b) : g.Pending b := by
  rcases h with ⟨p, hp⟩ | ⟨p, hp⟩
  · exact Or.inl ⟨p, (List.mem_filter.mp hp).1⟩
  · obtain ⟨j, hj, heq⟩ := List.mem_map.mp hp
    have hop : j.2 = b := by
      split at heq
      · exact (Prod.mk.inj heq).2
      · rw [heq]
    exact Or.inr ⟨j.1, hop ▸ hj⟩

theorem ran_pending [DecidableEq ω] [DecidableEq α] {job : Option ω × α} {ok : Bool} (h : (g.ran job ok).Pending b) :
    g.Pending b := by
  rcases h with hwaits | ⟨p, hp⟩
  · exact Or.inl hwaits
  · exact Or.inr ⟨p, List.mem_of_mem_erase hp⟩

theorem mem_ran_returned [DecidableEq ω] [DecidableEq α] {p : Option ω} {ok ok' : Bool}
    (h : (o, b, ok') ∈ (g.ran (p, a) ok).returned) :
    (o, b, ok') ∈ g.returned ∨ p = some o ∧ b = a ∧ ok' = ok := by
  cases p with
  | none => exact Or.inl h
  | some p =>
    rcases List.mem_append.mp h with hold | hnew
    · exact Or.inl hold
    · cases List.mem_singleton.mp hnew
      exact Or.inr ⟨rfl, rfl, rfl⟩

theorem grant_pending {rest : List (ω × α)} (h : g.waiters = (o, a) :: rest) :
    (({ g with waiters := rest } : Gate ω α).submit o a).Pending b ↔ g.Pending b := by
  rw [submit_pending, Pending, Pending, h]
  refine ⟨fun hp => ?_, fun hp => ?_⟩
  · rcases hp with (⟨p, hp⟩ | hjob) | rfl
    · exact Or.inl ⟨p, List.mem_cons_of_mem _ hp⟩
    · exact Or.inr hjob
    · exact Or.inl ⟨o, List.mem_cons_self⟩
  · rcases hp with ⟨p, hp⟩ | hjob
    · rcases List.mem_cons.mp hp with heq | hp
      · exact Or.inr (Prod.mk.inj heq).2
      · exact Or.inl (Or.inl ⟨p, hp⟩)
    · exact Or.inl (Or.inr hjob)

end Rules

end Gate
