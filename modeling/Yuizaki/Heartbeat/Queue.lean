import Yuizaki.Heartbeat.Goals

/- The goal queue over every sequence of registrations, ends, saves, crashes and restarts.

   The queue never holds more than its maximum (`Step.bounded`). What the file and the snapshots
   say of a goal is what the queue says of it, or an earlier state (`Agrees`), so a terminal goal
   keeps its state until a restart reads a file that has it open (`Step.settled`). A registration
   is refused for want of a goal that can be evicted, and interrupted goals cannot
   (`refused_iff_findsRoom`). -/
namespace Heartbeat

open Transition

/-! ## Statements -/

/-- The file or a snapshot that is to be written has a goal in a state. -/
def GoalQueue.Records (s : GoalQueue) (goalId : String) (state : GoalState) : Prop :=
  (∃ kept, (loadedGoals s.file).get goalId = some kept ∧ kept.state = state) ∨
  ∃ snapshot ∈ s.saves, ∃ kept ∈ snapshot, PyStr.strip kept.goalId = goalId ∧ kept.state = state

/-- A restart that reads the file does not find a goal open there that was terminal; one that
was interrupted is interrupted again. -/
def FindsEnded (goalId : String) (state : GoalState) (s : GoalQueue) (op : GoalOp) : Prop :=
  ∀ written now kept, op = .restart true written now → (loadedGoals s.file).get goalId = some kept →
    kept.state.terminal = true ∨ state = .interrupted

/-- A step that finds a goal ended where it was. -/
def GoalQueue.EndedStep (goalId : String) (state : GoalState) (s : GoalQueue) (op : GoalOp) (s' : GoalQueue) : Prop :=
  s.Step op s' ∧ FindsEnded goalId state s op

/-- A registration is refused only where the queue is full of goals that are not terminal. -/
def RefusedWhenFull (s : GoalQueue) (goalId : String) (r : GoalRequest) (now : ℚ) : Prop :=
  s.registerGoal goalId r now = none → maxHeartbeatGoals ≤ s.goals.keys.length ∧
    ∀ k goal, s.goals.get k = some goal → goal.state.terminal = false

/-- There is room in the queue, or a goal in it that can be evicted, or none of its goals is
interrupted. -/
def FindsRoom (s : GoalQueue) : Prop :=
  s.goals.keys.length < maxHeartbeatGoals ∨ (∃ k goal, s.goals.get k = some goal ∧ goal.state.evictable = true) ∨
    ∀ k goal, s.goals.get k = some goal → goal.state ≠ .interrupted

/-! ## Snapshots and files -/

section Files

variable {goals : Dict String Goal} {file snapshot : List Goal} {kept : Goal} {goalId : String}

theorem mem_goalSnapshot (h : kept ∈ goalSnapshot goals) :
    ∃ k goal, goals.get k = some goal ∧ kept.goalId = goal.goalId ∧ kept.state = goal.state := by
  have hsorted := List.mem_of_mem_take h
  rw [List.mem_insertionSort] at hsorted
  obtain ⟨e, he, rfl⟩ := List.mem_map.mp hsorted
  exact ⟨e.1, e.2, Dict.get_eq_some.mpr he, rfl, rfl⟩

theorem mem_lastGoals (h : kept ∈ lastGoals file) : kept ∈ file := List.mem_of_mem_drop h

theorem mem_savedGoals (h : kept ∈ savedGoals snapshot) : kept ∈ snapshot := mem_lastGoals (List.mem_filter.mp h).1

theorem get_foldl_set (gs : List Goal) (d : Dict String Goal)
    (h : (gs.foldl (fun goals goal => goals.set (PyStr.strip goal.goalId) goal) d).get goalId = some kept) :
    d.get goalId = some kept ∨ kept ∈ gs ∧ PyStr.strip kept.goalId = goalId := by
  induction gs generalizing d with
  | nil => exact Or.inl h
  | cons goal rest ih =>
    obtain hold | ⟨hmem, hid⟩ := ih _ h
    · rw [Dict.get_set] at hold
      split at hold
      · rename_i heq
        obtain rfl := Option.some.inj hold
        exact Or.inr ⟨List.mem_cons_self, heq.symm⟩
      · exact Or.inl hold
    · exact Or.inr ⟨List.mem_cons_of_mem _ hmem, hid⟩

theorem mem_loadedGoals (h : (loadedGoals file).get goalId = some kept) :
    kept ∈ file ∧ PyStr.strip kept.goalId = goalId := by
  obtain hnone | ⟨hmem, hid⟩ := get_foldl_set _ _ h
  · cases hnone
  · have hread : kept ∈ readGoals file := mem_lastGoals (List.mem_filter.mp hmem).1
    exact ⟨(List.mem_filter.mp (mem_lastGoals hread)).1, hid⟩

theorem length_lastGoals : (lastGoals file).length ≤ maxHeartbeatGoals := by
  unfold lastGoals
  rw [List.length_drop]
  omega

theorem length_foldl_set (gs : List Goal) (d : Dict String Goal) :
    (gs.foldl (fun goals goal => goals.set (PyStr.strip goal.goalId) goal) d).keys.length ≤
      d.keys.length + gs.length := by
  induction gs generalizing d with
  | nil => exact le_refl _
  | cons goal rest ih =>
    have hrest := ih (d.set (PyStr.strip goal.goalId) goal)
    have hset : (d.set (PyStr.strip goal.goalId) goal).keys.length ≤ d.keys.length + 1 := Dict.length_keys_set_le
    rw [List.foldl_cons, List.length_cons]
    omega

theorem length_loadedGoals : (loadedGoals file).keys.length ≤ maxHeartbeatGoals := by
  have hfold := length_foldl_set ((lastGoals (readGoals file)).filter fun goal => PyStr.strip goal.goalId ≠ "")
    Dict.empty
  have hfilter := List.length_filter_le (fun goal : Goal => decide (PyStr.strip goal.goalId ≠ ""))
    (lastGoals (readGoals file))
  have hlast : (lastGoals (readGoals file)).length ≤ maxHeartbeatGoals := length_lastGoals
  have hempty : (Dict.empty : Dict String Goal).keys.length = 0 := rfl
  unfold loadedGoals
  omega

end Files

section Steps

variable {s s' : GoalQueue} {op : GoalOp} {goalId : String} {state : GoalState} {goals : Dict String Goal}
  {r : GoalRequest} {now : ℚ} {goal : Goal}

/-! ## What is recorded -/

theorem records_changed (h : (s.changed goals).Records goalId state) : s.Records goalId state ∨
    ∃ k goal, goals.get k = some goal ∧ PyStr.strip goal.goalId = goalId ∧ goal.state = state := by
  obtain hfile | ⟨snapshot, hsnapshot, kept, hkept, hid, hstate⟩ := h
  · exact Or.inl (Or.inl hfile)
  · obtain hold | hnew := List.mem_append.mp hsnapshot
    · exact Or.inl (Or.inr ⟨snapshot, hold, kept, hkept, hid, hstate⟩)
    · rw [List.mem_singleton.mp hnew] at hkept
      obtain ⟨k, goal, hgoal, hsameId, hsameState⟩ := mem_goalSnapshot hkept
      exact Or.inr ⟨k, goal, hgoal, hsameId ▸ hid, hsameState ▸ hstate⟩

theorem save_keeps (s : GoalQueue) (i : ℕ) (written : Bool) :
    (s.save i written).goals = s.goals ∧ (s.save i written).ids = s.ids := by
  unfold GoalQueue.save
  split
  · exact ⟨rfl, rfl⟩
  · exact ⟨rfl, rfl⟩

theorem records_save {i : ℕ} {written : Bool} (h : (s.save i written).Records goalId state) :
    s.Records goalId state := by
  unfold GoalQueue.save at h
  cases hi : s.saves[i]? with
  | none =>
    rw [hi] at h
    exact h
  | some snapshot =>
    rw [hi] at h
    obtain ⟨kept, hkept, hstate⟩ | ⟨other, hother, hkept⟩ := h
    · cases written with
      | false => exact Or.inl ⟨kept, hkept, hstate⟩
      | true =>
        obtain ⟨hmem, hid⟩ := mem_loadedGoals hkept
        exact Or.inr ⟨snapshot, List.mem_of_getElem? hi, kept, mem_savedGoals hmem, hid, hstate⟩
    · exact Or.inr ⟨other, List.mem_of_mem_eraseIdx hother, hkept⟩

theorem restart_file {readable written : Bool} : (s.restart readable written now).file = s.file ∨
    (s.restart readable written now).file = savedGoals (goalSnapshot (s.restart readable written now).goals) :=
  (ite_eq_or_eq _ _ _).symm

theorem records_restart {readable written : Bool} (h : (s.restart readable written now).Records goalId state) :
    (∃ kept, (loadedGoals s.file).get goalId = some kept ∧ kept.state = state) ∨ ∃ k goal, (s.restart readable written now).goals.get k = some goal ∧
      PyStr.strip goal.goalId = goalId ∧ goal.state = state := by
  obtain ⟨kept, hkept, hstate⟩ | ⟨snapshot, hnone, -⟩ := h
  · obtain hfile | hfile := restart_file (s := s)
    · rw [hfile] at hkept
      exact Or.inl ⟨kept, hkept, hstate⟩
    · rw [hfile] at hkept
      obtain ⟨hmem, hid⟩ := mem_loadedGoals hkept
      obtain ⟨k, goal, hgoal, hsameId, hsameState⟩ := mem_goalSnapshot (mem_savedGoals hmem)
      exact Or.inr ⟨k, goal, hgoal, hsameId ▸ hid, hsameState ▸ hstate⟩
  · cases hnone

theorem get_restart {readable written : Bool} (h : (s.restart readable written now).goals.get goalId = some goal) :
    readable = true ∧ ∃ kept, (loadedGoals s.file).get goalId = some kept ∧ kept.restored now = goal := by
  have hloaded : ((if readable then loadedGoals s.file else Dict.empty).mapValues
      fun _ goal => goal.restored now).get goalId = some goal := h
  rw [Dict.get_mapValues] at hloaded
  cases readable with
  | false => cases hloaded
  | true => exact ⟨rfl, Option.map_eq_some_iff.mp hloaded⟩

theorem restored_goalId : (goal.restored now).goalId = goal.goalId := by
  unfold Goal.restored
  split <;> rfl

theorem restored_ended (h : goal.state.terminal = true) : goal.restored now = goal := if_pos h

theorem restored_open (h : ¬ goal.state.terminal = true) : (goal.restored now).state = .interrupted := by
  unfold Goal.restored
  rw [if_neg h]

/-! ## What a step does to the queue -/

theorem goal_asked (h : r.goal goalId now = some goal) : goal.goalId = goalId ∧ goal.state = .pending := by
  unfold GoalRequest.goal at h
  simp only [Option.bind_eq_bind, Option.bind_eq_some_iff] at h
  obtain ⟨rawDue, -, rawExpiry, -, rawCooldown, -, hgoal⟩ := h
  obtain rfl := Option.some.inj hgoal
  exact ⟨rfl, rfl⟩

/-- A registration that is not refused puts a pending goal into the queue, where it had room or
made room by evicting a goal. -/
theorem registerGoal_some (h : s.registerGoal goalId r now = some s') : ∃ goal, ∃ kept : Dict String Goal,
    r.goal goalId now = some goal ∧ (∀ k old, kept.get k = some old → s.goals.get k = some old) ∧
      (s.goals.keys.length ≤ maxHeartbeatGoals → kept.keys.length < maxHeartbeatGoals) ∧
      s' = { s with ids := goalId :: s.ids }.changed (kept.set goalId goal) := by
  unfold GoalQueue.registerGoal at h
  obtain ⟨goal, hgoal, h⟩ := Option.bind_eq_some_iff.mp h
  dsimp only at h
  split at h
  · obtain ⟨terminal, hterminal, h⟩ := Option.bind_eq_some_iff.mp h
    have hthere : s.goals.get terminal.1 = some terminal.2 := Dict.get_eq_some.mpr (List.mem_of_find?_eq_some hterminal)
    refine ⟨goal, s.goals.erase terminal.1, hgoal, fun k old hold => ?_, fun hbound => ?_, (Option.some.inj h).symm⟩
    · exact Dict.erase_within terminal.1 k old hold
    · have hlength := Dict.length_keys_erase (d := s.goals) (k := terminal.1) (by rw [hthere]; exact Option.some_ne_none _)
      omega
  · rename_i hroom
    exact ⟨goal, s.goals, hgoal, fun k old hold => hold, fun _ => not_le.mp hroom, (Option.some.inj h).symm⟩

theorem finishGoal_cases (s : GoalQueue) (goalId : String) (outcome : Outcome) (reason : Option String) (now : ℚ) :
    s.finishGoal goalId outcome reason now = s ∨
    ∃ old new, s.goals.get goalId = some old ∧ old.state.terminal = false ∧ new.goalId = old.goalId ∧
      s.finishGoal goalId outcome reason now = s.changed (s.goals.set goalId new) := by
  unfold GoalQueue.finishGoal
  cases hgoal : s.goals.get goalId with
  | none => exact Or.inl rfl
  | some old =>
    dsimp only
    split
    · exact Or.inl rfl
    · rename_i hopen
      refine Or.inr ⟨old, _, rfl, Bool.not_eq_true _ ▸ hopen, ?_, rfl⟩
      rfl

/-! ## The queue is bounded -/

theorem GoalQueue.Step.bounded (h : s.Step op s') (hbound : s.goals.keys.length ≤ maxHeartbeatGoals) :
    s'.goals.keys.length ≤ maxHeartbeatGoals := by
  unfold GoalQueue.Step GoalQueue.next at h
  cases op with
  | register goalId r now =>
    dsimp only at h
    split at h
    · obtain rfl := Option.some.inj h
      cases hregister : s.registerGoal goalId r now with
      | none => exact hbound
      | some registered =>
        obtain ⟨goal, kept, -, -, hroom, rfl⟩ := registerGoal_some hregister
        have hset : (kept.set goalId goal).keys.length ≤ kept.keys.length + 1 := Dict.length_keys_set_le
        have hless := hroom hbound
        show (kept.set goalId goal).keys.length ≤ maxHeartbeatGoals
        omega
    · cases h
  | finish goalId outcome reason now =>
    obtain rfl := Option.some.inj h
    obtain hsame | ⟨old, new, hold, -, -, hnew⟩ := finishGoal_cases s goalId outcome reason now
    · rw [hsame]
      exact hbound
    · rw [hnew]
      show (s.goals.set goalId new).keys.length ≤ maxHeartbeatGoals
      rw [Dict.length_keys_set (by rw [hold]; exact Option.some_ne_none old)]
      exact hbound
  | persist =>
    obtain rfl := Option.some.inj h
    exact hbound
  | save i written =>
    obtain rfl := Option.some.inj h
    unfold GoalQueue.save
    split
    · exact hbound
    · exact hbound
  | restart readable written now =>
    obtain rfl := Option.some.inj h
    have hlength : (s.restart readable written now).goals.keys.length =
        (if readable then loadedGoals s.file else Dict.empty).keys.length := by
      unfold GoalQueue.restart Dict.keys Dict.mapValues
      simp only [List.length_map]
    rw [hlength]
    cases readable with
    | false => exact Nat.zero_le _
    | true => exact length_loadedGoals

/-! ## The queue, the file and the snapshots agree -/

/-- Goals stand under their ids, which are known, and what is recorded of a goal that is in the
queue as terminal is its state. -/
structure Agrees (s : GoalQueue) : Prop where
  keyed : ∀ k goal, s.goals.get k = some goal → PyStr.strip goal.goalId = k ∧ k ∈ s.ids
  known : ∀ k state, s.Records k state → k ∈ s.ids
  agree : ∀ k goal state, s.goals.get k = some goal → s.Records k state → state.terminal = true → goal.state = state

theorem agrees_changed (hkeyed : ∀ k goal, goals.get k = some goal → PyStr.strip goal.goalId = k ∧ k ∈ s.ids)
    (hknown : ∀ k state, s.Records k state → k ∈ s.ids)
    (hagree : ∀ k goal state, goals.get k = some goal → s.Records k state → state.terminal = true →
      goal.state = state) : Agrees (s.changed goals) where
  keyed := hkeyed
  known k state h := by
    obtain hold | ⟨k', goal, hgoal, hid, -⟩ := records_changed h
    · exact hknown k state hold
    · obtain ⟨hk', hmem⟩ := hkeyed k' goal hgoal
      exact hid ▸ hk' ▸ hmem
  agree k goal state hgoal h hterminal := by
    obtain hold | ⟨k', goal', hgoal', hid, hstate⟩ := records_changed h
    · exact hagree k goal state hgoal hold hterminal
    · obtain rfl : k' = k := (hkeyed k' goal' hgoal').1.symm.trans hid
      obtain rfl := Option.some.inj (hgoal.symm.trans hgoal')
      exact hstate

theorem GoalQueue.Step.agrees (h : s.Step op s') (hagrees : Agrees s) : Agrees s' := by
  unfold GoalQueue.Step GoalQueue.next at h
  cases op with
  | register goalId r now =>
    dsimp only at h
    split at h
    · rename_i hfresh
      obtain ⟨hfresh, hblank⟩ := hfresh
      obtain rfl := Option.some.inj h
      cases hregister : s.registerGoal goalId r now with
      | none => exact hagrees
      | some registered =>
        obtain ⟨goal, kept, hasked, hkept, -, rfl⟩ := registerGoal_some hregister
        have hmember : ∀ k old, (kept.set goalId goal).get k = some old →
            k = goalId ∧ old = goal ∨ k ≠ goalId ∧ s.goals.get k = some old := by
          intro k old hold
          rw [Dict.get_set] at hold
          split at hold
          · rename_i heq
            exact Or.inl ⟨heq, (Option.some.inj hold).symm⟩
          · rename_i hne
            exact Or.inr ⟨hne, hkept k old hold⟩
        refine agrees_changed (fun k old hold => ?_) (fun k state hrecord => ?_) fun k old state hold hrecord hterminal => ?_
        · obtain ⟨rfl, rfl⟩ | ⟨-, hbefore⟩ := hmember k old hold
          · rw [(goal_asked hasked).1]
            exact ⟨hblank, List.mem_cons_self⟩
          · obtain ⟨hid, hmem⟩ := hagrees.keyed k old hbefore
            exact ⟨hid, List.mem_cons_of_mem _ hmem⟩
        · exact List.mem_cons_of_mem _ (hagrees.known k state hrecord)
        · obtain ⟨rfl, rfl⟩ | ⟨-, hbefore⟩ := hmember k old hold
          · exact absurd (hagrees.known k state hrecord) hfresh
          · exact hagrees.agree k old state hbefore hrecord hterminal
    · cases h
  | finish goalId outcome reason now =>
    obtain rfl := Option.some.inj h
    obtain hsame | ⟨old, new, hold, hopen, hid, hnew⟩ := finishGoal_cases s goalId outcome reason now
    · rw [hsame]
      exact hagrees
    · rw [hnew]
      refine agrees_changed (fun k goal hgoal => ?_) hagrees.known fun k goal state hgoal hrecord hterminal => ?_
      · rw [Dict.get_set] at hgoal
        split at hgoal
        · rename_i heq
          obtain rfl := Option.some.inj hgoal
          rw [hid, heq]
          exact hagrees.keyed goalId old hold
        · exact hagrees.keyed k goal hgoal
      · rw [Dict.get_set] at hgoal
        split at hgoal
        · -- an open goal has no terminal record
          rename_i heq
          have hstate := hagrees.agree goalId old state hold (heq ▸ hrecord) hterminal
          rw [hstate, hterminal] at hopen
          cases hopen
        · exact hagrees.agree k goal state hgoal hrecord hterminal
  | persist =>
    obtain rfl := Option.some.inj h
    exact agrees_changed hagrees.keyed hagrees.known hagrees.agree
  | save i written =>
    obtain rfl := Option.some.inj h
    obtain ⟨hgoals, hids⟩ := save_keeps s i written
    constructor
    · rw [hgoals, hids]
      exact hagrees.keyed
    · intro k state hrecord
      rw [hids]
      exact hagrees.known k state (records_save hrecord)
    · intro k goal state hgoal hrecord hterminal
      rw [hgoals] at hgoal
      exact hagrees.agree k goal state hgoal (records_save hrecord) hterminal
  | restart readable written now =>
    obtain rfl := Option.some.inj h
    have hkeyed : ∀ k goal, (s.restart readable written now).goals.get k = some goal →
        PyStr.strip goal.goalId = k ∧ k ∈ s.ids := by
      intro k goal hgoal
      obtain ⟨-, kept, hkept, rfl⟩ := get_restart hgoal
      rw [restored_goalId]
      exact ⟨(mem_loadedGoals hkept).2, hagrees.known k kept.state (Or.inl ⟨kept, hkept, rfl⟩)⟩
    constructor
    · exact hkeyed
    · intro k state hrecord
      obtain hfile | ⟨k', goal, hgoal, hid, -⟩ := records_restart hrecord
      · exact hagrees.known k state (Or.inl hfile)
      · obtain ⟨hk', hmem⟩ := hkeyed k' goal hgoal
        exact hid ▸ hk' ▸ hmem
    · intro k goal state hgoal hrecord hterminal
      obtain ⟨kept, hkept, hstate⟩ | ⟨k', goal', hgoal', hid, hstate⟩ := records_restart hrecord
      · obtain ⟨-, kept', hkept', rfl⟩ := get_restart hgoal
        obtain rfl := Option.some.inj (hkept.symm.trans hkept')
        rw [restored_ended (by rw [hstate]; exact hterminal)]
        exact hstate
      · obtain rfl : k' = k := (hkeyed k' goal' hgoal').1.symm.trans hid
        obtain rfl := Option.some.inj (hgoal.symm.trans hgoal')
        exact hstate

/-! ## A goal that has ended -/

/-- A known goal is nowhere terminal in another state. -/
structure Settled (goalId : String) (state : GoalState) (s : GoalQueue) : Prop where
  known : goalId ∈ s.ids
  queue : ∀ goal, s.goals.get goalId = some goal → goal.state = state
  recorded : ∀ other, s.Records goalId other → other.terminal = true → other = state

theorem settled_changed (hagrees : Agrees (s.changed goals)) (hknown : goalId ∈ s.ids)
    (hqueue : ∀ goal, goals.get goalId = some goal → goal.state = state)
    (hrecorded : ∀ other, s.Records goalId other → other.terminal = true → other = state) :
    Settled goalId state (s.changed goals) where
  known := hknown
  queue := hqueue
  recorded other h hterminal := by
    obtain hold | ⟨k, goal, hgoal, hid, hstate⟩ := records_changed h
    · exact hrecorded other hold hterminal
    · obtain rfl : k = goalId := (hagrees.keyed k goal hgoal).1.symm.trans hid
      exact hstate.symm.trans (hqueue goal hgoal)

theorem GoalQueue.EndedStep.settled (h : s.EndedStep goalId state op s') (hagrees : Agrees s)
    (hended : state.terminal = true) (hsettled : Settled goalId state s) : Settled goalId state s' := by
  obtain ⟨hstep, hfinds⟩ := h
  have hagrees' : Agrees s' := hstep.agrees hagrees
  unfold GoalQueue.Step GoalQueue.next at hstep
  cases op with
  | register newId r now =>
    dsimp only at hstep
    split at hstep
    · rename_i hfresh
      obtain rfl := Option.some.inj hstep
      cases hregister : s.registerGoal newId r now with
      | none => exact hsettled
      | some registered =>
        rw [hregister] at hagrees'
        obtain ⟨goal, kept, -, hkept, -, rfl⟩ := registerGoal_some hregister
        refine settled_changed hagrees' (List.mem_cons_of_mem _ hsettled.known) (fun old hold => ?_) hsettled.recorded
        have hother : goalId ≠ newId := fun heq => hfresh.1 (heq ▸ hsettled.known)
        rw [Dict.get_set_of_ne hother] at hold
        exact hsettled.queue old (hkept goalId old hold)
    · cases hstep
  | finish endedId outcome reason now =>
    obtain rfl := Option.some.inj hstep
    obtain hsame | ⟨old, new, hold, hopen, hid, hnew⟩ := finishGoal_cases s endedId outcome reason now
    · rw [hsame]
      exact hsettled
    · rw [hnew] at hagrees' ⊢
      refine settled_changed hagrees' hsettled.known (fun goal hgoal => ?_) hsettled.recorded
      have hother : goalId ≠ endedId := by
        intro heq
        rw [hsettled.queue old (heq ▸ hold), hended] at hopen
        cases hopen
      rw [Dict.get_set_of_ne hother] at hgoal
      exact hsettled.queue goal hgoal
  | persist =>
    obtain rfl := Option.some.inj hstep
    exact settled_changed hagrees' hsettled.known hsettled.queue hsettled.recorded
  | save i written =>
    obtain rfl := Option.some.inj hstep
    obtain ⟨hgoals, hids⟩ := save_keeps s i written
    constructor
    · rw [hids]
      exact hsettled.known
    · rw [hgoals]
      exact hsettled.queue
    · intro other hrecord
      exact hsettled.recorded other (records_save hrecord)
  | restart readable written now =>
    obtain rfl := Option.some.inj hstep
    have hqueue : ∀ goal, (s.restart readable written now).goals.get goalId = some goal → goal.state = state := by
      intro goal hgoal
      obtain ⟨rfl, kept, hkept, rfl⟩ := get_restart hgoal
      by_cases hkeptEnded : kept.state.terminal = true
      · rw [restored_ended hkeptEnded]
        exact hsettled.recorded kept.state (Or.inl ⟨kept, hkept, rfl⟩) hkeptEnded
      · rw [restored_open hkeptEnded]
        obtain hfound | hinterrupted := hfinds written now kept rfl hkept
        · exact absurd hfound hkeptEnded
        · exact hinterrupted.symm
    constructor
    · exact hsettled.known
    · exact hqueue
    · intro other hrecord hterminal
      obtain hfile | ⟨k, goal, hgoal, hid, hstate⟩ := records_restart hrecord
      · exact hsettled.recorded other (Or.inl hfile) hterminal
      · obtain rfl : k = goalId := (hagrees'.keyed k goal hgoal).1.symm.trans hid
        exact hstate.symm.trans (hqueue goal hgoal)

/-! ## Refused registrations -/

theorem goal_finite (goalId : String) (now : ℚ) (h : r.Finite) : (r.goal goalId now).isSome := by
  obtain ⟨hdue, hexpiry, hcooldown⟩ := h
  have hvalue : ∀ number : Number, number ≠ .notFinite → ∃ value, number.value? = some value := by
    intro number hfinite
    cases number with
    | finite value => exact ⟨value, rfl⟩
    | notFinite => exact absurd rfl hfinite
  have hrawDue : r.dueAt.getD (.finite now) ≠ .notFinite := by
    cases hgiven : r.dueAt with
    | none => exact fun h => by cases h
    | some due => exact hdue due hgiven
  have hrawExpiry : ∃ expiry, Number.optional? r.expiresAt = some expiry := by
    cases hgiven : r.expiresAt with
    | none => exact ⟨none, rfl⟩
    | some expiry =>
      obtain ⟨value, hfinite⟩ := hvalue expiry (hexpiry expiry hgiven)
      exact ⟨some value, by unfold Number.optional?; simp [hfinite]⟩
  obtain ⟨due, hdue⟩ := hvalue _ hrawDue
  obtain ⟨expiry, hexpiry⟩ := hrawExpiry
  obtain ⟨cooldown, hcooldown⟩ := hvalue _ hcooldown
  unfold GoalRequest.goal
  rw [hdue, hexpiry, hcooldown]
  rfl

theorem registerGoal_none (h : r.Finite) : s.registerGoal goalId r now = none ↔
    maxHeartbeatGoals ≤ s.goals.keys.length ∧ ∀ k goal, s.goals.get k = some goal → goal.state.evictable = false := by
  obtain ⟨goal, hgoal⟩ := Option.isSome_iff_exists.mp (goal_finite goalId now h)
  unfold GoalQueue.registerGoal
  rw [hgoal]
  show (if maxHeartbeatGoals ≤ s.goals.keys.length then _ else _) = _ ↔ _
  split
  · rename_i hfull
    rw [Option.bind_eq_bind, Option.bind_eq_none_iff]
    constructor
    · intro hnone
      refine ⟨hfull, fun k old hold => ?_⟩
      cases hfind : s.goals.entries.find? fun e => e.2.state.evictable with
      | some e => cases hnone e hfind
      | none => exact Bool.eq_false_iff.mpr (List.find?_eq_none.mp hfind (k, old) (Dict.get_eq_some.mp hold))
    · intro ⟨_, hnone⟩ e hfind
      have hevictable := List.find?_some hfind
      rw [hnone e.1 e.2 (Dict.get_eq_some.mpr (List.mem_of_find?_eq_some hfind))] at hevictable
      cases hevictable
  · rename_i hroom
    exact ⟨fun hnone => (by cases hnone), fun hfull => absurd hfull.1 hroom⟩

theorem terminal_cases (hkept : state.evictable = false) (hother : state ≠ .interrupted) :
    state.terminal = false := by
  cases state with
  | pending => rfl
  | interrupted => exact absurd rfl hother
  | _ => cases hkept

theorem refused_iff_findsRoom (h : r.Finite) : RefusedWhenFull s goalId r now ↔ FindsRoom s := by
  unfold RefusedWhenFull
  rw [registerGoal_none h]
  constructor
  · intro hrefused
    by_cases hfull : maxHeartbeatGoals ≤ s.goals.keys.length
    · by_cases hevict : ∃ k goal, s.goals.get k = some goal ∧ goal.state.evictable = true
      · exact Or.inr (Or.inl hevict)
      · have hkept : ∀ k goal, s.goals.get k = some goal → goal.state.evictable = false :=
          fun k goal hgoal => Bool.eq_false_iff.mpr fun hevictable => hevict ⟨k, goal, hgoal, hevictable⟩
        refine Or.inr (Or.inr fun k goal hgoal hinterrupted => ?_)
        have hopen := (hrefused ⟨hfull, hkept⟩).2 k goal hgoal
        rw [hinterrupted] at hopen
        cases hopen
    · exact Or.inl (not_le.mp hfull)
  · intro hfinds ⟨hfull, hkept⟩
    refine ⟨hfull, fun k goal hgoal => ?_⟩
    obtain hroom | ⟨k', goal', hgoal', hevictable⟩ | hnone := hfinds
    · exact absurd hfull (not_le.mpr hroom)
    · rw [hkept k' goal' hgoal'] at hevictable
      cases hevictable
    · exact terminal_cases (hkept k goal hgoal) (hnone k goal hgoal)

end Steps

/-! ## Every run -/

section Runs

variable {file : List Goal} {t₀ : ℚ} {hist : List GoalOp} {s : GoalQueue}

theorem start_agrees : Agrees (GoalQueue.start file t₀) := by
  have hstep : GoalQueue.Step ⟨Dict.empty, [], file, (loadedGoals file).keys⟩ (.restart true false t₀)
      (GoalQueue.start file t₀) := rfl
  refine hstep.agrees ⟨fun k goal hgoal => (by cases hgoal), fun k state hrecord => ?_, fun k goal state hgoal => ?_⟩
  · obtain ⟨kept, hkept, -⟩ | ⟨snapshot, hnone, -⟩ := hrecord
    · exact Dict.mem_keys.mpr ⟨kept, hkept⟩
    · cases hnone
  · cases hgoal

theorem run_agrees (hrun : Run GoalQueue.Step (GoalQueue.start file t₀) hist s) : Agrees s :=
  hrun.invariant start_agrees fun _ _ _ hagrees hstep => GoalQueue.Step.agrees hstep hagrees

/-- In every run on every file: the queue never holds more than its maximum; a terminal goal
keeps its state, as long as no restart reads a file that has it open; and a registration with
finite numbers is refused only where the queue is full of goals that are not terminal, exactly
where the queue has room, or a goal that can be evicted, or no interrupted goal. -/
theorem goal_queue (file : List Goal) (t₀ : ℚ) :
    (∀ hist s, Run GoalQueue.Step (GoalQueue.start file t₀) hist s → s.goals.keys.length ≤ maxHeartbeatGoals) ∧
    (∀ older s₁ newer s goalId old new, Run GoalQueue.Step (GoalQueue.start file t₀) older s₁ →
      s₁.goals.get goalId = some old → old.state.terminal = true →
      Run (GoalQueue.EndedStep goalId old.state) s₁ newer s → s.goals.get goalId = some new →
      new.state = old.state) ∧
    ∀ hist s goalId r now, Run GoalQueue.Step (GoalQueue.start file t₀) hist s → r.Finite →
      (RefusedWhenFull s goalId r now ↔ FindsRoom s) := by
  refine ⟨fun hist s hrun => ?_, fun older s₁ newer s goalId old new hbefore hold hended hrun hnew => ?_, ?_⟩
  · refine hrun.invariant (I := fun s => s.goals.keys.length ≤ maxHeartbeatGoals) ?_ ?_
    · have hstep : GoalQueue.Step ⟨Dict.empty, [], file, (loadedGoals file).keys⟩ (.restart true false t₀)
          (GoalQueue.start file t₀) := rfl
      exact hstep.bounded (Nat.zero_le _)
    · intro s op s' hbound hstep
      exact GoalQueue.Step.bounded hstep hbound
  · have hagrees : Agrees s₁ := run_agrees hbefore
    have hfirst : Settled goalId old.state s₁ := by
      refine ⟨(hagrees.keyed goalId old hold).2, fun goal hgoal => ?_, fun other hrecord hterminal => ?_⟩
      · rw [Option.some.inj (hgoal.symm.trans hold)]
      · exact (hagrees.agree goalId old other hold hrecord hterminal).symm
    have hlast : Agrees s ∧ Settled goalId old.state s := by
      refine hrun.invariant (I := fun s => Agrees s ∧ Settled goalId old.state s) ⟨hagrees, hfirst⟩ ?_
      intro s op s' ⟨hagrees, hsettled⟩ hstep
      exact ⟨hstep.1.agrees hagrees, hstep.settled hagrees hended hsettled⟩
    exact hlast.2.queue new hnew
  · intro hist s goalId r now _ hfinite
    exact refused_iff_findsRoom hfinite

end Runs

/-! ## A queue of interrupted goals -/

def reminderRequest : GoalRequest := ⟨"reminder", none, 2, .finite 0, none, .obj []⟩

/-- The file of a process that registered as many reminders as the queue holds. -/
def fullFile : List Goal :=
  (List.range maxHeartbeatGoals).map fun n => ⟨toString n, "reminder", 0, 2, 0, none, .pending, 0, 0, .obj [], none⟩

/-- The process after it, and the one after that. -/
def interruptedQueue : GoalQueue := GoalQueue.start fullFile 50

def restartedQueue : GoalQueue := interruptedQueue.restart true true 60

theorem interruptedQueue_first : (interruptedQueue.goals.get "0").map Goal.state = some .interrupted := by
  decide +kernel

theorem restartedQueue_first : (restartedQueue.goals.get "0").isSome := by decide +kernel

/-- A goal that was interrupted stays interrupted at the next start. -/
theorem goal_queue_restarted : ∃ goal, restartedQueue.goals.get "0" = some goal ∧ goal.state = .interrupted := by
  obtain ⟨old, hold, hinterrupted⟩ := Option.map_eq_some_iff.mp interruptedQueue_first
  obtain ⟨goal, hgoal⟩ := Option.isSome_iff_exists.mp restartedQueue_first
  have hended : old.state.terminal = true := by
    rw [hinterrupted]
    rfl
  have hstep : GoalQueue.EndedStep "0" old.state interruptedQueue (.restart true true 60) restartedQueue :=
    ⟨rfl, fun written now kept _ _ => Or.inr hinterrupted⟩
  have hsame := (goal_queue fullFile 50).2.1 [] interruptedQueue _ _ _ old goal Run.start hold hended
    (Run.next Run.start hstep) hgoal
  exact ⟨goal, hgoal, hsame.trans hinterrupted⟩

/-- A queue of interrupted goals, all of them terminal, refuses a registration. -/
theorem interrupted_refused : ∃ hist s, Run GoalQueue.Step (GoalQueue.start fullFile 50) hist s ∧
    reminderRequest.Finite ∧ ¬ RefusedWhenFull s "next" reminderRequest 60 := by
  have hfinite : reminderRequest.Finite :=
    ⟨fun due hdue => (by cases hdue), fun expiry hexpiry => (by cases hexpiry), fun hcooldown => by cases hcooldown⟩
  refine ⟨[], interruptedQueue, Run.start, hfinite, fun hrefused => ?_⟩
  have hnone : interruptedQueue.registerGoal "next" reminderRequest 60 = none := by decide +kernel
  obtain ⟨goal, hgoal, hinterrupted⟩ := Option.map_eq_some_iff.mp interruptedQueue_first
  have hopen := (hrefused hnone).2 _ goal hgoal
  rw [hinterrupted] at hopen
  cases hopen

end Heartbeat
