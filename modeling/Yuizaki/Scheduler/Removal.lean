import Yuizaki.Scheduler.Active

/- Tasks that were removed.

   `remove_task` cancels the run of a task and removes the task from the table and the file.
   Whoever still holds the task may write it back: a run that begins with its first write, a
   loop or a `run_now` that was refused room, a start that goes on with the tasks it found,
   or a write that was asked for before the removal ran. `removed_stays` says that a removed
   task stays removed along every run in which none of that happens (`Current`): no write is
   asked for of a task that is no longer in the table, and no removal runs while a write of
   its task is pending. -/
namespace Scheduler

open Transition SchedulerState

/-! ## The condition -/

/-- The task is written although it is no longer in the table: by the step of a coroutine
that holds it. -/
def Stale (s : SchedulerState) (id : String) : SchedulerLabel → Prop
  | .begin k => ∃ run, s.runs.get k = some run ∧ run.taskId = id
  | .returned n _ saved arrival => saved = true ∧
    (s.calls.get n = some (.queueing id) ∧ id ∉ s.activeTaskIds ∧ arrival.room = false ∨
      ∃ rest, s.calls.get n = some (.recovering (id :: rest)))
  | .loopReturned arrivals saved => saved = true ∧
    ∃ now rest, s.loop = .deferring now rest ∧ id ∈ rest ∧ id ∉ s.activeTaskIds ∧
      (arrivals id).room = false ∧ (s.heap.get id).any (fun task => task.due now) = true
  | _ => False

/-- The step writes no task that is not in the table, and runs no removal while a write of its
task is pending. -/
def Current (s : SchedulerState) (l : SchedulerLabel) : Prop :=
  (∀ id, Stale s id l → id ∈ s.tasks) ∧
    ∀ o id now, l = .executed o (.remove id) now true → ¬ s.storeLock.Pending (.upsert id)

def CurrentStep (s : SchedulerState) (l : SchedulerLabel) (s' : SchedulerState) : Prop :=
  SchedulerStep s l s' ∧ Current s l

/-- The removals that returned to their callers. -/
def Returned (id : String) (hist : List SchedulerLabel) : Prop :=
  ∃ n arrival, .returned n (.remove id) true arrival ∈ hist

def Removed (id : String) (hist : List SchedulerLabel) : Prop :=
  ∃ o now, .executed o (.remove id) now true ∈ hist

/-! ## What the parts of a step do to the store -/

/-- Every removal that waits for a run is of a task that exists. -/
def Known (s : SchedulerState) : Prop :=
  ∀ n k id, s.calls.get n = some (.cancelling k (some id)) → s.heap.get id ≠ none

/-- What a part of a step leaves of the store: the table, the file, the tasks that exist, and
the operations that are pending but for some. -/
structure Keeps (s s' : SchedulerState) (asked : StoreOp → Prop) : Prop where
  tasks : s'.tasks = s.tasks
  file : s'.file = s.file
  heap : ∀ id, s.heap.get id ≠ none → s'.heap.get id ≠ none
  pending : ∀ op, s'.storeLock.Pending op → s.storeLock.Pending op ∨ asked op
  returned : ∀ r ∈ s'.storeLock.returned, r ∈ s.storeLock.returned
  known : Known s → Known s'

abbrev Nothing : StoreOp → Prop := fun _ => False

section Parts

variable {s s' s'' : SchedulerState} {asked asked' : StoreOp → Prop}

theorem Keeps.refl (s : SchedulerState) : Keeps s s asked :=
  ⟨rfl, rfl, fun _ h => h, fun _ h => Or.inl h, fun _ h => h, fun h => h⟩

theorem Keeps.trans (h : Keeps s s' asked) (h' : Keeps s' s'' asked) : Keeps s s'' asked where
  tasks := h'.tasks.trans h.tasks
  file := h'.file.trans h.file
  heap := fun id hid => h'.heap id (h.heap id hid)
  pending := fun op hop => (h'.pending op hop).elim (h.pending op) Or.inr
  returned := fun r hr => h.returned r (h'.returned r hr)
  known := fun hs => h'.known (h.known hs)

theorem Keeps.same (htasks : s'.tasks = s.tasks) (hfile : s'.file = s.file)
    (hheap : s'.heap = s.heap) (hlock : s'.storeLock = s.storeLock) (hcalls : s'.calls = s.calls) :
    Keeps s s' asked where
  tasks := htasks
  file := hfile
  heap := fun _ h => by rwa [hheap]
  pending := fun _ h => Or.inl (by rwa [hlock] at h)
  returned := fun _ h => by rwa [hlock] at h
  known := fun hs n k id hcall => by
    rw [hheap]
    rw [hcalls] at hcall
    exact hs n k id hcall

theorem keeps_calls (s : SchedulerState) (calls : Dict ℕ Call)
    (hcalls : ∀ n k id, calls.get n = some (.cancelling k (some id)) →
      s.calls.get n = some (.cancelling k (some id)) ∨ s.heap.get id ≠ none) :
    Keeps s { s with calls } asked :=
  { Keeps.refl s with
    known := fun hs n k id hcall => (hcalls n k id hcall).elim (hs n k id) fun h => h }

theorem keeps_setCall (s : SchedulerState) (n : ℕ) (call : Call)
    (hcall : ∀ k id, call = .cancelling k (some id) → s.heap.get id ≠ none) :
    Keeps s (s.setCall n call) asked := by
  refine keeps_calls s _ fun n' k id h => ?_
  rw [Dict.get_set] at h
  split at h
  · exact Or.inr (hcall k id (Option.some.inj h))
  · exact Or.inl h

theorem keeps_endCall (s : SchedulerState) (n : ℕ) : Keeps s (s.endCall n) asked := by
  refine keeps_calls s _ fun n' k id h => ?_
  rw [Dict.get_erase] at h
  split at h
  · cases h
  · exact Or.inl h

theorem keeps_set (s : SchedulerState) (id : String) (task : ScheduledTask) :
    Keeps s { s with heap := s.heap.set id task } asked := by
  have hheap : ∀ id', s.heap.get id' ≠ none → (s.heap.set id task).get id' ≠ none := by
    intro id' hid'
    rw [Dict.get_set]
    split
    · exact Option.some_ne_none _
    · exact hid'
  exact ⟨rfl, rfl, hheap, fun _ h => Or.inl h, fun _ h => h,
    fun hs n k id' hcall => hheap id' (hs n k id' hcall)⟩

theorem keeps_mapTask (s : SchedulerState) (id : String) (f : ScheduledTask → ScheduledTask) :
    Keeps s (s.mapTask id f) asked := by
  rw [mapTask]
  split
  · exact Keeps.refl s
  · exact keeps_set s id _

theorem keeps_mapRun (s : SchedulerState) (k : ℕ) (f : ScheduledRun → ScheduledRun) :
    Keeps s (s.mapRun k f) asked := by
  rw [mapRun]
  split
  · exact Keeps.refl s
  · exact Keeps.same rfl rfl rfl rfl rfl

theorem keeps_lock (s : SchedulerState) (g : Gate Owner StoreOp)
    (hpending : ∀ op, g.Pending op → s.storeLock.Pending op ∨ asked op)
    (hreturned : ∀ r ∈ g.returned, r ∈ s.storeLock.returned) :
    Keeps s { s with storeLock := g } asked :=
  ⟨rfl, rfl, fun _ h => h, hpending, hreturned, fun h => h⟩

theorem keeps_request (s : SchedulerState) (o : Owner) {op : StoreOp} (hop : asked op) :
    Keeps s (s.request o op) asked := by
  refine keeps_lock s _ (fun op' h => ?_) (fun r hr => ?_)
  · exact (Gate.request_pending.mp h).imp_right fun heq => by rwa [heq]
  · have hsame : (s.storeLock.request o op).returned = s.storeLock.returned := by
      rw [Gate.request]
      split <;> rfl
    exact hsame ▸ hr

theorem keeps_leave (s : SchedulerState) (o : Owner) : Keeps s (s.leave o) asked :=
  keeps_lock s _ (fun _ h => Or.inl (Gate.leave_pending h)) fun _ h => (List.mem_filter.mp h).1

theorem keeps_take (s : SchedulerState) (o : Owner) (op : StoreOp) (ok : Bool) :
    Keeps s (s.take o op ok) asked :=
  keeps_lock s _ (fun _ h => Or.inl h) fun _ h => List.mem_of_mem_erase h

theorem keeps_trim (s : SchedulerState) : Keeps s s.trim asked := by
  have htrim (maxRuns n : ℕ) (s : SchedulerState) : Keeps s (trimRunHistory maxRuns n s) asked := by
    induction n generalizing s with
    | zero => exact Keeps.refl s
    | succ n ih =>
      rw [trimRunHistory]
      split
      · exact Keeps.refl s
      · split
        · exact Keeps.refl s
        · rename_i e _
          have hforget : Keeps s (s.forget e) asked := by
            rw [forget]
            split <;> exact Keeps.same rfl rfl rfl rfl rfl
          exact hforget.trans (ih _)
  exact htrim _ _ s

theorem keeps_launch (s : SchedulerState) (id : String) (arrival : Arrival) :
    Keeps s (s.launch id arrival) asked := by
  unfold launch
  dsimp only
  generalize hregistered : ({ s with
    activeTaskIds := insert id s.activeTaskIds
    runs := _
    nextRun := s.nextRun + 1
    runsByTask := _
    runsByJob := _
    runsById := _
    latestRunsByTask := _ } : SchedulerState) = t
  have hfirst : Keeps s t asked := by
    rw [← hregistered]
    exact Keeps.same rfl rfl rfl rfl rfl
  exact (hfirst.trans ((keeps_mapTask t id _).trans (keeps_trim _))).trans
    (Keeps.same rfl rfl rfl rfl rfl)

theorem keeps_queueTask (s : SchedulerState) (id : String) (arrival : Arrival) :
    Keeps s (s.queueTask id arrival).1 asked := by
  rw [queueTask]
  split
  · exact Keeps.refl s
  · split
    · exact keeps_launch s id arrival
    · exact keeps_mapTask s id _

theorem queueTask_refused {id : String} {arrival : Arrival}
    (h : (s.queueTask id arrival).2 = true) : id ∉ s.activeTaskIds ∧ arrival.room = false := by
  rw [queueTask] at h
  split at h
  · cases h
  · rename_i hidle
    split at h
    · cases h
    · rename_i hroom
      exact ⟨hidle, Bool.eq_false_iff.mpr hroom⟩

theorem keeps_endRun (s : SchedulerState) (k : ℕ) : Keeps s (s.endRun k) asked :=
  (keeps_mapRun s k _).trans (Keeps.same rfl rfl rfl rfl rfl)

theorem keeps_finalize (s : SchedulerState) (k : ℕ) (now : ℚ)
    (hasked : ∀ id ∈ s.tasks, asked (.upsert id)) : Keeps s (s.finalize k now) asked := by
  rw [finalize]
  split
  · exact Keeps.refl s
  · rename_i run hrun
    dsimp only
    generalize hdiscarded : ({ s with
      activeTaskIds := s.activeTaskIds.erase run.taskId
      runsByTask := s.runsByTask.erase run.taskId } : SchedulerState) = t
    have hfirst : Keeps s (t.mapTask run.taskId (ScheduledTask.rescheduled now)) asked := by
      have hdiscard : Keeps s t asked := by
        rw [← hdiscarded]
        exact Keeps.same rfl rfl rfl rfl rfl
      exact hdiscard.trans (keeps_mapTask t _ _)
    split
    · rename_i hstored
      rw [hfirst.tasks] at hstored
      exact (hfirst.trans (keeps_mapRun _ _ _)).trans
        (keeps_request _ _ (hasked run.taskId hstored))
    · exact (hfirst.trans (keeps_trim _)).trans (keeps_endRun _ _)

theorem keeps_settle (s : SchedulerState) (k : ℕ) (run : ScheduledRun) (how : Settling)
    (hasked : ∀ id ∈ s.tasks, asked (.upsert id)) : Keeps s (s.settle k run how) asked := by
  cases how with
  | works => exact keeps_mapRun s k _
  | reconciles lastStatus lastRunSummary => exact (keeps_mapTask s _ _).trans (keeps_mapRun _ _ _)
  | ends lastStatus lastRunSummary status now =>
    have hfirst := (@keeps_mapTask asked s run.taskId fun task => { task with
      lastStatus := some lastStatus
      lastRequestId := some run.requestId
      lastRunSummary }).trans (keeps_mapRun _ k fun run => { run with status })
    refine hfirst.trans (keeps_finalize _ k now fun id hid => hasked id ?_)
    rwa [hfirst.tasks] at hid

theorem keeps_readTask (s : SchedulerState) (n : ℕ) (id : String)
    (hasked : ∀ id ∈ s.tasks, asked (.upsert id)) : Keeps s (s.readTask n id) asked := by
  rw [readTask]
  split
  · rename_i hstored
    split
    · exact keeps_endCall s n
    · exact ((keeps_mapTask s id _).trans (keeps_setCall _ n (.queueing id) (fun _ _ h => by cases h))).trans
        (keeps_request _ _ (hasked id hstored))
  · exact keeps_endCall s n

theorem keeps_queueNow (s : SchedulerState) (n : ℕ) (id : String) (arrival : Arrival)
    (hasked : id ∉ s.activeTaskIds ∧ arrival.room = false → asked (.upsert id)) :
    Keeps s (s.queueNow n id arrival) asked := by
  have hqueued : Keeps s (s.queueTask id arrival).1 asked := keeps_queueTask s id arrival
  have hrefused := @queueTask_refused s id arrival
  rw [queueNow]
  split
  · rename_i t heq
    rw [heq] at hqueued
    exact hqueued.trans (keeps_endCall t n)
  · rename_i t heq
    rw [heq] at hqueued hrefused
    exact (hqueued.trans (keeps_setCall t n (.deferring id) (fun _ _ h => by cases h))).trans
      (keeps_request _ _ (hasked (hrefused rfl)))

theorem keeps_afterCancel (s : SchedulerState) (n : ℕ) (removes : Option String)
    (hasked : ∀ id, removes = some id → asked (.remove id)) :
    Keeps s (s.afterCancel n removes) asked := by
  cases removes with
  | none => exact keeps_endCall s n
  | some id =>
    exact (keeps_setCall s n (.removing id) (fun _ _ h => by cases h)).trans
      (keeps_request _ _ (hasked id rfl))

theorem keeps_recover (s : SchedulerState) (n : ℕ) (rest : List String)
    (hasked : ∀ id rest', rest = id :: rest' → asked (.upsert id)) :
    Keeps s (s.recover n rest) asked := by
  cases rest with
  | nil => exact (keeps_endCall s n).trans (Keeps.same rfl rfl rfl rfl rfl)
  | cons id rest =>
    exact (keeps_setCall s n (.recovering rest) (fun _ _ h => by cases h)).trans
      (keeps_request _ _ (hasked id rest rfl))

theorem keeps_cancel (s : SchedulerState) (n : ℕ) (key : String) (removes : Option String)
    (hremoves : ∀ id, removes = some id → s.heap.get id ≠ none)
    (hasked : ∀ id, s.heap.get id ≠ none → asked (.remove id)) :
    Keeps s (s.cancel n key removes) asked := by
  have hafter : Keeps s (s.afterCancel n removes) asked :=
    keeps_afterCancel s n removes fun id hid => hasked id (hremoves id hid)
  rw [SchedulerState.cancel]
  split
  · exact hafter
  · rename_i k hk
    split
    · have hrun := @keeps_mapRun asked s k fun run => { run with cancelling := true }
      refine hrun.trans (keeps_setCall _ n (.cancelling k removes) fun k' id heq => ?_)
      cases heq
      exact hrun.heap id (hremoves id rfl)
    · exact hafter

/-! ## The loop goes through its snapshot -/

theorem trim_heap (s : SchedulerState) : s.trim.heap = s.heap := by
  have htrim (maxRuns n : ℕ) (s : SchedulerState) :
      (trimRunHistory maxRuns n s).heap = s.heap := by
    induction n generalizing s with
    | zero => rfl
    | succ n ih =>
      rw [trimRunHistory]
      split
      · rfl
      · split
        · rfl
        · rename_i e _
          have hforget : (s.forget e).heap = s.heap := by
            rw [forget]
            split <;> rfl
          exact (ih _).trans hforget
  exact htrim _ _ s

theorem launch_idle {id id' : String} {arrival : Arrival}
    (h : id' ∉ (s.launch id arrival).activeTaskIds) :
    id' ∉ s.activeTaskIds ∧ (s.launch id arrival).heap.get id' = s.heap.get id' := by
  have hactive : (s.launch id arrival).activeTaskIds = insert id s.activeTaskIds :=
    congrArg RunView.active (view_launch s id arrival)
  rw [hactive] at h
  have hne : id' ≠ id := fun heq => h (heq ▸ Finset.mem_insert_self _ _)
  refine ⟨fun hid => h (Finset.mem_insert_of_mem hid), ?_⟩
  unfold launch
  dsimp only
  rw [trim_heap, mapTask]
  split
  · rfl
  · exact Dict.get_set_of_ne hne

theorem keeps_scan (arrivals : String → Arrival) (now : ℚ) (rest : List String)
    (s : SchedulerState)
    (hasked : ∀ id ∈ rest, id ∉ s.activeTaskIds → (arrivals id).room = false →
      (s.heap.get id).any (fun task => task.due now) = true → asked (.upsert id)) :
    Keeps s (scan arrivals now rest s) asked := by
  induction rest generalizing s with
  | nil => exact Keeps.same rfl rfl rfl rfl rfl
  | cons id rest ih =>
    have hrest := ih s fun id' hid' => hasked id' (List.mem_cons_of_mem _ hid')
    rw [scan]
    split
    · exact hrest
    · rename_i task htask
      split
      · rename_i hdue
        have hqueued : Keeps s (s.queueTask id (arrivals id)).1 asked := keeps_queueTask s id _
        split
        · -- the task has a run, or gets one; what is idle after it was idle before
          rename_i t heq
          rw [heq] at hqueued
          refine hqueued.trans (ih t fun id' hid' hidle hroom hdue' => ?_)
          have hbefore : id' ∉ s.activeTaskIds ∧ t.heap.get id' = s.heap.get id' := by
            rw [queueTask] at heq
            split at heq
            · cases heq
              exact ⟨hidle, rfl⟩
            · split at heq
              · cases heq
                exact launch_idle hidle
              · cases heq
          rw [hbefore.2] at hdue'
          exact hasked id' (List.mem_cons_of_mem _ hid') hbefore.1 hroom hdue'
        · rename_i t heq
          have hrefused := @queueTask_refused s id (arrivals id)
          rw [heq] at hqueued hrefused
          obtain ⟨hidle, hroom⟩ := hrefused rfl
          refine (hqueued.trans (keeps_request t .loop (hasked id List.mem_cons_self hidle hroom
            ?_))).trans (Keeps.same rfl rfl rfl rfl rfl)
          rw [htask]
          exact hdue
      · exact hrest

theorem keeps_start (s : SchedulerState) (n : ℕ) (now : ℚ)
    (hasked : ∀ id ∈ s.tasks, asked (.upsert id)) : Keeps s (s.start n now) asked := by
  have hmarked (ids : List String) (t : SchedulerState) : Keeps t
      (ids.foldl (fun s id => s.mapTask id (ScheduledTask.interrupted now)) t) asked := by
    induction ids generalizing t with
    | nil => exact Keeps.refl t
    | cons id ids ih => exact (keeps_mapTask t id _).trans (ih _)
  refine (hmarked s.interruptedTasks s).trans (keeps_recover _ n _ fun id rest heq => ?_)
  have hmem : id ∈ s.interruptedTasks := heq ▸ List.mem_cons_self
  exact hasked id (List.mem_filter.mp hmem).1

end Parts

/-! ## What a step does to the store -/

/-- What a step may ask for: a write of a task in the table, of a new one, or a stale one, and
the removal of a task that exists. -/
def Asked (s : SchedulerState) (l : SchedulerLabel) : StoreOp → Prop
  | .upsert id => id ∈ s.tasks ∨ s.heap.get id = none ∨ Stale s id l
  | .remove id => s.heap.get id ≠ none
  | _ => True

theorem step_keeps {s s' : SchedulerState} {l : SchedulerLabel} (hstep : SchedulerStep s l s')
    (hknown : Known s) (hl : ∀ o op now saved, l ≠ .executed o op now saved) :
    Keeps s s' (Asked s l) := by
  have hstored {t : SchedulerState} (ht : Keeps s t (Asked s l)) :
      ∀ id ∈ t.tasks, Asked s l (.upsert id) := fun id hid => Or.inl (ht.tasks ▸ hid)
  cases hstep with
  | add n task hcall hnew hid =>
    refine (keeps_set s task.id task).trans ((keeps_setCall _ n (.adding task.id)
      (fun _ _ h => by cases h)).trans (keeps_request _ _ ?_))
    exact Or.inr (Or.inl hnew)
  | setEnabled n id enabled hcall =>
    exact (keeps_setCall s n (.enabling id) (fun _ _ h => by cases h)).trans
      (keeps_request _ _ (show Asked s _ (.enable id enabled) from trivial))
  | runNow n id hcall =>
    split
    · exact keeps_readTask s n id (hstored (Keeps.refl s))
    · refine (keeps_setCall s n (.reading id) (fun _ _ h => by cases h)).trans
        (keeps_lock _ _ (fun op hop => ?_) fun _ hr => hr)
      refine (Gate.wait_pending.mp hop).imp_right fun heq => ?_
      rw [heq]
      trivial
  | cancel n key removes hcall hremoves =>
    refine keeps_cancel s n key removes (fun id hid => ?_) fun id hid => hid
    rcases hremoves with hnone | ⟨hkey, hheap⟩
    · rw [hnone] at hid
      cases hid
    · rw [hkey] at hid
      cases hid
      exact hheap
  | start n now hcall hloop => exact keeps_start s n now (hstored (Keeps.refl s))
  | stop => exact (keeps_leave s .loop).trans (Keeps.same rfl rfl rfl rfl rfl)
  | stopRuns => exact Keeps.same rfl rfl rfl rfl rfl
  | waited n k removes run hcall hrun hdone =>
    refine keeps_afterCancel s n removes fun id hid => ?_
    rw [hid] at hcall
    exact hknown n k id hcall
  | interrupted n k removes hcall =>
    refine (keeps_mapRun s k _).trans (keeps_afterCancel _ n removes fun id hid => ?_)
    rw [hid] at hcall
    exact hknown n k id hcall
  | returned n call op saved arrival hcall hback =>
    have htake := @keeps_take (Asked s (.returned n op saved arrival)) s (.call n) op saved
    refine htake.trans ?_
    have hended := @keeps_endCall (Asked s (.returned n op saved arrival))
      (s.take (.call n) op saved) n
    cases call with
    | queueing id =>
      rw [callReturned]
      split
      · rename_i hsaved
        exact keeps_queueNow _ n id arrival fun hrefused =>
          Or.inr (Or.inr ⟨hsaved, Or.inl ⟨hcall, hrefused⟩⟩)
      · exact hended
    | recovering rest =>
      rw [callReturned]
      split
      · rename_i hsaved
        refine keeps_recover _ n rest fun id rest' heq => ?_
        exact Or.inr (Or.inr ⟨hsaved, Or.inr ⟨rest', heq ▸ hcall⟩⟩)
      · exact hended
    | _ => exact hended
  | abandoned n call hcall hwaits => exact (keeps_leave s _).trans (keeps_endCall _ n)
  | wake arrivals now hloop =>
    split
    · exact keeps_scan arrivals now s.tasks s fun id hid _ _ _ => Or.inl hid
    · exact Keeps.same rfl rfl rfl rfl rfl
  | loopReturned arrivals now rest id saved hloop hback =>
    refine (keeps_take s .loop (.upsert id) saved).trans ?_
    rw [SchedulerState.loopReturned]
    split
    · rename_i hsaved
      exact keeps_scan arrivals now rest _ fun id' hid' hidle hroom hdue =>
        Or.inr (Or.inr ⟨hsaved, now, rest, hloop, hid', hidle, hroom, hdue⟩)
    · exact Keeps.same rfl rfl rfl rfl rfl
  | grantRead n id rest hfree hwaiters =>
    have hlock : Keeps s { s with storeLock := { s.storeLock with waiters := rest } }
        (Asked s (.grant (.call n) (.read id))) := by
      refine keeps_lock s _ (fun op hop => Or.inl ?_) fun _ hr => hr
      rcases hop with ⟨o, ho⟩ | hjob
      · exact Or.inl ⟨o, hwaiters ▸ List.mem_cons_of_mem _ ho⟩
      · exact Or.inr hjob
    exact hlock.trans (keeps_readTask _ n id (hstored hlock))
  | grant o op rest hfree hwaiters hop =>
    exact keeps_lock s _ (fun op' h => Or.inl ((Gate.grant_pending hwaiters).mp h)) fun _ hr => hr
  | executed o op now saved hjob => exact absurd rfl (hl o op now saved)
  | begin k run hrun hfresh hlive =>
    refine ((keeps_mapTask s _ _).trans (keeps_mapRun _ k _)).trans (keeps_request _ _ ?_)
    exact Or.inr (Or.inr ⟨run, hrun, rfl⟩)
  | saved k run ok how hrun hstarting hlive hback hhow =>
    have htake := @keeps_take (Asked s (.saved k ok how)) s (.run k) (.upsert run.taskId) ok
    exact htake.trans (keeps_settle _ k run how (hstored htake))
  | settled k run how hrun hphase hlive hhow =>
    exact keeps_settle s k run how (hstored (Keeps.refl s))
  | raised k run how hrun hcancelling hhow =>
    have hfirst := (@keeps_leave (Asked s (.raised k how)) s (.run k)).trans
      (keeps_mapRun _ k fun run => { run with cancelling := false })
    exact hfirst.trans (keeps_settle _ k run how (hstored hfirst))
  | dropped k run hrun hcancelling hfresh => exact keeps_endRun s k
  | closed k run ok hrun hclosing hlive hback =>
    have htake := @keeps_take (Asked s (.closed k)) s (.run k) (.upsert run.taskId) ok
    split
    · exact htake.trans ((keeps_trim _).trans (keeps_endRun _ k))
    · exact htake.trans (keeps_endRun _ k)
  | closedEarly k run hrun hclosing hcancelling =>
    exact (keeps_leave s _).trans (keeps_endRun _ k)

/-! ## Removed tasks along a run -/

/-- What a run keeps of the tasks whose removal ran: they are in neither the table nor the
file, and no write of them is pending. -/
structure RemovalInv (hist : List SchedulerLabel) (s : SchedulerState) : Prop where
  tasks : ∀ id, Removed id hist → id ∉ s.tasks
  file : ∀ id, Removed id hist → id ∉ s.file
  idle : ∀ id, Removed id hist → ¬ s.storeLock.Pending (.upsert id)
  exists_of_removed : ∀ id, Removed id hist → s.heap.get id ≠ none
  exists_of_pending : ∀ id, s.storeLock.Pending (.remove id) → s.heap.get id ≠ none
  ran : ∀ o id, (o, .remove id, true) ∈ s.storeLock.returned → Removed id hist
  known : Known s

theorem removed_cons {id : String} {l : SchedulerLabel} {hist : List SchedulerLabel}
    (h : Removed id (l :: hist)) : (∃ o now, l = .executed o (.remove id) now true) ∨
      Removed id hist := by
  obtain ⟨o, now, hmem⟩ := h
  rcases List.mem_cons.mp hmem with heq | hmem
  · exact Or.inl ⟨o, now, heq.symm⟩
  · exact Or.inr ⟨o, now, hmem⟩

theorem Removed.cons {id : String} {hist : List SchedulerLabel} (h : Removed id hist)
    (l : SchedulerLabel) : Removed id (l :: hist) := by
  obtain ⟨o, now, hmem⟩ := h
  exact ⟨o, now, List.mem_cons_of_mem _ hmem⟩

theorem RemovalInv.keeps {hist : List SchedulerLabel} {s s' : SchedulerState} {l : SchedulerLabel}
    (hinv : RemovalInv hist s) (hkeeps : Keeps s s' (Asked s l)) (hcurrent : Current s l)
    (hl : ∀ o op now saved, l ≠ .executed o op now saved) : RemovalInv (l :: hist) s' := by
  have hbefore {id : String} (h : Removed id (l :: hist)) : Removed id hist := by
    rcases removed_cons h with ⟨o, now, heq⟩ | h
    · exact absurd heq (hl o _ now true)
    · exact h
  refine ⟨fun id h => ?_, fun id h => ?_, fun id h hpending => ?_, fun id h => ?_,
    fun id hpending => ?_, fun o id hmem => ?_, hkeeps.known hinv.known⟩
  · rw [hkeeps.tasks]
    exact hinv.tasks id (hbefore h)
  · rw [hkeeps.file]
    exact hinv.file id (hbefore h)
  · -- whoever may write the task needs it in the table, or needs it new
    have hgone := hinv.tasks id (hbefore h)
    rcases hkeeps.pending _ hpending with hold | hstored | hnew | hstale
    · exact hinv.idle id (hbefore h) hold
    · exact hgone hstored
    · exact hinv.exists_of_removed id (hbefore h) hnew
    · exact hgone (hcurrent.1 id hstale)
  · exact hkeeps.heap id (hinv.exists_of_removed id (hbefore h))
  · rcases hkeeps.pending _ hpending with hold | hasked
    · exact hkeeps.heap id (hinv.exists_of_pending id hold)
    · exact hkeeps.heap id hasked
  · exact (hinv.ran o id (hkeeps.returned _ hmem)).cons l

theorem mem_tasks_apply {s : SchedulerState} {now : ℚ} {saved : Bool} {op : StoreOp} {id : String}
    (h : id ∈ (s.apply now saved op).tasks) :
    (id ∈ s.tasks ∧ op ≠ .remove id) ∨ op = .upsert id := by
  cases op with
  | upsert id' =>
    have hmem : id ∈ (if id' ∈ s.tasks then s.tasks else s.tasks ++ [id']) := h
    split at hmem
    · exact Or.inl ⟨hmem, fun heq => by cases heq⟩
    · rcases List.mem_append.mp hmem with hold | hnew
      · exact Or.inl ⟨hold, fun heq => by cases heq⟩
      · rw [List.mem_singleton.mp hnew]
        exact Or.inr rfl
  | remove id' =>
    obtain ⟨hold, hne⟩ := List.mem_filter.mp h
    refine Or.inl ⟨hold, fun heq => ?_⟩
    cases heq
    exact absurd rfl (of_decide_eq_true hne)
  | enable id' enabled =>
    rw [apply] at h
    split at h
    · rename_i hstored
      obtain ⟨-, htasks, -⟩ := runs_mapTask s id' (ScheduledTask.setEnabled enabled now)
      have hmem : id ∈ (if id' ∈ (s.mapTask id' (ScheduledTask.setEnabled enabled now)).tasks then
        (s.mapTask id' (ScheduledTask.setEnabled enabled now)).tasks else _) := h
      rw [htasks, if_pos hstored] at hmem
      exact Or.inl ⟨hmem, fun heq => by cases heq⟩
    · exact Or.inl ⟨h, fun heq => by cases heq⟩
  | read id' => exact Or.inl ⟨h, fun heq => by cases heq⟩

/-- A job writes the table to the file where it saves, and leaves the file where it does not;
a removal that saves writes it. -/
theorem mem_file_apply {s : SchedulerState} {now : ℚ} {saved : Bool} {op : StoreOp} {id : String}
    (h : id ∈ (s.apply now saved op).file) :
    id ∈ (s.apply now saved op).tasks ∨ id ∈ s.file ∧ ¬ (op = .remove id ∧ saved = true) := by
  cases saved with
  | false =>
    refine Or.inr ⟨?_, fun hop => by cases hop.2⟩
    cases op with
    | enable id' enabled =>
      rw [apply] at h
      split at h
      · exact (@keeps_mapTask Nothing s id' _).file ▸ h
      · exact h
    | _ => exact h
  | true =>
    cases op with
    | enable id' enabled =>
      rw [apply] at h ⊢
      split at h
      · rename_i hstored
        rw [if_pos hstored]
        exact Or.inl h
      · exact Or.inr ⟨h, fun hop => by cases hop.1⟩
    | read id' => exact Or.inr ⟨h, fun hop => by cases hop.1⟩
    | _ => exact Or.inl h

theorem heap_apply {s : SchedulerState} {now : ℚ} {saved : Bool} {op : StoreOp} {id : String}
    (h : s.heap.get id ≠ none) : (s.apply now saved op).heap.get id ≠ none := by
  cases op with
  | enable id' enabled =>
    rw [apply]
    split
    · exact (@keeps_mapTask Nothing s id' _).heap id h
    · exact h
  | _ => exact h

theorem calls_apply (s : SchedulerState) (now : ℚ) (saved : Bool) (op : StoreOp) :
    (s.apply now saved op).calls = s.calls := by
  cases op with
  | enable id' enabled =>
    rw [apply]
    split
    · show (s.mapTask id' _).calls = _
      rw [mapTask]
      split <;> rfl
    · rfl
  | _ => rfl

theorem RemovalInv.executed {hist : List SchedulerLabel} {s : SchedulerState} {o : Option Owner}
    {op : StoreOp} {now : ℚ} {saved : Bool} (hinv : RemovalInv hist s)
    (hjob : (o, op) ∈ s.storeLock.jobs) (hcurrent : Current s (.executed o op now saved)) :
    RemovalInv (.executed o op now saved :: hist)
      { s.apply now saved op with storeLock := s.storeLock.ran (o, op) saved } := by
  have hpending : s.storeLock.Pending op := Or.inr ⟨o, hjob⟩
  have hheap {id : String} (h : s.heap.get id ≠ none) : (s.apply now saved op).heap.get id ≠ none :=
    heap_apply h
  have htasks {id : String} (h : Removed id (.executed o op now saved :: hist)) :
      id ∉ (s.apply now saved op).tasks := fun hmem => by
    rcases mem_tasks_apply hmem with ⟨hold, hop⟩ | hop
    · rcases removed_cons h with ⟨o', now', heq⟩ | h
      · cases heq
        exact hop rfl
      · exact hinv.tasks id h hold
    · rcases removed_cons h with ⟨o', now', heq⟩ | h
      · cases heq
        cases hop
      · exact hinv.idle id h (hop ▸ hpending)
  refine ⟨fun id h => htasks h, fun id h hmem => ?_, fun id h hwrite => ?_, fun id h => ?_,
    fun id hremoval => ?_, fun o' id hmem => ?_, fun n k id hcall => ?_⟩
  · rcases mem_file_apply hmem with hmem | ⟨hold, hop⟩
    · exact htasks h hmem
    · rcases removed_cons h with ⟨o', now', heq⟩ | h
      · cases heq
        exact hop ⟨rfl, rfl⟩
      · exact hinv.file id h hold
  · have hwrite : s.storeLock.Pending (.upsert id) := Gate.ran_pending hwrite
    rcases removed_cons h with ⟨o', now', heq⟩ | h
    · exact hcurrent.2 o' id now' heq hwrite
    · exact hinv.idle id h hwrite
  · rcases removed_cons h with ⟨o', now', heq⟩ | h
    · cases heq
      exact hheap (hinv.exists_of_pending id hpending)
    · exact hheap (hinv.exists_of_removed id h)
  · exact hheap (hinv.exists_of_pending id (Gate.ran_pending hremoval))
  · rcases Gate.mem_ran_returned hmem with hold | ⟨ho, hop, hsaved⟩
    · exact (hinv.ran o' id hold).cons _
    · subst hop hsaved
      exact ⟨o, now, List.mem_cons_self⟩
  · refine hheap (hinv.known n k id ?_)
    rw [← calls_apply s now saved op]
    exact hcall

theorem removalInv_run {loaded : List ScheduledTask} {hist : List SchedulerLabel}
    {s : SchedulerState} (hrun : Run CurrentStep (SchedulerState.new loaded) hist s) :
    RemovalInv hist s := by
  have hnothing {id : String} (h : Removed id []) : False := by
    obtain ⟨o, now, hmem⟩ := h
    cases hmem
  refine hrun.history ⟨fun _ h => (hnothing h).elim, fun _ h => (hnothing h).elim,
    fun _ h => (hnothing h).elim, fun _ h => (hnothing h).elim,
    fun _ h => absurd h Gate.new_pending, (fun _ _ h => by cases h), (fun _ _ _ h => by cases h)⟩
    fun hist s l s' hinv hstep => ?_
  obtain ⟨hstep, hcurrent⟩ := hstep
  by_cases hl : ∀ o op now saved, l ≠ .executed o op now saved
  · exact hinv.keeps (step_keeps hstep hinv.known hl) hcurrent hl
  · push Not at hl
    obtain ⟨o, op, now, saved, rfl⟩ := hl
    cases hstep with
    | executed _ _ _ _ hjob => exact hinv.executed hjob hcurrent

theorem removed_of_returned {loaded : List ScheduledTask} {hist : List SchedulerLabel}
    {s : SchedulerState} (hrun : Run CurrentStep (SchedulerState.new loaded) hist s) {id : String}
    (h : Returned id hist) : Removed id hist := by
  induction hrun with
  | start =>
    obtain ⟨n, arrival, hmem⟩ := h
    cases hmem
  | next hrun hstep ih =>
    obtain ⟨n, arrival, hmem⟩ := h
    rcases List.mem_cons.mp hmem with heq | hmem
    · obtain ⟨hstep, -⟩ := hstep
      rw [← heq] at hstep
      cases hstep with
      | returned _ call _ _ _ hcall hback => exact ((removalInv_run hrun).ran _ id hback).cons _
    · exact (ih ⟨n, arrival, hmem⟩).cons _

/-- After `remove_task` returned, no later state of a run in which nobody writes a task that is
no longer in the table has the task in the table or in the file. -/
theorem removed_stays {loaded : List ScheduledTask} {hist : List SchedulerLabel}
    {s : SchedulerState} (hrun : Run CurrentStep (SchedulerState.new loaded) hist s) {id : String}
    (h : Returned id hist) : id ∉ s.tasks ∧ id ∉ s.file := by
  have hremoved := removed_of_returned hrun h
  exact ⟨(removalInv_run hrun).tasks id hremoved, (removalInv_run hrun).file id hremoved⟩

/-- The scheduler starts, the task is removed, and the loop comes round once more. -/
theorem removed_stays_idle : ∃ s, Run CurrentStep (SchedulerState.new [storedTask])
    [.wake (fun _ => firstArrival) 90, .returned 1 (.remove "sched_1") true firstArrival,
      .executed (some (.call 1)) (.remove "sched_1") 2 true, .cancel 1 "sched_1" (some "sched_1"),
      .start 0 1] s ∧ "sched_1" ∉ s.tasks ∧ "sched_1" ∉ s.file := by
  have hquiet {s : SchedulerState} {l : SchedulerLabel} (hstale : ∀ id, ¬ Stale s id l)
      (hl : ∀ o op now saved, l ≠ .executed o op now saved) : Current s l :=
    ⟨fun id h => absurd h (hstale id), fun o id now h => absurd h (hl o _ now true)⟩
  have hrun : Run CurrentStep (SchedulerState.new [storedTask]) [] (SchedulerState.new [storedTask]) :=
    Run.start
  have hrun := hrun.next ⟨SchedulerStep.start 0 1 rfl rfl, hquiet (fun _ h => h) (fun _ _ _ _ => nofun)⟩
  have hrun := hrun.next ⟨SchedulerStep.cancel 1 "sched_1" (some "sched_1") (by decide +kernel)
    (Or.inr ⟨rfl, by decide +kernel⟩), hquiet (fun _ h => h) (fun _ _ _ _ => nofun)⟩
  have hrun := hrun.next ⟨SchedulerStep.executed (some (.call 1)) (.remove "sched_1") 2 true
    (by decide +kernel), fun _ h => h.elim, fun o id now heq => by
      cases heq
      decide +kernel⟩
  have hrun := hrun.next ⟨SchedulerStep.returned 1 (.removing "sched_1") (.remove "sched_1") true
    firstArrival (by decide +kernel) (by decide +kernel), hquiet (fun id h => by
      rcases h.2 with ⟨hcall, -⟩ | ⟨rest, hcall⟩
      · cases hcall
      · cases hcall) (fun _ _ _ _ => nofun)⟩
  have hrun := hrun.next ⟨SchedulerStep.wake (fun _ => firstArrival) 90 (by decide +kernel),
    hquiet (fun _ h => h) (fun _ _ _ _ => nofun)⟩
  exact ⟨_, hrun, removed_stays hrun ⟨1, firstArrival, by simp⟩⟩

/-- A removal that waits for the lock behind the write of `run_now` looked for a run before
there was one; the run that begins while it is carried out brings the task back. -/
theorem removed_comes_back : ¬ ∀ (loaded : List ScheduledTask) (hist : List SchedulerLabel)
    (s : SchedulerState), Run SchedulerStep (SchedulerState.new loaded) hist s →
      ∀ id, Returned id hist → id ∉ s.tasks ∧ id ∉ s.file := by
  intro h
  have hrun : Run SchedulerStep (SchedulerState.new [storedTask]) [] (SchedulerState.new [storedTask]) :=
    Run.start
  have hrun := hrun.next (SchedulerStep.runNow 0 "sched_1" rfl)
  have hrun := hrun.next (SchedulerStep.cancel 1 "sched_1" (some "sched_1") (by decide +kernel)
    (Or.inr ⟨rfl, by decide +kernel⟩))
  have hrun := hrun.next (SchedulerStep.executed (some (.call 0)) (.upsert "sched_1") 1 true
    (by decide +kernel))
  have hrun := hrun.next (SchedulerStep.returned 0 (.queueing "sched_1") (.upsert "sched_1") true
    firstArrival (by decide +kernel) (by decide +kernel))
  have hrun := hrun.next (SchedulerStep.grant (.call 1) (.remove "sched_1") [] (by decide +kernel)
    (by decide +kernel) (fun _ => nofun))
  have hrun := hrun.next (SchedulerStep.begin 0 ⟨"sched_1", "schedrun_1", "schedjob_1",
    "schedreq_1", "created", .fresh, false⟩ (by decide +kernel) rfl rfl)
  have hrun := hrun.next (SchedulerStep.executed (some (.call 1)) (.remove "sched_1") 2 true
    (by decide +kernel))
  have hrun := hrun.next (SchedulerStep.returned 1 (.removing "sched_1") (.remove "sched_1") true
    firstArrival (by decide +kernel) (by decide +kernel))
  have hrun := hrun.next (SchedulerStep.grant (.run 0) (.upsert "sched_1") [] (by decide +kernel)
    (by decide +kernel) (fun _ => nofun))
  have hrun := hrun.next (SchedulerStep.executed (some (.run 0)) (.upsert "sched_1") 3 true
    (by decide +kernel))
  have hgone := (h _ _ _ hrun "sched_1" ⟨1, firstArrival, by simp⟩).1
  exact hgone (by decide +kernel)

end Scheduler
