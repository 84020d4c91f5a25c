import Yuizaki.Scheduler.Steps

/- The ids of the tasks that run (`_active_task_ids`).

   An id is added with the run that is created for it, and discarded in the `finally` block
   of the run. A run that is cancelled before its first step never comes to that block, and a
   run whose task is still in the table awaits a write after it. `active_exact` says that
   these are the only two ways in which the set differs from the tasks with an unfinished
   run.

   What matters of a run is its task and how far it is (`Stage`), so the steps are five moves
   on a view of the state, and every step that is none of them leaves the view alone. -/
namespace Scheduler

open Transition SchedulerState

/-! ## The property -/

/-- The active ids are those with an unfinished run, and none has two. -/
structure SchedulerState.Exact (s : SchedulerState) : Prop where
  active : ∀ id, id ∈ s.activeTaskIds ↔ ∃ k run, s.runs.get k = some run ∧ run.taskId = id ∧
    run.unfinished = true
  one : ∀ k k' run run', s.runs.get k = some run → s.runs.get k' = some run' →
    run.unfinished = true → run'.unfinished = true → run.taskId = run'.taskId → k = k'

/-- The run whose body a step brings to its `finally` block. -/
def SchedulerLabel.finalizes : SchedulerLabel → Option ℕ
  | .saved k _ (.ends ..) | .settled k (.ends ..) | .raised k (.ends ..) => some k
  | _ => none

/-- The step drops no run that has not begun, and finalizes none whose task is still in the
table. -/
def Graceful (s : SchedulerState) (l : SchedulerLabel) : Prop :=
  (∀ k, l ≠ .dropped k) ∧ ∀ k run, l.finalizes = some k → s.runs.get k = some run →
    run.taskId ∉ s.tasks

/-! ## Views -/

inductive Stage where
  | holding
  | closing
  | done
deriving DecidableEq

def RunPhase.stage : RunPhase → Stage
  | .fresh | .starting | .working | .reconciling => .holding
  | .closing => .closing
  | .done => .done

/-- The active ids, the task and the stage of each run, and the next run. -/
structure RunView where
  active : Finset String
  stage : ℕ → Option (String × Stage)
  next : ℕ

def SchedulerState.view (s : SchedulerState) : RunView where
  active := s.activeTaskIds
  stage := fun k => (s.runs.get k).map (fun run => (run.taskId, run.phase.stage))
  next := s.nextRun

def RunView.launch (v : RunView) (id : String) : RunView where
  active := insert id v.active
  stage := Function.update v.stage v.next (some (id, .holding))
  next := v.next + 1

def RunView.move (v : RunView) (k : ℕ) (id : String) (stage : Stage) : RunView :=
  { v with stage := Function.update v.stage k (some (id, stage)) }

def RunView.release (v : RunView) (k : ℕ) (id : String) (stage : Stage) : RunView :=
  { v.move k id stage with active := v.active.erase id }

/-- The moves that keep the active ids exact: a run is created for a task that has none, a
run is over at its `finally` block, or after its last write. -/
inductive Gentle : RunView → RunView → Prop
  | launch (v : RunView) (id : String) (h : id ∉ v.active) : Gentle v (v.launch id)
  | finish (v : RunView) (k : ℕ) (id : String) (h : v.stage k = some (id, .holding)) :
      Gentle v (v.release k id .done)
  | close (v : RunView) (k : ℕ) (id : String) (h : v.stage k = some (id, .closing)) :
      Gentle v (v.move k id .done)

/-- Every move: besides, a run drops out before its first step, or awaits a last write. -/
inductive Move : RunView → RunView → Prop
  | gentle {v v' : RunView} (h : Gentle v v') : Move v v'
  | drop (v : RunView) (k : ℕ) (id : String) (h : v.stage k = some (id, .holding)) :
      Move v (v.move k id .done)
  | closing (v : RunView) (k : ℕ) (id : String) (h : v.stage k = some (id, .holding)) :
      Move v (v.release k id .closing)

/-! ## What leaves the view alone -/

section Frames

variable (s : SchedulerState)

theorem view_mapTask (id : String) (f : ScheduledTask → ScheduledTask) :
    (s.mapTask id f).view = s.view := by
  rw [mapTask]
  split <;> rfl

@[simp] theorem view_request (o : Owner) (op : StoreOp) : (s.request o op).view = s.view := rfl

@[simp] theorem view_take (o : Owner) (op : StoreOp) (ok : Bool) :
    (s.take o op ok).view = s.view := rfl

@[simp] theorem view_setCall (n : ℕ) (call : Call) : (s.setCall n call).view = s.view := rfl

theorem view_forget (e : String × ℕ) : (s.forget e).view = s.view := by
  rw [forget]
  split <;> rfl

theorem view_trimRunHistory (maxRuns n : ℕ) (s : SchedulerState) :
    (trimRunHistory maxRuns n s).view = s.view := by
  induction n generalizing s with
  | zero => rfl
  | succ n ih =>
    rw [trimRunHistory]
    split
    · rfl
    · split
      · rfl
      · rw [ih, view_forget]

theorem view_trim : s.trim.view = s.view := view_trimRunHistory _ _ _

theorem view_apply (now : ℚ) (saved : Bool) (op : StoreOp) : (s.apply now saved op).view = s.view := by
  cases op with
  | upsert id => rfl
  | remove id => rfl
  | enable id enabled =>
    rw [apply]
    split
    · exact view_mapTask s id _
    · rfl
  | read id => rfl

theorem view_mapRun {k : ℕ} {run : ScheduledRun} (hrun : s.runs.get k = some run)
    (f : ScheduledRun → ScheduledRun) (hid : (f run).taskId = run.taskId) :
    (s.mapRun k f).view = s.view.move k run.taskId (f run).phase.stage := by
  have hstage : (fun k' => ((s.runs.set k (f run)).get k').map
      (fun run => (run.taskId, run.phase.stage))) =
      Function.update s.view.stage k (some (run.taskId, (f run).phase.stage)) := by
    funext k'
    rw [Dict.get_set, Function.update_apply]
    split
    · rw [Option.map_some, hid]
    · rfl
  rw [mapRun, hrun]
  show RunView.mk s.activeTaskIds _ s.nextRun = _
  rw [hstage]
  rfl

theorem move_self {v : RunView} {k : ℕ} {id : String} {stage : Stage}
    (h : v.stage k = some (id, stage)) : v.move k id stage = v := by
  rw [RunView.move, ← h, Function.update_eq_self]

theorem view_stage {k : ℕ} {run : ScheduledRun} (hrun : s.runs.get k = some run) :
    s.view.stage k = some (run.taskId, run.phase.stage) := by
  show (s.runs.get k).map _ = _
  rw [hrun]
  rfl

theorem get_mapRun {k : ℕ} {run : ScheduledRun} (hrun : s.runs.get k = some run)
    (f : ScheduledRun → ScheduledRun) : (s.mapRun k f).runs.get k = some (f run) := by
  rw [mapRun, hrun]
  show (s.runs.set k (f run)).get k = _
  rw [Dict.get_set, if_pos rfl]

theorem tasks_mapRun (k : ℕ) (f : ScheduledRun → ScheduledRun) :
    (s.mapRun k f).tasks = s.tasks := by
  rw [mapRun]
  split <;> rfl

theorem view_mapRun_same (k : ℕ) (f : ScheduledRun → ScheduledRun)
    (hf : ∀ run, s.runs.get k = some run → (f run).taskId = run.taskId ∧
      (f run).phase.stage = run.phase.stage) : (s.mapRun k f).view = s.view := by
  cases hrun : s.runs.get k with
  | none => rw [mapRun, hrun]
  | some run =>
    obtain ⟨hid, hstage⟩ := hf run hrun
    rw [view_mapRun s hrun f hid, hstage]
    exact move_self (view_stage s hrun)

end Frames

/-! ## What the parts of a step do to the view -/

section Parts

variable (s : SchedulerState)

theorem view_launch (id : String) (arrival : Arrival) :
    (s.launch id arrival).view = s.view.launch id := by
  have hstage (run : ScheduledRun) (hid : run.taskId = id) (hphase : run.phase.stage = .holding) :
      (fun k => ((s.runs.set s.nextRun run).get k).map (fun run => (run.taskId, run.phase.stage))) =
        Function.update s.view.stage s.nextRun (some (id, .holding)) := by
    funext k
    rw [Dict.get_set, Function.update_apply]
    split
    · rw [Option.map_some, hid, hphase]
    · rfl
  unfold launch
  show (SchedulerState.trim _).view = _
  rw [view_trim, view_mapTask]
  show RunView.mk (insert id s.activeTaskIds) _ (s.nextRun + 1) = _
  rw [hstage _ rfl rfl]
  rfl

theorem queueTask_moves (id : String) (arrival : Arrival) :
    Relation.ReflTransGen Gentle s.view (s.queueTask id arrival).1.view := by
  rw [queueTask]
  split
  · exact Relation.ReflTransGen.refl
  · rename_i hidle
    split
    · refine Relation.ReflTransGen.single ?_
      show Gentle s.view (s.launch id arrival).view
      rw [view_launch]
      exact Gentle.launch s.view id hidle
    · show Relation.ReflTransGen Gentle s.view (s.mapTask id _).view
      rw [view_mapTask]

theorem scan_moves (arrivals : String → Arrival) (now : ℚ) (rest : List String)
    (s : SchedulerState) :
    Relation.ReflTransGen Gentle s.view (scan arrivals now rest s).view := by
  induction rest generalizing s with
  | nil => exact Relation.ReflTransGen.refl
  | cons id rest ih =>
    rw [scan]
    split
    · exact ih s
    · split
      · have hqueue := queueTask_moves s id (arrivals id)
        split
        · rename_i s' hq
          rw [hq] at hqueue
          exact hqueue.trans (ih s')
        · rename_i s' hq
          rw [hq] at hqueue
          exact hqueue
      · exact ih s

theorem queueNow_moves (n : ℕ) (id : String) (arrival : Arrival) :
    Relation.ReflTransGen Gentle s.view (s.queueNow n id arrival).view := by
  have hqueue := queueTask_moves s id arrival
  rw [queueNow]
  split
  · rename_i s' hq
    rw [hq] at hqueue
    exact hqueue
  · rename_i s' hq
    rw [hq] at hqueue
    exact hqueue

theorem view_endRun {k : ℕ} {run : ScheduledRun} (hrun : s.runs.get k = some run) :
    (s.endRun k).view = s.view.move k run.taskId .done :=
  view_mapRun s hrun (fun run => { run with phase := .done }) rfl

theorem runs_mapTask (id : String) (f : ScheduledTask → ScheduledTask) :
    (s.mapTask id f).runs = s.runs ∧ (s.mapTask id f).tasks = s.tasks ∧
      (s.mapTask id f).activeTaskIds = s.activeTaskIds := by
  rw [mapTask]
  split <;> exact ⟨rfl, rfl, rfl⟩

theorem runs_trimRunHistory (maxRuns n : ℕ) (s : SchedulerState) :
    (trimRunHistory maxRuns n s).runs = s.runs := by
  induction n generalizing s with
  | zero => rfl
  | succ n ih =>
    rw [trimRunHistory]
    split
    · rfl
    · split
      · rfl
      · rename_i e _
        rw [ih, forget]
        split <;> rfl

/-- The `finally` block discards the id; the run awaits a last write where its task is in the
table, and is over where it is not. -/
theorem view_finalize {k : ℕ} {run : ScheduledRun} (hrun : s.runs.get k = some run) (now : ℚ) :
    (s.finalize k now).view =
      s.view.release k run.taskId (if run.taskId ∈ s.tasks then .closing else .done) := by
  unfold finalize
  rw [hrun]
  dsimp only
  generalize hreleased : SchedulerState.mapTask _ run.taskId (ScheduledTask.rescheduled now) = t
  obtain ⟨hruns, htasks, -⟩ := runs_mapTask { s with
    activeTaskIds := s.activeTaskIds.erase run.taskId
    runsByTask := s.runsByTask.erase run.taskId } run.taskId (ScheduledTask.rescheduled now)
  rw [hreleased] at hruns htasks
  have hview : t.view = { s.view with active := s.view.active.erase run.taskId } := by
    rw [← hreleased, view_mapTask]
    rfl
  have hrun' : t.runs.get k = some run := by
    rw [hruns]
    exact hrun
  rw [htasks]
  show SchedulerState.view (if run.taskId ∈ s.tasks then _ else _) = _
  split
  · show (t.mapRun k _).view = _
    rw [view_mapRun t hrun' (fun run => { run with phase := .closing }) rfl, hview]
    rfl
  · have htrim : t.trim.runs.get k = some run := by
      rw [trim, runs_trimRunHistory]
      exact hrun'
    rw [view_endRun t.trim htrim, view_trim, hview]
    rfl

theorem view_cancel (n : ℕ) (key : String) (removes : Option String) :
    (s.cancel n key removes).view = s.view := by
  have hafter (removes : Option String) : (s.afterCancel n removes).view = s.view := by
    cases removes <;> rfl
  rw [cancel]
  split
  · exact hafter removes
  · rename_i k _
    split
    · rw [view_setCall]
      exact view_mapRun_same s k _ fun run _ => ⟨rfl, rfl⟩
    · exact hafter removes

theorem view_readTask (n : ℕ) (id : String) : (s.readTask n id).view = s.view := by
  rw [readTask]
  split
  · split
    · rfl
    · show (s.mapTask id _).view = s.view
      rw [view_mapTask]
  · rfl

theorem view_recover (n : ℕ) (rest : List String) : (s.recover n rest).view = s.view := by
  cases rest <;> rfl

theorem view_start (n : ℕ) (now : ℚ) : (s.start n now).view = s.view := by
  have hfold (ids : List String) (s : SchedulerState) :
      (ids.foldl (fun s id => s.mapTask id (ScheduledTask.interrupted now)) s).view = s.view := by
    induction ids generalizing s with
    | nil => rfl
    | cons id rest ih => exact (ih _).trans (view_mapTask s id _)
  unfold start
  dsimp only
  rw [view_recover, hfold]

theorem view_settle {k : ℕ} {run current : ScheduledRun} (hrun : s.runs.get k = some current)
    (hid : run.taskId = current.taskId) (hholds : current.phase.stage = .holding)
    (how : Settling) :
    (s.settle k run how).view = match how with
      | .ends .. => s.view.release k run.taskId (if run.taskId ∈ s.tasks then .closing else .done)
      | _ => s.view := by
  have hself : s.view.move k current.taskId .holding = s.view :=
    move_self (hholds ▸ view_stage s hrun)
  have hkept (f : ScheduledTask → ScheduledTask) :
      (s.mapTask run.taskId f).runs.get k = some current ∧
        (s.mapTask run.taskId f).view = s.view ∧ (s.mapTask run.taskId f).tasks = s.tasks := by
    obtain ⟨hruns, htasks, -⟩ := runs_mapTask s run.taskId f
    rw [hruns]
    exact ⟨hrun, view_mapTask s _ _, htasks⟩
  cases how with
  | works =>
    show (s.mapRun k _).view = _
    rw [view_mapRun s hrun (fun run => { run with phase := .working, status := "running" }) rfl]
    exact hself
  | reconciles lastStatus lastRunSummary =>
    obtain ⟨hruns, hview, -⟩ := hkept fun task => { task with
      lastStatus := some lastStatus, lastRequestId := some run.requestId, lastRunSummary }
    show ((s.mapTask run.taskId _).mapRun k _).view = _
    rw [view_mapRun _ hruns (fun run => { run with phase := .reconciling }) rfl, hview]
    exact hself
  | ends lastStatus lastRunSummary status now =>
    obtain ⟨hruns, hview, htasks⟩ := hkept fun task => { task with
      lastStatus := some lastStatus, lastRequestId := some run.requestId, lastRunSummary }
    show (((s.mapTask run.taskId _).mapRun k _).finalize k now).view = _
    rw [view_finalize _ (get_mapRun _ hruns fun run => { run with status }) now,
      view_mapRun_same _ k (fun run => { run with status }) (fun _ _ => ⟨rfl, rfl⟩), hview,
      tasks_mapRun, htasks, hid]

end Parts

/-! ## What a step does to the view -/

section Steps

variable {s s' : SchedulerState} {l : SchedulerLabel}

theorem settles_holding {phase : RunPhase} {how : Settling} {saved : Bool}
    (h : phase.settles how saved = true) : phase.stage = .holding := by
  cases phase with
  | starting => rfl
  | working => rfl
  | reconciling => rfl
  | fresh => cases how <;> cases h
  | closing => cases how <;> cases h
  | done => cases how <;> cases h

/-- How a step of the scheduler moves the view: gently, or by one of the two other moves. -/
inductive Moves (s : SchedulerState) (l : SchedulerLabel) (v : RunView) : Prop
  | gently (h : Relation.ReflTransGen Gentle s.view v) (hl : Graceful s l)
  | drops (k : ℕ) (run : ScheduledRun) (hl : l = .dropped k) (hrun : s.runs.get k = some run)
      (hholds : run.phase.stage = .holding) (h : v = s.view.move k run.taskId .done)
  | closes (k : ℕ) (run : ScheduledRun) (hl : l.finalizes = some k)
      (hrun : s.runs.get k = some run) (hholds : run.phase.stage = .holding)
      (hstored : run.taskId ∈ s.tasks) (h : v = s.view.release k run.taskId .closing)

theorem Moves.other {v : RunView} (h : Relation.ReflTransGen Gentle s.view v)
    (hdropped : ∀ k, l ≠ .dropped k) (hfinalizes : l.finalizes = none) : Moves s l v :=
  .gently h ⟨hdropped, fun k run hk => by rw [hfinalizes] at hk; cases hk⟩

theorem settle_moves {s₁ : SchedulerState} {k : ℕ} {run current : ScheduledRun} {how : Settling}
    (hrun : s.runs.get k = some run) (hholds : run.phase.stage = .holding)
    (hview : s₁.view = s.view) (htasks : s₁.tasks = s.tasks)
    (hcurrent : s₁.runs.get k = some current) (hid : run.taskId = current.taskId)
    (hstage : current.phase.stage = .holding) (hdropped : ∀ k, l ≠ .dropped k)
    (hfinalizes : l.finalizes = match how with | .ends .. => some k | _ => none) :
    Moves s l (s₁.settle k run how).view := by
  have hsettle := view_settle s₁ hcurrent hid hstage how
  cases how with
  | works =>
    rw [hsettle, hview]
    exact Moves.other Relation.ReflTransGen.refl hdropped hfinalizes
  | reconciles lastStatus lastRunSummary =>
    rw [hsettle, hview]
    exact Moves.other Relation.ReflTransGen.refl hdropped hfinalizes
  | ends lastStatus lastRunSummary status now =>
    rw [hsettle, hview, htasks]
    dsimp only
    by_cases hstored : run.taskId ∈ s.tasks
    · rw [if_pos hstored]
      exact .closes k run hfinalizes hrun hholds hstored rfl
    · rw [if_neg hstored]
      refine .gently (Relation.ReflTransGen.single
        (Gentle.finish s.view k run.taskId (hholds ▸ view_stage s hrun)))
        ⟨hdropped, fun k' run' hk hrun' => ?_⟩
      rw [hfinalizes] at hk
      cases hk
      rw [hrun] at hrun'
      cases hrun'
      exact hstored

theorem step_moves (h : SchedulerStep s l s') : Moves s l s'.view := by
  have hsame {t : SchedulerState} (ht : t.view = s.view) (hdropped : ∀ k, l ≠ .dropped k)
      (hfinalizes : l.finalizes = none) : Moves s l t.view := by
    rw [ht]
    exact Moves.other Relation.ReflTransGen.refl hdropped hfinalizes
  cases h with
  | add n task => exact hsame rfl (fun _ => nofun) rfl
  | setEnabled n id enabled => exact hsame rfl (fun _ => nofun) rfl
  | runNow n id =>
    refine hsame ?_ (fun _ => nofun) rfl
    split
    · exact view_readTask s n id
    · rfl
  | cancel n key removes => exact hsame (view_cancel s n key removes) (fun _ => nofun) rfl
  | start n now => exact hsame (view_start s n now) (fun _ => nofun) rfl
  | stop => exact hsame rfl (fun _ => nofun) rfl
  | stopRuns =>
    refine hsame ?_ (fun _ => nofun) rfl
    have hstage : (fun k => ((s.runs.mapValues fun k run =>
          if k ∈ s.backgroundRuns ∧ run.unfinished then { run with cancelling := true } else run
          ).get k).map (fun run => (run.taskId, run.phase.stage))) = s.view.stage := by
      funext k
      rw [Dict.get_mapValues, Option.map_map]
      refine congrArg (fun f => Option.map f (s.runs.get k)) (funext fun run => ?_)
      show Prod.mk _ _ = _
      dsimp only
      split <;> rfl
    show RunView.mk s.activeTaskIds _ s.nextRun = _
    rw [hstage]
    rfl
  | waited n k removes => exact hsame (by cases removes <;> rfl) (fun _ => nofun) rfl
  | interrupted n k removes =>
    refine hsame ?_ (fun _ => nofun) rfl
    have hmap := view_mapRun_same s k
      (fun run => { run with cancelling := run.unfinished || run.cancelling })
      (fun _ _ => ⟨rfl, rfl⟩)
    cases removes <;> exact hmap
  | returned n call op saved arrival =>
    refine Moves.other ?_ (fun _ => nofun) rfl
    rw [← view_take s (.call n) op saved]
    cases call with
    | queueing id =>
      show Relation.ReflTransGen Gentle _ (SchedulerState.view (if saved then _ else _))
      split
      · exact queueNow_moves _ n id arrival
      · exact Relation.ReflTransGen.refl
    | recovering rest =>
      show Relation.ReflTransGen Gentle _ (SchedulerState.view (if saved then _ else _))
      split
      · rw [view_recover]
      · exact Relation.ReflTransGen.refl
    | adding id => exact Relation.ReflTransGen.refl
    | enabling id => exact Relation.ReflTransGen.refl
    | reading id => exact Relation.ReflTransGen.refl
    | deferring id => exact Relation.ReflTransGen.refl
    | cancelling k removes => exact Relation.ReflTransGen.refl
    | removing id => exact Relation.ReflTransGen.refl
  | abandoned n call => exact hsame rfl (fun _ => nofun) rfl
  | wake arrivals now =>
    refine Moves.other ?_ (fun _ => nofun) rfl
    split
    · exact scan_moves arrivals now s.tasks s
    · exact Relation.ReflTransGen.refl
  | loopReturned arrivals now rest id saved =>
    refine Moves.other ?_ (fun _ => nofun) rfl
    rw [← view_take s .loop (.upsert id) saved, SchedulerState.loopReturned]
    split
    · exact scan_moves arrivals now rest _
    · exact Relation.ReflTransGen.refl
  | grantRead n id rest => exact hsame (view_readTask _ n id) (fun _ => nofun) rfl
  | grant o op rest => exact hsame rfl (fun _ => nofun) rfl
  | executed o op now saved => exact hsame (view_apply s now saved op) (fun _ => nofun) rfl
  | begin k run hrun hfresh =>
    refine hsame ?_ (fun _ => nofun) rfl
    rw [view_request]
    generalize htask : s.mapTask run.taskId _ = t
    have hruns : t.runs.get k = some run := by
      rw [← htask, (runs_mapTask s run.taskId _).1]
      exact hrun
    rw [view_mapRun t hruns (fun run => { run with phase := .starting }) rfl, ← htask,
      view_mapTask]
    exact move_self (by rw [view_stage s hrun, hfresh]; rfl)
  | saved k run ok how hrun hstarting hlive hback hhow =>
    have hholds := settles_holding hhow
    exact settle_moves hrun hholds (view_take s _ _ _) rfl hrun rfl hholds (fun _ => nofun)
      (by cases how <;> rfl)
  | settled k run how hrun hphase hlive hhow =>
    have hholds := settles_holding hhow
    exact settle_moves hrun hholds rfl rfl hrun rfl hholds (fun _ => nofun) (by cases how <;> rfl)
  | raised k run how hrun hcancelling hhow =>
    have hholds := settles_holding hhow
    have hcurrent := get_mapRun (s.leave (.run k)) hrun fun run => { run with cancelling := false }
    exact settle_moves hrun hholds
      (view_mapRun_same _ k (fun run => { run with cancelling := false }) fun _ _ => ⟨rfl, rfl⟩)
      (tasks_mapRun _ k _) hcurrent rfl hholds (fun _ => nofun) (by cases how <;> rfl)
  | dropped k run hrun hcancelling hfresh =>
    exact .drops k run rfl hrun (by rw [hfresh]; rfl) (view_endRun s hrun)
  | closed k run ok hrun hclosing =>
    refine Moves.other (Relation.ReflTransGen.single ?_) (fun _ => nofun) rfl
    have hgentle := Gentle.close s.view k run.taskId (by rw [view_stage s hrun, hclosing]; rfl)
    have hruns (t : SchedulerState) (ht : t.runs = s.runs) (hview : t.view = s.view) :
        Gentle s.view (t.endRun k).view := by
      rw [view_endRun t (by rw [ht]; exact hrun), hview]
      exact hgentle
    split
    · exact hruns _ (runs_trimRunHistory _ _ _) ((view_trim _).trans (view_take s _ _ _))
    · exact hruns _ rfl rfl
  | closedEarly k run hrun hclosing =>
    refine Moves.other (Relation.ReflTransGen.single ?_) (fun _ => nofun) rfl
    show Gentle s.view ((s.leave (.run k)).endRun k).view
    rw [view_endRun (s.leave (.run k)) hrun]
    exact Gentle.close s.view k run.taskId (by rw [view_stage s hrun, hclosing]; rfl)

end Steps

/-! ## The invariants -/

/-- A run that holds its id has it in the active ids, and no other run holds it. -/
structure RunView.Held (v : RunView) : Prop where
  active : ∀ k id, v.stage k = some (id, .holding) → id ∈ v.active
  one : ∀ k k' id, v.stage k = some (id, .holding) → v.stage k' = some (id, .holding) → k = k'
  known : ∀ k, v.stage k ≠ none → k < v.next

/-- Every active id is held, and no run awaits its last write. -/
structure RunView.Tight (v : RunView) : Prop where
  held : ∀ id ∈ v.active, ∃ k, v.stage k = some (id, .holding)
  unclosed : ∀ k id, v.stage k ≠ some (id, .closing)

theorem stage_update {v : RunView} {k k' : ℕ} {id id' : String} {stage stage' : Stage}
    (h : Function.update v.stage k (some (id, stage)) k' = some (id', stage')) :
    k' = k ∧ id' = id ∧ stage' = stage ∨ k' ≠ k ∧ v.stage k' = some (id', stage') := by
  rw [Function.update_apply] at h
  split at h
  · rename_i hk
    cases h
    exact Or.inl ⟨hk, rfl, rfl⟩
  · rename_i hk
    exact Or.inr ⟨hk, h⟩

theorem Move.held {v v' : RunView} (h : Move v v') (hv : v.Held) : v'.Held := by
  -- what is no longer held leaves the rest as it was
  have hleaves {k : ℕ} {id : String} {stage : Stage} (hstage : stage ≠ .holding)
      (hk : v.stage k = some (id, .holding) ∨ v.stage k = some (id, .closing))
      {active : Finset String} (hactive : ∀ k' id', k' ≠ k → v.stage k' = some (id', .holding) →
        id' ∈ active) : ({ v.move k id stage with active } : RunView).Held := by
    refine ⟨fun k' id' h' => ?_, fun k₁ k₂ id' h₁ h₂ => ?_, fun k' h' => ?_⟩
    · rcases stage_update h' with ⟨-, -, hs⟩ | ⟨hne, h'⟩
      · exact absurd hs.symm hstage
      · exact hactive k' id' hne h'
    · rcases stage_update h₁ with ⟨-, -, hs⟩ | ⟨-, h₁⟩
      · exact absurd hs.symm hstage
      · rcases stage_update h₂ with ⟨-, -, hs⟩ | ⟨-, h₂⟩
        · exact absurd hs.symm hstage
        · exact hv.one k₁ k₂ id' h₁ h₂
    · by_cases hkk : k' = k
      · refine hkk ▸ hv.known k ?_
        rcases hk with hk | hk <;> rw [hk] <;> exact Option.some_ne_none _
      · refine hv.known k' ?_
        have hsame : v.stage k' = Function.update v.stage k (some (id, stage)) k' :=
          (Function.update_of_ne hkk _ _).symm
        rw [hsame]
        exact h'
  -- the other runs keep ids of their own
  have hother {k : ℕ} {id : String} (hk : v.stage k = some (id, .holding)) (k' : ℕ) (id' : String)
      (hne : k' ≠ k) (h' : v.stage k' = some (id', .holding)) : id' ∈ v.active.erase id := by
    refine Finset.mem_erase.mpr ⟨fun hid => hne ?_, hv.active k' id' h'⟩
    exact hv.one k' k id' h' (hid ▸ hk)
  cases h with
  | gentle h =>
    cases h with
    | launch id hidle =>
      have hnone : v.stage v.next = none := by
        by_contra hsome
        exact Nat.lt_irrefl _ (hv.known _ hsome)
      refine ⟨fun k' id' h' => ?_, fun k₁ k₂ id' h₁ h₂ => ?_, fun k' h' => ?_⟩
      · rcases stage_update h' with ⟨-, hid, -⟩ | ⟨-, h'⟩
        · exact hid ▸ Finset.mem_insert_self _ _
        · exact Finset.mem_insert_of_mem (hv.active k' id' h')
      · rcases stage_update h₁ with ⟨hk₁, hid₁, -⟩ | ⟨-, h₁⟩
        · rcases stage_update h₂ with ⟨hk₂, -, -⟩ | ⟨-, h₂⟩
          · rw [hk₁, hk₂]
          · exact absurd (hv.active k₂ id' h₂) (hid₁ ▸ hidle)
        · rcases stage_update h₂ with ⟨-, hid₂, -⟩ | ⟨-, h₂⟩
          · exact absurd (hv.active k₁ id' h₁) (hid₂ ▸ hidle)
          · exact hv.one k₁ k₂ id' h₁ h₂
      · show k' < v.next + 1
        by_cases hk : k' = v.next
        · omega
        · have hold := hv.known k' (by
            have hsame : v.stage k' = (v.launch id).stage k' := (Function.update_of_ne hk _ _).symm
            rw [hsame]
            exact h')
          omega
    | finish k id hk => exact hleaves (by decide) (Or.inl hk) (hother hk)
    | close k id hk => exact hleaves (by decide) (Or.inr hk) fun k' id' _ h' => hv.active k' id' h'
  | drop k id hk => exact hleaves (by decide) (Or.inl hk) fun k' id' _ h' => hv.active k' id' h'
  | closing k id hk => exact hleaves (by decide) (Or.inl hk) (hother hk)

theorem Gentle.tight {v v' : RunView} (h : Gentle v v') (hv : v.Held) (ht : v.Tight) :
    v'.Tight := by
  cases h with
  | launch id hidle =>
    have hnone : v.stage v.next = none := by
      by_contra hsome
      exact Nat.lt_irrefl _ (hv.known _ hsome)
    refine ⟨fun id' hid' => ?_, fun k' id' h' => ?_⟩
    · rcases Finset.mem_insert.mp hid' with rfl | hold
      · exact ⟨v.next, Function.update_self _ _ _⟩
      · obtain ⟨k', hk'⟩ := ht.held id' hold
        refine ⟨k', ?_⟩
        have hne : k' ≠ v.next := fun heq => by
          rw [heq, hnone] at hk'
          cases hk'
        exact (Function.update_of_ne hne _ _).trans hk'
    · rcases stage_update h' with ⟨-, -, hs⟩ | ⟨-, h'⟩
      · cases hs
      · exact ht.unclosed k' id' h'
  | finish k id hk =>
    refine ⟨fun id' hid' => ?_, fun k' id' h' => ?_⟩
    · obtain ⟨hne, hold⟩ := Finset.mem_erase.mp hid'
      obtain ⟨k', hk'⟩ := ht.held id' hold
      refine ⟨k', ?_⟩
      have hkk : k' ≠ k := fun heq => by
        rw [heq, hk] at hk'
        cases hk'
        exact hne rfl
      exact (Function.update_of_ne hkk _ _).trans hk'
    · rcases stage_update h' with ⟨-, -, hs⟩ | ⟨-, h'⟩
      · cases hs
      · exact ht.unclosed k' id' h'
  | close k id hk => exact absurd hk (ht.unclosed k id)

theorem gentle_run_held {v v' : RunView} (h : Relation.ReflTransGen Gentle v v') (hv : v.Held) :
    v'.Held := by
  induction h with
  | refl => exact hv
  | tail _ hlast ih => exact (Move.gentle hlast).held ih

theorem gentle_run_tight {v v' : RunView} (h : Relation.ReflTransGen Gentle v v') (hv : v.Held)
    (ht : v.Tight) : v'.Tight := by
  induction h with
  | refl => exact ht
  | tail hfirst hlast ih => exact hlast.tight (gentle_run_held hfirst hv) ih

theorem new_held (loaded : List ScheduledTask) : (SchedulerState.new loaded).view.Held :=
  ⟨(fun _ _ h => by cases h), (fun _ _ _ h => by cases h), fun _ h => absurd rfl h⟩

theorem new_tight (loaded : List ScheduledTask) : (SchedulerState.new loaded).view.Tight :=
  ⟨(fun _ h => by cases h), (fun _ _ h => by cases h)⟩

/-! ## The active ids along a run -/

theorem exact_iff {s : SchedulerState} : s.Exact ↔
    (∀ id, id ∈ s.view.active ↔ ∃ k stage, s.view.stage k = some (id, stage) ∧ stage ≠ .done) ∧
    ∀ k k' id stage stage', s.view.stage k = some (id, stage) →
      s.view.stage k' = some (id, stage') → stage ≠ .done → stage' ≠ .done → k = k' := by
  have hphase (phase : RunPhase) : phase.stage ≠ .done ↔ decide (phase ≠ .done) = true := by
    cases phase <;> simp [RunPhase.stage]
  have hof {k : ℕ} {id : String} {stage : Stage} (h : s.view.stage k = some (id, stage)) :
      ∃ run, s.runs.get k = some run ∧ run.taskId = id ∧ run.phase.stage = stage := by
    obtain ⟨run, hrun, heq⟩ := Option.map_eq_some_iff.mp h
    obtain ⟨hid, hstage⟩ := Prod.mk.inj heq
    exact ⟨run, hrun, hid, hstage⟩
  refine ⟨fun h => ⟨fun id => (h.active id).trans ⟨fun ⟨k, run, hrun, hid, hun⟩ => ?_,
    fun ⟨k, stage, hk, hne⟩ => ?_⟩, fun k k' id stage stage' hk hk' hne hne' => ?_⟩,
    fun ⟨hactive, hone⟩ => ⟨fun id => (hactive id).trans ⟨fun ⟨k, stage, hk, hne⟩ => ?_,
      fun ⟨k, run, hrun, hid, hun⟩ => ?_⟩, fun k k' run run' hrun hrun' hun hun' hid => ?_⟩⟩
  · exact ⟨k, run.phase.stage, hid ▸ view_stage s hrun, (hphase _).mpr hun⟩
  · obtain ⟨run, hrun, hid, hstage⟩ := hof hk
    exact ⟨k, run, hrun, hid, (hphase _).mp (hstage ▸ hne)⟩
  · obtain ⟨run, hrun, hid, hstage⟩ := hof hk
    obtain ⟨run', hrun', hid', hstage'⟩ := hof hk'
    exact h.one k k' run run' hrun hrun' ((hphase _).mp (hstage ▸ hne))
      ((hphase _).mp (hstage' ▸ hne')) (hid.trans hid'.symm)
  · obtain ⟨run, hrun, hid, hstage⟩ := hof hk
    exact ⟨k, run, hrun, hid, (hphase _).mp (hstage ▸ hne)⟩
  · exact ⟨k, run.phase.stage, hid ▸ view_stage s hrun, (hphase _).mpr hun⟩
  · exact hone k k' run.taskId _ _ (view_stage s hrun) (hid ▸ view_stage s hrun')
      ((hphase _).mpr hun) ((hphase _).mpr hun')

theorem exact_of_tight {s : SchedulerState} (hheld : s.view.Held) (ht : s.view.Tight) :
    s.Exact := by
  have hstage {k : ℕ} {id : String} {stage : Stage} (hk : s.view.stage k = some (id, stage))
      (hne : stage ≠ .done) : s.view.stage k = some (id, .holding) := by
    cases stage with
    | holding => exact hk
    | closing => exact absurd hk (ht.unclosed k id)
    | done => exact absurd rfl hne
  refine exact_iff.mpr ⟨fun id => ⟨fun hid => ?_, fun ⟨k, stage, hk, hne⟩ => ?_⟩,
    fun k k' id stage stage' hk hk' hne hne' => ?_⟩
  · obtain ⟨k, hk⟩ := ht.held id hid
    exact ⟨k, .holding, hk, by decide⟩
  · exact hheld.active k id (hstage hk hne)
  · exact hheld.one k k' id (hstage hk hne) (hstage hk' hne')

/-- The active ids are exactly those with an unfinished run, in every state of a run of the
scheduler, exactly where no step drops a run before it began or finalizes one whose task is
still in the table. -/
theorem active_exact (loaded : List ScheduledTask) (hist : List SchedulerLabel) :
    Run.Always SchedulerStep (SchedulerState.new loaded) SchedulerState.Exact hist ↔
      Run.Meets SchedulerStep (SchedulerState.new loaded) Graceful hist := by
  refine Run.always_iff_meets (new_held loaded) (fun s l s' hI hstep => ?_) (new_tight loaded)
    (fun s l s' hI ht hstep hC => ?_) (fun s hI ht => exact_of_tight hI ht)
    (fun s l s' hI hexact hstep hexact' => ?_)
  · -- every move keeps the runs that hold their ids apart
    cases step_moves hstep with
    | gently h hl => exact gentle_run_held h hI
    | drops k run hl hrun hholds h =>
      rw [h]
      exact (Move.drop s.view k run.taskId (hholds ▸ view_stage s hrun)).held hI
    | closes k run hl hrun hholds hstored h =>
      rw [h]
      exact (Move.closing s.view k run.taskId (hholds ▸ view_stage s hrun)).held hI
  · cases step_moves hstep with
    | gently h hl => exact gentle_run_tight h hI ht
    | drops k run hl hrun hholds h => exact absurd hl (hC.1 k)
    | closes k run hl hrun hholds hstored h => exact absurd hstored (hC.2 k run hl hrun)
  · obtain ⟨hactive, hone⟩ := exact_iff.mp hexact
    obtain ⟨hactive', -⟩ := exact_iff.mp hexact'
    cases step_moves hstep with
    | gently h hl => exact hl
    | drops k run hl hrun hholds h =>
      -- the id stays, and no other run has it
      exfalso
      have hk : s.view.stage k = some (run.taskId, .holding) := hholds ▸ view_stage s hrun
      have hid : run.taskId ∈ s'.view.active := by
        rw [h]
        exact hI.active k run.taskId hk
      obtain ⟨k', stage, hk', hne⟩ := (hactive' run.taskId).mp hid
      rw [h] at hk'
      rcases stage_update hk' with ⟨-, -, hs⟩ | ⟨hne', hk'⟩
      · exact hne hs
      · exact hne' (hone k' k run.taskId stage .holding hk' hk hne (by decide))
    | closes k run hl hrun hholds hstored h =>
      -- the run is not over, and its id is discarded
      exfalso
      have hk : s'.view.stage k = some (run.taskId, .closing) := by
        rw [h]
        exact Function.update_self _ _ _
      have hid := (hactive' run.taskId).mpr ⟨k, .closing, hk, by decide⟩
      rw [h] at hid
      exact (Finset.mem_erase.mp hid).1 rfl

/-! ## A run that is cancelled before it begins -/

def storedTask : ScheduledTask where
  id := "sched_1"
  enabled := true
  mode := .once
  runAfterSeconds := some 60
  nextRunAt := some 60

def firstArrival : Arrival where
  room := true
  runId := "schedrun_1"
  jobId := "schedjob_1"
  requestId := "schedreq_1"
  now := 1

/-- A task whose run is cancelled before its first step stays active, without a run. -/
theorem dropped_stays_active : ¬ ∀ (loaded : List ScheduledTask) (hist : List SchedulerLabel),
    Run.Always SchedulerStep (SchedulerState.new loaded) SchedulerState.Exact hist := by
  intro h
  have hrun : Run SchedulerStep (SchedulerState.new [storedTask]) [] (SchedulerState.new [storedTask]) :=
    Run.start
  have hrun := hrun.next (SchedulerStep.runNow 0 "sched_1" rfl)
  have hrun := hrun.next (SchedulerStep.executed (some (.call 0)) (.upsert "sched_1") 1 true
    (by decide +kernel))
  have hrun := hrun.next (SchedulerStep.returned 0 (.queueing "sched_1") (.upsert "sched_1") true
    firstArrival (by decide +kernel) (by decide +kernel))
  have hrun := hrun.next (SchedulerStep.cancel 1 "sched_1" none (by decide +kernel) (Or.inl rfl))
  have hrun := hrun.next (SchedulerStep.dropped 0 ⟨"sched_1", "schedrun_1", "schedjob_1",
    "schedreq_1", "created", .fresh, true⟩ (by decide +kernel) rfl rfl)
  have hexact := h _ _ [] _ _ rfl hrun
  obtain ⟨k, run, hk, -, hunfinished⟩ := (hexact.active "sched_1").mp (by decide +kernel)
  have hmem := Dict.get_eq_some.mp hk
  have hdone : ∀ e ∈ [(0, (⟨"sched_1", "schedrun_1", "schedjob_1", "schedreq_1", "created", .done,
      true⟩ : ScheduledRun))], e.2.unfinished = false := by decide
  have hall := hdone (k, run) hmem
  rw [hunfinished] at hall
  cases hall

end Scheduler
