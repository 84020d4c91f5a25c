import Yuizaki.Plan.Lane
import Yuizaki.Plan.Resume

/- When a stopped lane leaves no schedule behind.

   Every task a lane registers is in its ledger under the step that created it. It is there
   as created, and `execute_plan` will remove it; or as failed, where the step's success
   criteria reject a created schedule, and nothing removes it; or as rolled back. `Books`
   keeps this along a run, whatever happens, and a lane that stopped has compensated exactly
   where nothing went out of order (`compensation_exact`). -/
namespace Plan

open Transition Deps Fallible

/-! ## Results of schedule steps -/

/-- A result that neither creates nor rolls back a schedule. -/
def StepResult.plain (r : StepResult) : Prop :=
  r.kind = .schedule → r.status ≠ "created" ∧ r.status ≠ "rolled_back"

theorem settle_cases (step : Step) (r : StepResult) :
    settle step r = r ∨ (settle step r).status = "error" ∧ meetsCriteria step r = false := by
  unfold settle
  split
  · rename_i h
    exact Or.inr ⟨rfl, h.2⟩
  · exact Or.inl rfl

theorem settle_kind (step : Step) (r : StepResult) : (settle step r).kind = r.kind := by
  unfold settle
  split <;> rfl

theorem settle_taskId (step : Step) (r : StepResult) : (settle step r).taskId = r.taskId := by
  unfold settle
  split <;> rfl

theorem settle_plain {step : Step} {r : StepResult} (h : r.plain) : (settle step r).plain := by
  intro hkind
  rw [settle_kind] at hkind
  rcases settle_cases step r with hsame | hfailed
  · rw [hsame]
    exact h hkind
  · rw [hfailed.1]
    decide

theorem settle_created (step : Step) (taskId : String) (hkind : step.kind = .schedule) :
    meetsCriteria step (step.result (createdOutcome taskId)) = true ∧
        (settle step (step.result (createdOutcome taskId))).createdSchedule = true ∨
      meetsCriteria step (step.result (createdOutcome taskId)) = false ∧
        (settle step (step.result (createdOutcome taskId))).status = "error" := by
  cases hmeets : meetsCriteria step (step.result (createdOutcome taskId)) with
  | true =>
    refine Or.inl ⟨rfl, ?_⟩
    unfold settle
    rw [if_neg (fun h => by rw [hmeets] at h; cases h.2)]
    unfold StepResult.createdSchedule
    exact decide_eq_true ⟨hkind, rfl, rfl⟩
  | false =>
    refine Or.inr ⟨rfl, ?_⟩
    unfold settle
    have hchecked : "created" ∉ uncheckedStatuses := by decide
    rw [if_pos ⟨hchecked, hmeets⟩]
    rfl

theorem asksScheduler_kind {runtime : Runtime} {step : Step}
    (h : asksScheduler runtime step = true) : step.kind = .schedule := by
  unfold asksScheduler at h
  unfold Step.kind
  cases hbody : step.body with
  | schedule => rfl
  | analysis | agent | tool | join =>
    rw [hbody] at h
    cases h

/-- The choices there are for a schedule step. -/
def StepChoice.forSchedule : StepChoice → Prop
  | .blocked _ | .skipped | .invoke => True
  | _ => False

theorem choose_forSchedule {runtime : Runtime} {step : Step} {ledger : Ledger}
    (hkind : step.kind = .schedule) : (choose runtime step ledger).forSchedule := by
  unfold choose
  split
  · exact trivial
  · split
    · exact trivial
    · unfold Step.kind at hkind
      cases hbody : step.body with
      | schedule => exact trivial
      | analysis | agent | tool | join =>
        rw [hbody] at hkind
        cases hkind

theorem worked_plain {runtime : Runtime} {step : Step} {choice : StepChoice}
    {ledger : Ledger} {invoked outcome : Outcome}
    (hchoice : step.kind = .schedule → choice.forSchedule)
    (houtcome : choice.outcome step ledger invoked = some outcome)
    (hinvoked : choice = .invoke → step.kind = .schedule →
      asksScheduler runtime step = false ∧ invoked = scheduleRefusal runtime) :
    (settle step (step.result outcome)).plain := by
  refine settle_plain (fun hkind => ?_)
  have hschedule : step.kind = .schedule := hkind
  have hfor := hchoice hschedule
  have hskipped : "skipped" ≠ "created" ∧ "skipped" ≠ "rolled_back" := by decide
  show outcome.status ≠ "created" ∧ outcome.status ≠ "rolled_back"
  cases choice with
  | blocked predecessors =>
    cases houtcome
    exact hskipped
  | skipped =>
    cases houtcome
    exact hskipped
  | invoke =>
    have hrefused : outcome = scheduleRefusal runtime := by
      rw [← (hinvoked rfl hschedule).2]
      exact (Option.some.inj houtcome).symm
    rw [hrefused]
    unfold scheduleRefusal
    split
    · exact ⟨by decide, by decide⟩
    · exact ⟨by decide, by decide⟩
  | analysis | join | unavailable => exact hfor.elim

/-! ## The books -/

/-- The tasks that were created, with their steps. -/
def createdIn (hist : List LaneEvent) (step : Step) (taskId : String) : Prop :=
  .created step taskId ∈ hist

def stuckIn (hist : List LaneEvent) (taskId : String) : Prop := .stuck taskId ∈ hist

/-- A created task as the ledger has it: to be removed, failed by its step's criteria, or
removed by `execute_plan`. -/
inductive Entry (C : Step → String → Prop) (s : LaneRun) (taskId : String) (r : StepResult) : Prop
  | stands (hcreated : r.createdSchedule = true) (htask : taskId ∈ s.tasks)
      (hmeets : ∀ step, C step taskId →
        meetsCriteria step (step.result (createdOutcome taskId)) = true)
  | failed {step : Step} (hstatus : r.status = "error") (htask : taskId ∈ s.tasks)
      (hevent : C step taskId)
      (hmeets : meetsCriteria step (step.result (createdOutcome taskId)) = false)
  | removed (hstatus : r.status = "rolled_back") (hlane : s.lane = .plan)
      (hgone : taskId ∉ s.tasks) (hmeets : ∀ step, C step taskId →
        meetsCriteria step (step.result (createdOutcome taskId)) = true)

theorem Entry.transfer {C C' : Step → String → Prop} {s s' : LaneRun} {taskId : String}
    {r : StepResult} (h : Entry C s taskId r) (hlane : s'.lane = s.lane)
    (htask : taskId ∈ s'.tasks ↔ taskId ∈ s.tasks) (hC : ∀ step, C' step taskId ↔ C step taskId) :
    Entry C' s' taskId r := by
  cases h with
  | stands hcreated hin hmeets =>
    exact Entry.stands hcreated (htask.mpr hin) (fun step hevent => hmeets step ((hC step).mp hevent))
  | failed hstatus hin hevent hmeets =>
    exact Entry.failed hstatus (htask.mpr hin) ((hC _).mpr hevent) hmeets
  | removed hstatus hplan hgone hmeets =>
    exact Entry.removed hstatus (hlane.trans hplan) (fun hin => hgone (htask.mp hin))
      (fun step hevent => hmeets step ((hC step).mp hevent))

/-- What a lane's ledger and its scheduler have in common. -/
structure Books (C : Step → String → Prop) (K : String → Prop) (s : LaneRun) : Prop where
  tasks : ∀ taskId ∈ s.tasks, ∃ id, (id, taskId) ∈ s.created
  steps : (s.created.map Prod.fst).Nodup
  taskIds : (s.created.map Prod.snd).Nodup
  entry : ∀ id taskId, (id, taskId) ∈ s.created →
    s.run.capability.states id = .terminal ∧ (∃ step, C step taskId ∧ step.id = id) ∧
      ∃ r, s.run.capability.ledger id = some r ∧ r.stepId = id ∧ r.kind = .schedule ∧
        r.taskId = some taskId ∧ taskId ≠ "" ∧ Entry C s taskId r
  events : ∀ step taskId, C step taskId → (step.id, taskId) ∈ s.created
  stuck : ∀ taskId, K taskId → taskId ∈ s.tasks ∧ s.done = true
  marks : ∀ id ∈ ids s.run.plan, ∀ r, s.run.capability.ledger id = some r →
    r.kind = .schedule → r.status = "rolled_back" → ∃ taskId, (id, taskId) ∈ s.created
  visits : ∀ v ∈ s.run.visits, ∀ r, v.result = some r → r.kind = .schedule →
    r.status ≠ "rolled_back"
  running : ∀ step choice, s.run.running = some (step, choice) →
    s.run.capability.states step.id = .running ∧ (step.kind = .schedule → choice.forSchedule) ∧
      s.undo = none

/-- What `execute_plan` knows besides: the steps it takes are the plan's, and its ledger shows
no schedule that it did not create. -/
structure PlanBooks (s : LaneRun) : Prop where
  nodup : s.done = false → (ids s.run.plan).Nodup
  todo : ∀ step ∈ s.run.todo, step.id ∈ ids s.run.plan
  slices : ∀ slice ∈ s.slices, ∀ step ∈ slice.steps, step.id ∈ ids s.run.plan
  running : ∀ step choice, s.run.running = some (step, choice) → step.id ∈ ids s.run.plan
  created : ∀ id taskId, (id, taskId) ∈ s.created → id ∈ ids s.run.plan
  ledger : ∀ id r, s.run.capability.ledger id = some r → r.stepId = id ∧
    (r.createdSchedule = true → ∃ taskId, (id, taskId) ∈ s.created)

structure Undoing (s : LaneRun) (items : List StepResult) : Prop where
  lane : s.lane = .plan
  halt : ∃ reason, s.run.halt = some (.stopped reason)
  idle : s.run.running = none
  nodup : (items.map StepResult.stepId).Nodup
  item : ∀ item ∈ items, s.run.capability.ledger item.stepId = some item ∧
    item.createdSchedule = true ∧ ∃ taskId, (item.stepId, taskId) ∈ s.created
  standing : ∀ id taskId r, (id, taskId) ∈ s.created → s.run.capability.ledger id = some r →
    r.createdSchedule = true → r ∈ items

structure LaneInv (C : Step → String → Prop) (K : String → Prop) (s : LaneRun) : Prop where
  books : Books C K s
  plan : s.lane = .plan → PlanBooks s
  undo : ∀ items, s.undo = some items → Undoing s items

theorem record_self (cap : Capability) (r : StepResult) :
    (cap.record r).ledger r.stepId = some r := by
  unfold Capability.record
  dsimp only
  rw [Function.update_self]

theorem record_of_ne {cap : Capability} {r : StepResult} {id : String} (hne : id ≠ r.stepId) :
    (cap.record r).ledger id = cap.ledger id := by
  unfold Capability.record
  dsimp only
  rw [Function.update_of_ne hne]

theorem record_terminal {cap : Capability} {r : StepResult} {id : String}
    (h : cap.states id = .terminal) : (cap.record r).states id = .terminal := by
  show Function.update cap.states r.stepId .terminal id = .terminal
  by_cases heq : id = r.stepId
  · rw [heq, Function.update_self]
  · rw [Function.update_of_ne heq]
    exact h

theorem ledger_nodup {ledger : Ledger} {ns : List String}
    (hstepId : ∀ id r, ledger id = some r → r.stepId = id) (hnodup : ns.Nodup) :
    ((ns.filterMap ledger).map StepResult.stepId).Nodup := by
  induction ns with
  | nil => exact List.nodup_nil
  | cons id rest ih =>
    obtain ⟨hnew, hrest⟩ := List.nodup_cons.mp hnodup
    cases hr : ledger id with
    | none =>
      rw [List.filterMap_cons_none hr]
      exact ih hrest
    | some r =>
      rw [List.filterMap_cons_some hr, List.map_cons]
      refine List.nodup_cons.mpr ⟨fun hmem => ?_, ih hrest⟩
      obtain ⟨r', hr', heq⟩ := List.mem_map.mp hmem
      obtain ⟨id', hid', hledger⟩ := List.mem_filterMap.mp hr'
      rw [hstepId id' r' hledger, hstepId id r hr] at heq
      exact hnew (heq ▸ hid')

section Steps

variable {runtime : Runtime} {C : Step → String → Prop} {K : String → Prop} {s : LaneRun}

theorem Books.one_step (h : Books C K s) {id id' taskId : String}
    (hid : (id, taskId) ∈ s.created) (hid' : (id', taskId) ∈ s.created) : id = id' :=
  congrArg Prod.fst (List.inj_on_of_nodup_map h.taskIds hid hid' rfl)

theorem Books.one_task (h : Books C K s) {id taskId taskId' : String}
    (hid : (id, taskId) ∈ s.created) (hid' : (id, taskId') ∈ s.created) : taskId = taskId' :=
  congrArg Prod.snd (List.inj_on_of_nodup_map h.steps hid hid' rfl)

theorem Books.not_created (h : Books C K s) {id : String}
    (hstate : s.run.capability.states id ≠ .terminal) (taskId : String) :
    (id, taskId) ∉ s.created :=
  fun hmem => hstate (h.entry id taskId hmem).1

theorem Books.frame {s' : LaneRun} (h : Books C K s) (hlane : s'.lane = s.lane)
    (hplan : s'.run.plan = s.run.plan)
    (hledger : s'.run.capability.ledger = s.run.capability.ledger)
    (hstates : ∀ id, s.run.capability.states id = .terminal →
      s'.run.capability.states id = .terminal)
    (htasks : s'.tasks = s.tasks) (hcreated : s'.created = s.created)
    (hover : s.done = true → s'.done = true)
    (hvisits : ∀ v ∈ s'.run.visits, ∀ r, v.result = some r → r.kind = .schedule →
      r.status ≠ "rolled_back")
    (hrunning : ∀ step choice, s'.run.running = some (step, choice) →
      s'.run.capability.states step.id = .running ∧
        (step.kind = .schedule → choice.forSchedule) ∧ s'.undo = none) : Books C K s' where
  tasks := by
    rw [htasks, hcreated]
    exact h.tasks
  steps := by
    rw [hcreated]
    exact h.steps
  taskIds := by
    rw [hcreated]
    exact h.taskIds
  entry := by
    rw [hcreated, hledger]
    intro id taskId hmem
    obtain ⟨hstate, hevent, r, hr, hid, hkind, htask, hne, hentry⟩ := h.entry id taskId hmem
    exact ⟨hstates id hstate, hevent, r, hr, hid, hkind, htask, hne,
      hentry.transfer hlane (by rw [htasks]) (fun _ => Iff.rfl)⟩
  events := by
    rw [hcreated]
    exact h.events
  stuck := by
    rw [htasks]
    exact fun taskId hk => ⟨(h.stuck taskId hk).1, hover (h.stuck taskId hk).2⟩
  marks := by
    rw [hplan, hledger, hcreated]
    exact h.marks
  visits := hvisits
  running := hrunning

theorem LaneInv.no_undo (h : LaneInv C K s) (hhalt : s.run.halt = none) : s.undo = none := by
  cases hundo : s.undo with
  | none => rfl
  | some items =>
    obtain ⟨reason, hstopped⟩ := (h.undo items hundo).halt
    rw [hhalt] at hstopped
    cases hstopped

theorem LaneInv.enter (h : LaneInv C K s) {slice : Slice} {rest : List Slice}
    (hidle : s.run.running = none) (hhalt : s.run.halt = none)
    (hslices : s.slices = slice :: rest) : LaneInv C K (s.enter runtime slice rest) := by
  have hnone : s.undo = none := h.no_undo hhalt
  -- whatever entering does, it changes only the visits, the halt and the steps to take
  have hshape : ∃ halt todo, s.enter runtime slice rest = { s with
      kind := slice.kind, slices := rest
      run := { s.run with visits := [], halt := halt, todo := todo, running := none } } ∧
      ∀ step ∈ todo, step ∈ s.run.todo ∨ step ∈ slice.steps := by
    unfold LaneRun.enter
    dsimp only
    split
    · exact ⟨_, s.run.todo, by rw [← hidle], fun step hstep => Or.inl hstep⟩
    · split
      · exact ⟨s.run.halt, s.run.todo, by rw [← hidle], fun step hstep => Or.inl hstep⟩
      · split
        · split
          · exact ⟨_, s.run.todo, by rw [← hidle], fun step hstep => Or.inl hstep⟩
          · exact ⟨_, s.run.todo, rfl, fun step hstep => Or.inl hstep⟩
        · split
          · exact ⟨s.run.halt, s.run.todo, by rw [← hidle], fun step hstep => Or.inl hstep⟩
          · refine ⟨s.run.halt, orderSteps slice.steps, by rw [← hidle], fun step hstep => ?_⟩
            exact Or.inr (mem_order.mp hstep)
  obtain ⟨halt, todo, heq, htodo⟩ := hshape
  rw [heq]
  refine ⟨?_, ?_, ?_⟩
  · exact h.books.frame rfl rfl rfl (fun _ hs => hs) rfl rfl id (fun v hv => by cases hv)
      (fun step choice hrunning => by cases hrunning)
  · intro hlane
    have hp := h.plan hlane
    have hslice : ∀ step ∈ slice.steps, step.id ∈ ids s.run.plan :=
      hp.slices slice (by rw [hslices]; exact List.mem_cons_self)
    refine ⟨hp.nodup, ?_, ?_, (fun _ _ hr => by cases hr), hp.created, hp.ledger⟩
    · exact fun step hstep => (htodo step hstep).elim (hp.todo step) (hslice step)
    · intro sl hsl
      exact hp.slices sl (by rw [hslices]; exact List.mem_cons_of_mem _ hsl)
  · intro items hundo
    dsimp only at hundo
    rw [hnone] at hundo
    cases hundo

theorem LaneInv.claimed (h : LaneInv C K s) {step : Step} {rest : List Step}
    (hhalt : s.run.halt = none) (htodo : s.run.todo = step :: rest)
    (hpending : s.run.capability.states step.id = .pending) :
    LaneInv C K
      { s with run := s.run.claim step (choose runtime step s.run.capability.ledger) rest } := by
  have hnone : s.undo = none := h.no_undo hhalt
  refine ⟨?_, ?_, ?_⟩
  · refine h.books.frame rfl rfl rfl ?_ rfl rfl id h.books.visits ?_
    · intro id hterminal
      have hne : id ≠ step.id := fun heq => by
        rw [heq, hpending] at hterminal
        cases hterminal
      show Function.update s.run.capability.states step.id .running id = .terminal
      rw [Function.update_of_ne hne]
      exact hterminal
    · intro step' choice hrunning
      obtain ⟨hstep, hchoice⟩ := Prod.mk.inj (Option.some.inj hrunning)
      rw [← hstep, ← hchoice]
      refine ⟨?_, choose_forSchedule, hnone⟩
      show Function.update s.run.capability.states step.id .running step.id = .running
      rw [Function.update_self]
  · intro hlane
    have hp := h.plan hlane
    have hstep : step.id ∈ ids s.run.plan := hp.todo step (by rw [htodo]; exact List.mem_cons_self)
    refine ⟨hp.nodup, ?_, hp.slices, ?_, hp.created, hp.ledger⟩
    · exact fun step' hin => hp.todo step' (by rw [htodo]; exact List.mem_cons_of_mem _ hin)
    · intro step' choice hrunning
      rw [← (Prod.mk.inj (Option.some.inj hrunning)).1]
      exact hstep
  · intro items hundo
    dsimp only at hundo
    rw [hnone] at hundo
    cases hundo

theorem LaneInv.broken (h : LaneInv C K s) (hnone : s.undo = none) {visits : List Visit}
    (hvisits : ∀ v ∈ visits, v ∈ s.run.visits ∨ v.result = none) (halt : Option Halt) :
    LaneInv C K { s with
      run := { s.run with visits := visits, running := none, halt := halt } } := by
  refine ⟨?_, ?_, ?_⟩
  · refine h.books.frame rfl rfl rfl (fun _ hs => hs) rfl rfl id ?_
      (fun _ _ hrunning => by cases hrunning)
    intro v hv r hr
    rcases hvisits v hv with hold | hempty
    · exact h.books.visits v hold r hr
    · rw [hempty] at hr
      cases hr
  · intro hlane
    have hp := h.plan hlane
    exact ⟨hp.nodup, hp.todo, hp.slices, (fun _ _ hr => by cases hr), hp.created, hp.ledger⟩
  · intro items hundo
    dsimp only at hundo
    rw [hnone] at hundo
    cases hundo

theorem LaneRun.settle_shape (s : LaneRun) (step : Step) (choice : StepChoice) (r : StepResult) :
    ∃ halt, s.settle step choice r = { s with
      run := { s.run with
        capability := s.run.capability.record r, running := none, halt := halt
        visits := ⟨step, choice, some r⟩ :: s.run.visits } } := by
  unfold LaneRun.settle PlanRun.settled
  dsimp only
  split
  · exact ⟨_, rfl⟩
  · exact ⟨none, rfl⟩

theorem LaneInv.worked (h : LaneInv C K s) {step : Step} {choice : StepChoice} {r : StepResult}
    (hrunning : s.run.running = some (step, choice)) (hid : r.stepId = step.id)
    (hplain : r.plain) : LaneInv C K (s.settle step choice r) := by
  obtain ⟨hstate, -, hnone⟩ := h.books.running step choice hrunning
  have hnew : ∀ taskId, (step.id, taskId) ∉ s.created :=
    h.books.not_created (fun heq => by rw [hstate] at heq; cases heq)
  obtain ⟨halt, heq⟩ := s.settle_shape step choice r
  rw [heq]
  have hledger {id : String} (hne : id ≠ step.id) :
      (s.run.capability.record r).ledger id = s.run.capability.ledger id :=
    record_of_ne (by rw [hid]; exact hne)
  have hmine : (s.run.capability.record r).ledger step.id = some r := by
    rw [← hid]
    exact record_self _ r
  refine ⟨⟨h.books.tasks, h.books.steps, h.books.taskIds, ?_, h.books.events, h.books.stuck, ?_,
    ?_, (fun _ _ hr => by cases hr)⟩, ?_, ?_⟩
  · intro id taskId hmem
    obtain ⟨hterminal, hevent, r', hr', hrest⟩ := h.books.entry id taskId hmem
    have hne : id ≠ step.id := fun he => hnew taskId (he ▸ hmem)
    exact ⟨record_terminal hterminal, hevent, r', (hledger hne).trans hr', hrest.1, hrest.2.1,
      hrest.2.2.1, hrest.2.2.2.1,
      hrest.2.2.2.2.transfer rfl Iff.rfl (fun _ => Iff.rfl)⟩
  · intro id hin r' hr' hkind hrolled
    by_cases he : id = step.id
    · dsimp only at hr'
      rw [he, hmine] at hr'
      cases hr'
      exact absurd hrolled (hplain hkind).2
    · exact h.books.marks id hin r' ((hledger he).symm.trans hr') hkind hrolled
  · intro v hv r' hr' hkind
    rcases List.mem_cons.mp hv with hthis | hold
    · rw [hthis] at hr'
      cases hr'
      exact (hplain hkind).2
    · exact h.books.visits v hold r' hr' hkind
  · intro hlane
    have hp := h.plan hlane
    refine ⟨hp.nodup, hp.todo, hp.slices, (fun _ _ hr => by cases hr), hp.created, ?_⟩
    intro id r' hr'
    by_cases he : id = step.id
    · dsimp only at hr'
      rw [he, hmine] at hr'
      cases hr'
      refine ⟨hid.trans he.symm, fun hcreated => ?_⟩
      have hboth := of_decide_eq_true hcreated
      exact absurd hboth.2.1 (hplain hboth.1).1
    · exact hp.ledger id r' ((hledger he).symm.trans hr')
  · intro items hundo
    dsimp only at hundo
    rw [hnone] at hundo
    cases hundo

theorem LaneInv.created (h : LaneInv C K s) {C' : Step → String → Prop} {step : Step}
    {taskId : String} (hrunning : s.run.running = some (step, .invoke))
    (hkind : step.kind = .schedule) (hnonempty : taskId ≠ "")
    (hfresh : taskId ∉ s.created.map Prod.snd)
    (hC : ∀ step' taskId', C' step' taskId' ↔ (step' = step ∧ taskId' = taskId) ∨ C step' taskId') :
    LaneInv C' K
      { s.settle step .invoke (settle step (step.result (createdOutcome taskId))) with
        tasks := taskId :: s.tasks, created := (step.id, taskId) :: s.created } := by
  obtain ⟨hstate, -, hnone⟩ := h.books.running step .invoke hrunning
  have hnew : ∀ taskId', (step.id, taskId') ∉ s.created :=
    h.books.not_created (fun heq => by rw [hstate] at heq; cases heq)
  have hverdict := settle_created step taskId hkind
  generalize hr₀ : settle step (step.result (createdOutcome taskId)) = r at hverdict ⊢
  have hid : r.stepId = step.id := by
    rw [← hr₀]
    exact settle_stepId step _
  have hrkind : r.kind = .schedule := by
    rw [← hr₀, settle_kind]
    exact hkind
  have htaskId : r.taskId = some taskId := by
    rw [← hr₀, settle_taskId]
    rfl
  have hnotRolled : r.status ≠ "rolled_back" := by
    rcases hverdict with hok | hfailed
    · rw [(of_decide_eq_true hok.2).2.1]
      decide
    · rw [hfailed.2]
      decide
  obtain ⟨halt, heq⟩ := s.settle_shape step .invoke r
  rw [heq]
  have hledger {id : String} (hne : id ≠ step.id) :
      (s.run.capability.record r).ledger id = s.run.capability.ledger id :=
    record_of_ne (by rw [hid]; exact hne)
  have hmine : (s.run.capability.record r).ledger step.id = some r := by
    rw [← hid]
    exact record_self _ r
  have hother {step' : Step} {taskId' : String} (hne : taskId' ≠ taskId) :
      C' step' taskId' ↔ C step' taskId' :=
    (hC step' taskId').trans (or_iff_right (fun hboth => hne hboth.2))
  have hne_task {id taskId' : String} (hmem : (id, taskId') ∈ s.created) : taskId' ≠ taskId :=
    fun he => hfresh (List.mem_map.mpr ⟨_, hmem, he⟩)
  refine ⟨⟨?_, ?_, ?_, ?_, ?_, ?_, ?_, ?_, (fun _ _ hr => by cases hr)⟩, ?_, ?_⟩
  · intro t ht
    rcases List.mem_cons.mp ht with hthis | hold
    · exact ⟨step.id, by rw [hthis]; exact List.mem_cons_self⟩
    · obtain ⟨id, hmem⟩ := h.books.tasks t hold
      exact ⟨id, List.mem_cons_of_mem _ hmem⟩
  · refine List.nodup_cons.mpr ⟨fun hmem => ?_, h.books.steps⟩
    obtain ⟨p, hp, hpid⟩ := List.mem_map.mp hmem
    have hstep : p.1 = step.id := hpid
    exact hnew p.2 (by rw [← hstep]; exact hp)
  · exact List.nodup_cons.mpr ⟨hfresh, h.books.taskIds⟩
  · intro id taskId' hmem
    rcases List.mem_cons.mp hmem with hthis | hold
    · obtain ⟨hid', htask'⟩ := Prod.mk.inj hthis
      rw [hid', htask']
      refine ⟨?_, ⟨step, (hC step taskId).mpr (Or.inl ⟨rfl, rfl⟩), rfl⟩, r, hmine, hid, hrkind,
        htaskId, hnonempty, ?_⟩
      · show Function.update s.run.capability.states r.stepId .terminal step.id = .terminal
        rw [hid, Function.update_self]
      · rcases hverdict with hok | hfailed
        · refine Entry.stands hok.2 List.mem_cons_self (fun step' hevent => ?_)
          rcases (hC step' taskId).mp hevent with hthis' | hbefore
          · rw [hthis'.1]
            exact hok.1
          · exact absurd (List.mem_map.mpr ⟨_, h.books.events step' taskId hbefore, rfl⟩) hfresh
        · exact Entry.failed hfailed.2 List.mem_cons_self
            ((hC step taskId).mpr (Or.inl ⟨rfl, rfl⟩)) hfailed.1
    · obtain ⟨hterminal, hevent, r', hr', hrest⟩ := h.books.entry id taskId' hold
      have hne : id ≠ step.id := fun he => hnew taskId' (he ▸ hold)
      have hnet : taskId' ≠ taskId := hne_task hold
      obtain ⟨step', hC', hstep'⟩ := hevent
      refine ⟨record_terminal hterminal, ⟨step', (hother hnet).mpr hC', hstep'⟩, r',
        (hledger hne).trans hr', hrest.1, hrest.2.1, hrest.2.2.1, hrest.2.2.2.1,
        hrest.2.2.2.2.transfer rfl ?_ (fun _ => hother hnet)⟩
      exact List.mem_cons.trans (or_iff_right hnet)
  · intro step' taskId' hevent
    rcases (hC step' taskId').mp hevent with hthis | hbefore
    · rw [hthis.1, hthis.2]
      exact List.mem_cons_self
    · exact List.mem_cons_of_mem _ (h.books.events step' taskId' hbefore)
  · exact fun t ht => ⟨List.mem_cons_of_mem _ (h.books.stuck t ht).1, (h.books.stuck t ht).2⟩
  · intro id hin r' hr' hkind' hrolled
    by_cases he : id = step.id
    · rw [he]
      exact ⟨taskId, List.mem_cons_self⟩
    · obtain ⟨t, ht⟩ := h.books.marks id hin r' ((hledger he).symm.trans hr') hkind' hrolled
      exact ⟨t, List.mem_cons_of_mem _ ht⟩
  · intro v hv r' hr' hkind'
    rcases List.mem_cons.mp hv with hthis | hold
    · rw [hthis] at hr'
      cases hr'
      exact hnotRolled
    · exact h.books.visits v hold r' hr' hkind'
  · intro hlane
    have hp := h.plan hlane
    refine ⟨hp.nodup, hp.todo, hp.slices, (fun _ _ hr => by cases hr), ?_, ?_⟩
    · intro id taskId' hmem
      rcases List.mem_cons.mp hmem with hthis | hold
      · rw [(Prod.mk.inj hthis).1]
        exact hp.running step .invoke hrunning
      · exact hp.created id taskId' hold
    · intro id r' hr'
      by_cases he : id = step.id
      · dsimp only at hr'
        rw [he, hmine] at hr'
        cases hr'
        exact ⟨hid.trans he.symm, fun _ => ⟨taskId, by rw [he]; exact List.mem_cons_self⟩⟩
      · obtain ⟨hstepId, hmade⟩ := hp.ledger id r' ((hledger he).symm.trans hr')
        refine ⟨hstepId, fun hcreated => ?_⟩
        obtain ⟨t, ht⟩ := hmade hcreated
        exact ⟨t, List.mem_cons_of_mem _ ht⟩
  · intro items hundo
    dsimp only at hundo
    rw [hnone] at hundo
    cases hundo

theorem LaneInv.compensates (h : LaneInv C K s) {reason : String} (hover : s.done = false)
    (hlane : s.lane = .plan) (hended : s.ended) (hhalt : s.run.halt = some (.stopped reason)) :
    LaneInv C K { s with undo := some (createdSchedules s.run.capability s.run.plan) } := by
  have hp := h.plan hlane
  refine ⟨?_, fun _ => ⟨hp.nodup, hp.todo, hp.slices, hp.running, hp.created, hp.ledger⟩, ?_⟩
  · exact h.books.frame rfl rfl rfl (fun _ hs => hs) rfl rfl id h.books.visits
      (fun step choice hrunning => by rw [hended.1] at hrunning; cases hrunning)
  · intro items hundo
    cases hundo
    have hmem {item : StepResult} : item ∈ createdSchedules s.run.capability s.run.plan ↔
        (∃ id ∈ ids s.run.plan, s.run.capability.ledger id = some item) ∧
          item.createdSchedule = true ∧ item.taskId.getD "" ≠ "" := by
      unfold createdSchedules
      rw [List.mem_filter, List.mem_filterMap, decide_eq_true_eq]
    refine ⟨hlane, ⟨reason, hhalt⟩, hended.1, ?_, ?_, ?_⟩
    · have hsub : ((createdSchedules s.run.capability s.run.plan).map StepResult.stepId).Sublist
          (((ids s.run.plan).filterMap s.run.capability.ledger).map StepResult.stepId) :=
        List.filter_sublist.map _
      refine hsub.nodup ?_
      exact ledger_nodup (fun id r hr => (hp.ledger id r hr).1) (hp.nodup hover)
    · intro item hin
      obtain ⟨⟨id, -, hr⟩, hcreated, -⟩ := hmem.mp hin
      obtain ⟨hstepId, hmade⟩ := hp.ledger id item hr
      rw [hstepId]
      exact ⟨hr, hcreated, hmade hcreated⟩
    · intro id taskId r hcreated hr hstands
      obtain ⟨-, -, r', hr', -, -, htaskId, hnonempty, -⟩ := h.books.entry id taskId hcreated
      rw [hr] at hr'
      cases hr'
      refine hmem.mpr ⟨⟨id, hp.created id taskId hcreated, hr⟩, hstands, ?_⟩
      rw [htaskId]
      exact hnonempty

theorem rollback_not_created (item : StepResult) : item.rollback.createdSchedule = false :=
  decide_eq_false (fun h => absurd h.2.1 (by decide : "rolled_back" ≠ "created"))

theorem LaneInv.removed (h : LaneInv C K s) {item : StepResult} {rest : List StepResult}
    (hundo : s.undo = some (item :: rest)) (hover : s.done = false) :
    LaneInv C K { s with
      run := s.run.compensate item
      tasks := s.tasks.filter (fun t => t ≠ item.taskId.getD "")
      undo := some rest } := by
  have hu := h.undo _ hundo
  have hp := h.plan hu.lane
  obtain ⟨hitem, hcreated, taskId, hmade⟩ := hu.item item List.mem_cons_self
  obtain ⟨-, -, r, hr, -, hkind, htaskId, hnonempty, hentry⟩ := h.books.entry _ _ hmade
  rw [hitem] at hr
  cases hr
  have htask : item.taskId.getD "" = taskId := by rw [htaskId]; rfl
  have hmeets : ∀ step, C step taskId →
      meetsCriteria step (step.result (createdOutcome taskId)) = true := by
    have hstatus : item.status = "created" := (of_decide_eq_true hcreated).2.1
    cases hentry with
    | stands _ _ hm => exact hm
    | failed hs _ _ _ =>
      rw [hstatus] at hs
      exact absurd hs (by decide)
    | removed hs _ _ _ =>
      rw [hstatus] at hs
      exact absurd hs (by decide)
  have hledger {id : String} (hne : id ≠ item.stepId) :
      (s.run.compensate item).capability.ledger id = s.run.capability.ledger id :=
    record_of_ne hne
  have hmine : (s.run.compensate item).capability.ledger item.stepId = some item.rollback :=
    record_self _ item.rollback
  have hnoStuck : ∀ t, ¬ K t := fun t ht => by
    have hstuck := (h.books.stuck t ht).2
    rw [hover] at hstuck
    cases hstuck
  refine ⟨⟨?_, h.books.steps, h.books.taskIds, ?_, h.books.events,
    (fun t ht => absurd ht (hnoStuck t)), ?_, h.books.visits, ?_⟩, ?_, ?_⟩
  · exact fun t ht => h.books.tasks t (List.mem_of_mem_filter ht)
  · intro id t hmem
    obtain ⟨hterminal, hevent, r', hr', hstepId, hkind', htask', hne', hentry'⟩ :=
      h.books.entry id t hmem
    refine ⟨record_terminal hterminal, hevent, ?_⟩
    by_cases he : id = item.stepId
    · have hsame : t = taskId := h.books.one_task (by rw [← he]; exact hmem) hmade
      rw [he, hsame]
      refine ⟨item.rollback, hmine, rfl, rfl, htaskId, hnonempty,
        Entry.removed rfl hu.lane (fun hin => ?_) hmeets⟩
      exact of_decide_eq_true (List.mem_filter.mp hin).2 htask.symm
    · have hdiff : t ≠ item.taskId.getD "" := fun heq => by
        rw [htask] at heq
        rw [heq] at hmem
        exact he (h.books.one_step hmem hmade)
      refine ⟨r', (hledger he).trans hr', hstepId, hkind', htask', hne',
        hentry'.transfer rfl ?_ (fun _ => Iff.rfl)⟩
      exact List.mem_filter.trans (and_iff_left (decide_eq_true hdiff))
  · intro id hin r' hr' hkind' hrolled
    by_cases he : id = item.stepId
    · exact ⟨taskId, by rw [he]; exact hmade⟩
    · exact h.books.marks id hin r' ((hledger he).symm.trans hr') hkind' hrolled
  · intro step choice hrunning
    have hidle : s.run.running = some (step, choice) := hrunning
    rw [hu.idle] at hidle
    cases hidle
  · intro _
    refine ⟨hp.nodup, hp.todo, hp.slices, hp.running, hp.created, ?_⟩
    intro id r' hr'
    by_cases he : id = item.stepId
    · dsimp only at hr'
      rw [he, hmine] at hr'
      cases hr'
      refine ⟨he.symm, fun hc => ?_⟩
      rw [rollback_not_created] at hc
      cases hc
    · exact hp.ledger id r' ((hledger he).symm.trans hr')
  · intro items hitems
    cases hitems
    obtain ⟨hnew, hnodup⟩ := List.nodup_cons.mp hu.nodup
    refine ⟨hu.lane, hu.halt, hu.idle, hnodup, ?_, ?_⟩
    · intro item' hin
      obtain ⟨hitem', hrest⟩ := hu.item item' (List.mem_cons_of_mem _ hin)
      have hne : item'.stepId ≠ item.stepId := fun heq =>
        hnew (heq ▸ List.mem_map.mpr ⟨item', hin, rfl⟩)
      exact ⟨(hledger hne).trans hitem', hrest⟩
    · intro id t r' hmem hr' hstands
      by_cases he : id = item.stepId
      · dsimp only at hr'
        rw [he, hmine] at hr'
        cases hr'
        rw [rollback_not_created] at hstands
        cases hstands
      · have hbefore := (hledger he).symm.trans hr'
        rcases List.mem_cons.mp (hu.standing id t r' hmem hbefore hstands) with hthis | hold
        · rw [hthis] at hbefore
          exact absurd (hp.ledger id item hbefore).1.symm he
        · exact hold

theorem LaneInv.stuck (h : LaneInv C K s) {K' : String → Prop} {item : StepResult}
    {rest : List StepResult} (hundo : s.undo = some (item :: rest))
    (hK : ∀ t, K' t → t = item.taskId.getD "" ∨ K t) :
    LaneInv C K' { s with done := true } := by
  have hu := h.undo _ hundo
  obtain ⟨hitem, hcreated, taskId, hmade⟩ := hu.item item List.mem_cons_self
  obtain ⟨-, -, r, hr, -, -, htaskId, -, hentry⟩ := h.books.entry _ _ hmade
  rw [hitem] at hr
  cases hr
  have htask : taskId ∈ s.tasks := by
    have hstatus : item.status = "created" := (of_decide_eq_true hcreated).2.1
    cases hentry with
    | stands _ ht _ => exact ht
    | failed _ ht _ _ => exact ht
    | removed hs _ _ _ =>
      rw [hstatus] at hs
      exact absurd hs (by decide)
  refine ⟨⟨h.books.tasks, h.books.steps, h.books.taskIds, ?_, h.books.events, ?_, h.books.marks,
    h.books.visits, h.books.running⟩, ?_, ?_⟩
  · intro id t hmem
    obtain ⟨hterminal, hevent, r', hr', hstepId, hkind', htask', hne', hentry'⟩ :=
      h.books.entry id t hmem
    exact ⟨hterminal, hevent, r', hr', hstepId, hkind', htask', hne',
      hentry'.transfer rfl Iff.rfl (fun _ => Iff.rfl)⟩
  · intro t ht
    refine ⟨?_, rfl⟩
    rcases hK t ht with hthis | hbefore
    · rw [hthis, htaskId]
      exact htask
    · exact (h.books.stuck t hbefore).1
  · intro hlane
    have hp := h.plan hlane
    exact ⟨(fun hover => by cases hover), hp.todo, hp.slices, hp.running, hp.created, hp.ledger⟩
  · intro items hitems
    have hu' := h.undo items hitems
    exact ⟨hu'.lane, hu'.halt, hu'.idle, hu'.nodup, hu'.item, hu'.standing⟩

theorem LaneInv.answered (h : LaneInv C K s) : LaneInv C K { s with done := true } := by
  refine ⟨?_, ?_, ?_⟩
  · exact h.books.frame rfl rfl rfl (fun _ hs => hs) rfl rfl (fun _ => rfl) h.books.visits
      h.books.running
  · intro hlane
    have hp := h.plan hlane
    exact ⟨(fun hover => by cases hover), hp.todo, hp.slices, hp.running, hp.created, hp.ledger⟩
  · intro items hitems
    have hu := h.undo items hitems
    exact ⟨hu.lane, hu.halt, hu.idle, hu.nodup, hu.item, hu.standing⟩

end Steps

/-! ## Runs of a lane -/

theorem preflight_ok {pre : Preflight} {steps : List Step} {cap : Capability}
    (h : preflightPlan pre steps = .ok cap) : cap = Capability.mint steps ∧ (ids steps).Nodup := by
  unfold preflightPlan at h
  obtain ⟨u, hvalid, h⟩ := bind_ok.mp h
  obtain ⟨u', -, h⟩ := bind_ok.mp h
  cases h
  exact ⟨rfl, (validatePlan_ok hvalid).nodup⟩

theorem empty_books {s : LaneRun} (htasks : s.tasks = []) (hcreated : s.created = [])
    (hvisits : s.run.visits = []) (hrunning : s.run.running = none)
    (hmarks : ∀ id ∈ ids s.run.plan, ∀ r, s.run.capability.ledger id = some r →
      r.status ≠ "rolled_back") : Books (createdIn []) (stuckIn []) s where
  tasks := fun t ht => by
    rw [htasks] at ht
    cases ht
  steps := by
    rw [hcreated]
    exact List.nodup_nil
  taskIds := by
    rw [hcreated]
    exact List.nodup_nil
  entry := fun id t hmem => by
    rw [hcreated] at hmem
    cases hmem
  events := fun _ _ h => by cases h
  stuck := fun _ h => by cases h
  marks := fun id hin r hr _ hrolled => absurd hrolled (hmarks id hin r hr)
  visits := fun v hv => by
    rw [hvisits] at hv
    cases hv
  running := fun _ _ hr => by
    rw [hrunning] at hr
    cases hr

theorem refused_inv (lane : Lane) (steps : List Step) (message : String) :
    LaneInv (createdIn []) (stuckIn []) (LaneRun.refused lane steps message) where
  books := empty_books rfl rfl rfl rfl (fun _ _ _ hr => by cases hr)
  plan := fun _ => ⟨(fun hover => by cases hover), (fun _ hin => by cases hin),
    (fun _ hin => by cases hin), (fun _ _ hr => by cases hr), (fun _ _ hin => by cases hin),
    (fun _ _ hr => by cases hr)⟩
  undo := fun _ h => by cases h

theorem resume_marks {old : Capability} {steps : List Step} {failed id : String} {r : StepResult}
    (hin : id ∈ ids steps) (hr : (old.resume steps failed).ledger id = some r) :
    r.status ≠ "rolled_back" := by
  intro hrolled
  by_cases hretried : Retried steps old.ledger failed id
  · unfold Capability.resume at hr
    dsimp only at hr
    rw [if_pos (mem_retryIds.mpr hretried)] at hr
    cases hr
  · rw [resume_ledger_other hretried] at hr
    refine hretried (Or.inr ⟨id, hin, ?_, Relation.ReflTransGen.refl⟩)
    rw [hr]
    exact decide_eq_true hrolled

theorem start_inv (pre : Preflight) (runtime : Runtime) (call : LaneCall) :
    LaneInv (createdIn []) (stuckIn []) (call.start pre runtime) := by
  cases call with
  | plan steps =>
    simp only [LaneCall.start]
    cases hpre : preflightPlan pre steps with
    | error message => exact refused_inv .plan steps message
    | ok cap =>
      obtain ⟨hcap, hnodup⟩ := preflight_ok hpre
      rw [hcap]
      refine ⟨empty_books rfl rfl rfl rfl (fun _ _ _ hr => by cases hr), fun _ => ?_,
        (fun _ h => by cases h)⟩
      refine ⟨fun _ => hnodup, (fun _ hin => by cases hin), ?_, (fun _ _ hr => by cases hr),
        (fun _ _ hin => by cases hin), (fun _ _ hr => by cases hr)⟩
      intro slice hslice step hstep
      rw [List.mem_singleton.mp hslice] at hstep
      exact List.mem_map.mpr ⟨step, mem_order.mp hstep, rfl⟩
  | resume old steps failed =>
    simp only [LaneCall.start]
    cases hpre : preflightPlan pre steps with
    | error message => exact refused_inv .resume steps message
    | ok cap =>
      exact ⟨empty_books rfl rfl rfl rfl (fun _ hin _ hr => resume_marks hin hr),
        (fun hlane => by cases hlane), (fun _ h => by cases h)⟩
  | streaming forced steps =>
    simp only [LaneCall.start]
    cases hpre : preflightPlan pre steps with
    | error message => exact refused_inv .streaming steps message
    | ok cap =>
      rw [(preflight_ok hpre).1]
      exact ⟨empty_books rfl rfl rfl rfl (fun _ _ _ hr => by cases hr),
        (fun hlane => by cases hlane), (fun _ h => by cases h)⟩

theorem createdIn_cons {e : LaneEvent} (hist : List LaneEvent)
    (h : ∀ step taskId, e ≠ .created step taskId) : createdIn (e :: hist) = createdIn hist := by
  funext step taskId
  exact propext (List.mem_cons.trans (or_iff_right (fun heq => h step taskId heq.symm)))

theorem stuckIn_cons {e : LaneEvent} (hist : List LaneEvent) (h : ∀ taskId, e ≠ .stuck taskId) :
    stuckIn (e :: hist) = stuckIn hist := by
  funext taskId
  exact propext (List.mem_cons.trans (or_iff_right (fun heq => h taskId heq.symm)))

theorem step_laneInv {runtime : Runtime} {hist : List LaneEvent} {s s' : LaneRun} {e : LaneEvent}
    (h : LaneInv (createdIn hist) (stuckIn hist) s) (hstep : LaneStep runtime s e s') :
    LaneInv (createdIn (e :: hist)) (stuckIn (e :: hist)) s' := by
  have quiet {s' : LaneRun} (hs' : LaneInv (createdIn hist) (stuckIn hist) s') :
      LaneInv (createdIn (.quiet :: hist)) (stuckIn (.quiet :: hist)) s' := by
    rw [createdIn_cons hist (fun _ _ heq => by cases heq),
      stuckIn_cons hist (fun _ heq => by cases heq)]
    exact hs'
  cases hstep with
  | enter _ hidle hhalt _ hslices => exact quiet (h.enter hidle hhalt hslices)
  | claimed _ _ hhalt htodo hpending => exact quiet (h.claimed hhalt htodo hpending)
  | halted _ hhalt => exact quiet (h.broken (h.no_undo hhalt) (fun _ hv => Or.inl hv) _)
  | @unavailable step reason _ hrunning =>
    have hnone := (h.books.running _ _ hrunning).2.2
    refine quiet (h.broken hnone (fun v hv => ?_) _)
    rcases List.mem_cons.mp hv with hthis | hold
    · exact Or.inr (by rw [hthis])
    · exact Or.inl hold
  | @worked step choice invoked outcome _ hrunning houtcome hinvoked =>
    have hchoice := (h.books.running _ _ hrunning).2.1
    exact quiet (h.worked hrunning (settle_stepId step _) (worked_plain hchoice houtcome hinvoked))
  | @created step taskId _ hrunning hasks hnonempty hfresh =>
    rw [stuckIn_cons hist (fun _ heq => by cases heq)]
    refine h.created hrunning (asksScheduler_kind hasks) hnonempty hfresh (fun step' taskId' => ?_)
    exact List.mem_cons.trans (or_congr_left (LaneEvent.created.injEq _ _ _ _ ▸ Iff.rfl))
  | compensates hover hlane hended hhalt _ => exact quiet (h.compensates hover hlane hended hhalt)
  | removed hover hundo =>
    rw [createdIn_cons hist (fun _ _ heq => by cases heq),
      stuckIn_cons hist (fun _ heq => by cases heq)]
    exact h.removed hundo hover
  | stuck _ hundo =>
    rw [createdIn_cons hist (fun _ _ heq => by cases heq)]
    refine h.stuck hundo (fun t ht => ?_)
    exact (List.mem_cons.mp ht).imp (fun heq => by cases heq; rfl) id
  | answered _ _ _ => exact quiet h.answered

theorem run_laneInv {pre : Preflight} {runtime : Runtime} {call : LaneCall}
    {hist : List LaneEvent} {s : LaneRun}
    (hrun : Run (LaneStep runtime) (call.start pre runtime) hist s) :
    LaneInv (createdIn hist) (stuckIn hist) s := by
  have hkept := hrun.history (I := fun hist s => LaneInv (createdIn hist) (stuckIn hist) s)
    (start_inv pre runtime call) (fun _ _ _ _ h hstep => step_laneInv h hstep)
  exact hkept

theorem enter_over (runtime : Runtime) (s : LaneRun) (slice : Slice) (rest : List Slice) :
    (s.enter runtime slice rest).done = s.done := by
  unfold LaneRun.enter
  dsimp only
  split
  · rfl
  · split
    · rfl
    · split
      · split <;> rfl
      · split <;> rfl

theorem settle_over (s : LaneRun) (step : Step) (choice : StepChoice) (r : StepResult) :
    (s.settle step choice r).done = s.done := by
  obtain ⟨halt, heq⟩ := s.settle_shape step choice r
  rw [heq]

theorem over_cases {pre : Preflight} {runtime : Runtime} {call : LaneCall}
    {hist : List LaneEvent} {s : LaneRun}
    (hrun : Run (LaneStep runtime) (call.start pre runtime) hist s) (hover : s.done = true) :
    s.created = [] ∨ (∃ taskId, .stuck taskId ∈ hist) ∨
      (s.lane = .plan → ∀ reason, s.run.halt = some (.stopped reason) → s.undo = some []) := by
  cases hrun with
  | start =>
    left
    cases call with
    | plan steps | resume old steps failed | streaming forced steps =>
      simp only [LaneCall.start]
      cases preflightPlan pre steps <;> rfl
  | @next hist₀ s₀ _ e _ hstep =>
    have going {done : Bool} (h0 : s₀.done = false) (hsame : done = s₀.done) : done ≠ true := by
      rw [hsame, h0]
      exact Bool.false_ne_true
    cases hstep with
    | enter h0 => exact absurd hover (going h0 (enter_over _ _ _ _))
    | claimed h0 | halted h0 | unavailable h0 | compensates h0 | removed h0 =>
      exact absurd hover (going h0 rfl)
    | worked h0 => exact absurd hover (going h0 (settle_over _ _ _ _))
    | @created step taskId h0 =>
      have hsame := settle_over s₀ step .invoke (settle step (step.result (createdOutcome taskId)))
      exact absurd hover (going h0 hsame)
    | stuck _ _ => exact Or.inr (Or.inl ⟨_, List.mem_cons_self⟩)
    | answered _ _ hdone => exact Or.inr (Or.inr hdone)

theorem rolled_of_inOrder {hist : List LaneEvent} {s : LaneRun}
    (h : LaneInv (createdIn hist) (stuckIn hist) s) {reason : String}
    (hhalt : s.run.halt = some (.stopped reason))
    (hend : s.created = [] ∨ (∃ taskId, .stuck taskId ∈ hist) ∨
      (s.lane = .plan → ∀ reason, s.run.halt = some (.stopped reason) → s.undo = some []))
    (horder : ∀ e ∈ hist, e.inOrder s.lane) {id taskId : String}
    (hmem : (id, taskId) ∈ s.created) :
    taskId ∉ s.tasks ∧ s.lane = .plan ∧ ∃ r, s.run.capability.ledger id = some r ∧
      r.stepId = id ∧ r.kind = .schedule ∧ r.status = "rolled_back" := by
  obtain ⟨-, ⟨step, hevent, -⟩, r, hr, hstepId, hkind, -, -, hentry⟩ :=
    h.books.entry id taskId hmem
  have hlane : s.lane = .plan := (horder _ hevent).1
  cases hentry with
  | removed hstatus _ hgone _ => exact ⟨hgone, hlane, r, hr, hstepId, hkind, hstatus⟩
  | failed _ _ hevent' hmeets =>
    have haccepts := (horder _ hevent').2
    rw [hmeets] at haccepts
    cases haccepts
  | stands hcreated _ _ =>
    rcases hend with hnone | hstuck | hdone
    · rw [hnone] at hmem
      cases hmem
    · obtain ⟨t, ht⟩ := hstuck
      exact (horder _ ht).elim
    · have hundo := h.undo [] (hdone hlane reason hhalt)
      cases hundo.standing id taskId r hmem hr hcreated

/-- A lane that stopped with a reason has compensated, no schedule of its run being registered
and exactly the steps that created one being reported as rolled back, if and only if nothing
went out of order: every schedule was created by `execute_plan`, met its step's success
criteria, and was removed without an error. -/
theorem compensation_exact (pre : Preflight) (runtime : Runtime) (call : LaneCall)
    {hist : List LaneEvent} {s : LaneRun}
    (hrun : Run (LaneStep runtime) (call.start pre runtime) hist s) {reason : String}
    (hover : s.done = true) (hhalt : s.run.halt = some (.stopped reason)) :
    s.Compensated ↔ ∀ e ∈ hist, e.inOrder s.lane := by
  have h := run_laneInv hrun
  constructor
  · intro hcompensated e he
    have hnone {taskId : String} : taskId ∉ s.tasks := by
      rw [hcompensated.1]
      exact List.not_mem_nil
    cases e with
    | quiet => exact trivial
    | removed taskId => exact trivial
    | stuck taskId => exact absurd (h.books.stuck taskId he).1 hnone
    | created step taskId =>
      obtain ⟨-, -, r, -, -, -, -, -, hentry⟩ := h.books.entry _ _ (h.books.events step taskId he)
      cases hentry with
      | stands _ htask _ => exact absurd htask hnone
      | failed _ htask _ _ => exact absurd htask hnone
      | removed _ hlane _ hmeets => exact ⟨hlane, hmeets step he⟩
  · intro horder
    have rolled {id taskId : String} (hmem : (id, taskId) ∈ s.created) :=
      rolled_of_inOrder h hhalt (over_cases hrun hover) horder hmem
    refine ⟨List.eq_nil_iff_forall_not_mem.mpr (fun taskId htask => ?_), fun id => ⟨?_, ?_⟩⟩
    · obtain ⟨id, hmem⟩ := h.books.tasks taskId htask
      exact (rolled hmem).1 htask
    · intro hmarked
      obtain ⟨r, hr, hstepId, hkind, hstatus⟩ := hmarked
      unfold LaneRun.reported at hr
      split at hr
      · obtain ⟨v, hv, hresult⟩ := List.mem_filterMap.mp hr
        exact absurd hstatus (h.books.visits v (List.mem_reverse.mp hv) r hresult hkind)
      · obtain ⟨id', hin, hledger⟩ := List.mem_filterMap.mp hr
        obtain ⟨taskId, hmem⟩ := h.books.marks id' hin r hledger hkind hstatus
        obtain ⟨-, -, r', hr', hstepId', -⟩ := rolled hmem
        rw [hledger] at hr'
        cases hr'
        rw [← hstepId, hstepId']
        exact ⟨taskId, hmem⟩
    · intro hmade
      obtain ⟨taskId, hmem⟩ := hmade
      obtain ⟨-, hlane, r, hr, hstepId, hkind, hstatus⟩ := rolled hmem
      refine ⟨r, ?_, hstepId, hkind, hstatus⟩
      unfold LaneRun.reported
      rw [if_neg (fun hstreaming => by rw [hlane] at hstreaming; cases hstreaming)]
      exact List.mem_filterMap.mpr ⟨id, (h.plan hlane).created id taskId hmem, hr⟩

/-! ## Lanes, evaluated -/

/-- A move of a lane, with what the executor answers or the task the scheduler returns. -/
inductive LaneMove where
  | enter
  | claim
  | work (invoked : Outcome)
  | create (taskId : String)
  | compensate
  | remove
  | answer

/-- The step a move makes, where the lane allows it. -/
def LaneRun.move (runtime : Runtime) (s : LaneRun) : LaneMove → Option (LaneEvent × LaneRun)
  | .enter => match s.done, s.run.running, s.run.halt, s.run.todo, s.slices with
    | false, none, none, [], slice :: rest => some (.quiet, s.enter runtime slice rest)
    | _, _, _, _, _ => none
  | .claim => match s.done, s.run.running, s.run.halt, s.run.todo with
    | false, none, none, step :: rest =>
      if s.run.capability.states step.id = .pending then
        some (.quiet, { s with
          run := s.run.claim step (choose runtime step s.run.capability.ledger) rest })
      else none
    | _, _, _, _ => none
  | .work invoked => match s.done, s.run.running with
    | false, some (step, .invoke) =>
      if step.kind = .schedule then none
      else some (.quiet, s.settle step .invoke (Plan.settle step (step.result invoked)))
    | _, _ => none
  | .create taskId => match s.done, s.run.running with
    | false, some (step, .invoke) =>
      if asksScheduler runtime step = true ∧ taskId ≠ "" ∧ taskId ∉ s.created.map Prod.snd then
        some (.created step taskId,
          { s.settle step .invoke (Plan.settle step (step.result (createdOutcome taskId))) with
            tasks := taskId :: s.tasks, created := (step.id, taskId) :: s.created })
      else none
    | _, _ => none
  | .compensate => match s.done, s.lane, s.run.running, s.run.halt, s.undo with
    | false, .plan, none, some (.stopped _), none =>
      some (.quiet, { s with undo := some (createdSchedules s.run.capability s.run.plan) })
    | _, _, _, _, _ => none
  | .remove => match s.done, s.undo with
    | false, some (item :: rest) => some (.removed (item.taskId.getD ""), { s with
        run := s.run.compensate item
        tasks := s.tasks.filter (fun t => t ≠ item.taskId.getD "")
        undo := some rest })
    | _, _ => none
  | .answer => match s.done, s.run.running, s.run.halt with
    | false, none, some _ =>
      if s.lane = .plan ∧ s.undo.map List.isEmpty ≠ some true then none
      else some (.quiet, { s with done := true })
    | _, _, _ => none

theorem LaneRun.move_step {runtime : Runtime} {s s' : LaneRun} {m : LaneMove} {e : LaneEvent}
    (h : s.move runtime m = some (e, s')) : LaneStep runtime s e s' := by
  cases m with
  | enter =>
    simp only [LaneRun.move] at h
    split at h
    · rename_i hover hrunning hhalt htodo hslices
      cases h
      exact LaneStep.enter hover hrunning hhalt htodo hslices
    · cases h
  | claim =>
    simp only [LaneRun.move] at h
    split at h
    · rename_i hover hrunning hhalt htodo
      split at h
      · rename_i hpending
        cases h
        exact LaneStep.claimed hover hrunning hhalt htodo hpending
      · cases h
    · cases h
  | work invoked =>
    simp only [LaneRun.move] at h
    split at h
    · rename_i hover hrunning
      split at h
      · cases h
      · rename_i hkind
        cases h
        exact LaneStep.worked hover hrunning rfl (fun _ hschedule => absurd hschedule hkind)
    · cases h
  | create taskId =>
    simp only [LaneRun.move] at h
    split at h
    · rename_i hover hrunning
      split at h
      · rename_i hasks
        cases h
        exact LaneStep.created hover hrunning hasks.1 hasks.2.1 hasks.2.2
      · cases h
    · cases h
  | compensate =>
    simp only [LaneRun.move] at h
    split at h
    · rename_i hover hlane hrunning hhalt hundo
      cases h
      have hended : s.ended := ⟨hrunning, Or.inl (by rw [hhalt]; exact Option.some_ne_none _)⟩
      exact LaneStep.compensates hover hlane hended hhalt hundo
    · cases h
  | remove =>
    simp only [LaneRun.move] at h
    split at h
    · rename_i hover hundo
      cases h
      exact LaneStep.removed hover hundo
    · cases h
  | answer =>
    simp only [LaneRun.move] at h
    split at h
    · rename_i hover hrunning hhalt
      split at h
      · cases h
      · rename_i hdone
        cases h
        have hended : s.ended := ⟨hrunning, Or.inl (by rw [hhalt]; exact Option.some_ne_none _)⟩
        refine LaneStep.answered hover hended (fun hlane reason _ => ?_)
        have hempty := not_not.mp (fun hne => hdone ⟨hlane, hne⟩)
        obtain ⟨items, hitems, hnil⟩ := Option.map_eq_some_iff.mp hempty
        rw [hitems, List.isEmpty_iff.mp hnil]
    · cases h

def LaneRun.moves (runtime : Runtime) (s : LaneRun) :
    List LaneMove → Option (List LaneEvent × LaneRun)
  | [] => some ([], s)
  | m :: rest => do
    let (e, s') ← s.move runtime m
    let (hist, s'') ← s'.moves runtime rest
    some (hist ++ [e], s'')

theorem LaneRun.moves_run {runtime : Runtime} {s s' : LaneRun} {ms : List LaneMove}
    {hist : List LaneEvent} (h : s.moves runtime ms = some (hist, s')) :
    Run (LaneStep runtime) s hist s' := by
  induction ms generalizing s hist with
  | nil =>
    cases h
    exact Run.start
  | cons m rest ih =>
    obtain ⟨⟨e, s₁⟩, hmove, h⟩ := Option.bind_eq_some_iff.mp h
    obtain ⟨⟨hist₁, s₂⟩, hrest, h⟩ := Option.bind_eq_some_iff.mp h
    cases h
    exact (Run.start.next (move_step hmove)).append (ih hrest)

/-- A schedule step without dependencies. -/
def scheduleStep (id : String) : Step :=
  { toolStep id [] with
    successCriteria := none
    body := .schedule "once" id 60 60 "UTC" ("plan:" ++ id) }

def toolFailed : Outcome := { status := "error", success := false, error := some "tool_failed" }

/-- A schedule is created, a tool fails, and `execute_plan` removes the schedule. -/
theorem compensation_exact_removed : ∃ hist s,
    Run (LaneStep fullRuntime)
      (LaneCall.start openPreflight fullRuntime (.plan [scheduleStep "s", toolStep "t" []]))
      hist s ∧ s.created = [("s", "task-1")] ∧
    (s.Compensated ↔ ∀ e ∈ hist, e.inOrder s.lane) := by
  have heval : ((LaneCall.start openPreflight fullRuntime
      (.plan [scheduleStep "s", toolStep "t" []])).moves fullRuntime
      [.enter, .claim, .create "task-1", .claim, .work toolFailed, .compensate, .remove,
        .answer]).map (fun r => (r.2.done, r.2.run.halt, r.2.created)) =
      some (true, some (.stopped "unhandled_step_error:t"), [("s", "task-1")]) := by
    decide +kernel
  obtain ⟨⟨hist, s⟩, hmoves, hend⟩ := Option.map_eq_some_iff.mp heval
  simp only [Prod.mk.injEq] at hend
  obtain ⟨hover, hhalt, hcreated⟩ := hend
  exact ⟨hist, s, LaneRun.moves_run hmoves, hcreated,
    compensation_exact openPreflight fullRuntime _ (LaneRun.moves_run hmoves) hover hhalt⟩

/-- The streaming stage creates a schedule, its tool fails, and the schedule stays. -/
theorem streaming_leaves_schedule : ∃ hist s reason,
    Run (LaneStep fullRuntime)
      (LaneCall.start openPreflight fullRuntime
        (.streaming false [scheduleStep "s", toolStep "t" []])) hist s ∧
    s.done = true ∧ s.run.halt = some (.stopped reason) ∧ s.tasks = ["task-1"] ∧
    ¬ s.Compensated := by
  have heval : ((LaneCall.start openPreflight fullRuntime
      (.streaming false [scheduleStep "s", toolStep "t" []])).moves fullRuntime
      [.enter, .enter, .claim, .create "task-1", .enter, .claim, .work toolFailed,
        .answer]).map (fun r => (r.2.done, r.2.run.halt, r.2.tasks)) =
      some (true, some (.stopped "unhandled_step_error:t"), ["task-1"]) := by
    decide +kernel
  obtain ⟨⟨hist, s⟩, hmoves, hend⟩ := Option.map_eq_some_iff.mp heval
  simp only [Prod.mk.injEq] at hend
  obtain ⟨hover, hhalt, htasks⟩ := hend
  refine ⟨hist, s, _, LaneRun.moves_run hmoves, hover, hhalt, htasks, fun hcompensated => ?_⟩
  rw [hcompensated.1] at htasks
  cases htasks

end Plan
