import Yuizaki.Lib.Dict
import Yuizaki.Lib.Run
import Yuizaki.Lib.Window
import Mathlib.Data.Finset.Card

/- Admission of QQ messages (`_admit_qq`, the webhook and the retry route in
   `routes/connector_api.py`).

   The router counts the admissions of a session in the last minute (`recentEvents`) and keeps
   a slot for every delivery it works on (`inflight`). A webhook asks twice, first without
   reserving, and starts a worker; a retry works in its own request. A worker gives up its slot
   in its `finally` block, and once more in a done callback that the event loop runs later, for
   a task that was cancelled before its first step. `qq_admission_exact` says that every slot
   is held by one worker, no more workers run than may, and no session is admitted too often,
   exactly along the runs in which no callback comes late to a slot that is held again, and no
   webhook is refused between its two questions. -/
namespace Connector

open Transition

/-! ## The router -/

/-- `maxConcurrent` and `ratePerMinute` of the QQ connector. -/
structure QqConfig where
  maxConcurrent : ℕ
  ratePerMinute : ℕ

/-- What admission reads of a `ConnectorMessage`. -/
structure QqMessage where
  eventId : String
  sessionId : String

/-- `f"qq:{message.event_id}"`. -/
def QqMessage.key (message : QqMessage) : String := "qq:" ++ message.eventId

/-- Where the task of a worker is: not begun, at its turn, at its reply, cancelled before it
began, past its `finally` block, or over with its callbacks run. -/
inductive TaskPhase where
  | fresh
  | turning
  | replying
  | dropped
  | ended
  | gone
deriving DecidableEq

/-- Whether a task in the phase is not done. -/
def TaskPhase.running : TaskPhase → Bool
  | .fresh | .turning | .replying => true
  | .dropped | .ended | .gone => false

/-- Whether a task in the phase has a slot to give up: it runs, or its callback is all that is
left. -/
def TaskPhase.holds : TaskPhase → Bool
  | .fresh | .turning | .replying | .dropped => true
  | .ended | .gone => false

/-- The task of a worker, or the request of a retry. -/
structure QqTask where
  key : String
  rateReserved : Bool
  retries : Bool
  phase : TaskPhase
  cancelling : Bool := false
deriving DecidableEq

def QqTask.running (task : QqTask) : Bool := task.phase.running

/-- Whether the task has a slot to give up. -/
def QqTask.holds (task : QqTask) : Bool := task.phase.holds

structure Admission where
  worker : ℕ
  key : String
  sessionId : String
  time : ℚ
deriving DecidableEq

/-- The router's memory, its tasks, and the admissions that were not replays, newest first,
for the record. -/
structure QqSystem where
  now : ℚ
  recentEvents : Dict String (String × ℚ)
  inflight : Finset String
  tasks : Dict ℕ QqTask
  next : ℕ
  activeTasks : Dict String ℕ
  admissions : List Admission

def QqSystem.new (now : ℚ) : QqSystem :=
  ⟨now, Dict.empty, ∅, Dict.empty, 0, Dict.empty, []⟩

/-- The recent events without those a minute old. -/
def prune (now : ℚ) (events : Dict String (String × ℚ)) : Dict String (String × ℚ) :=
  events.filter (fun _ event => ¬ event.2 ≤ now - 60)

def sessionCount (events : Dict String (String × ℚ)) (sessionId : String) : ℕ :=
  (events.filter (fun _ event => event.1 = sessionId)).keys.length

/-- `_admit_qq`: whether the message is admitted, and whether it counts against its session. -/
def QqSystem.admitQq (config : QqConfig) (s : QqSystem) (message : QqMessage) (replay reserve : Bool)
    (now : ℚ) : QqSystem × Bool × Bool :=
  let recentEvents := prune now s.recentEvents
  let replay := replay || (recentEvents.get message.key).isSome
  let s := { s with now, recentEvents }
  if message.key ∈ s.inflight ∨ config.maxConcurrent ≤ s.inflight.card ∨
      replay = false ∧ config.ratePerMinute ≤ sessionCount recentEvents message.sessionId then
    (s, false, false)
  else if reserve then
    ({ s with
      inflight := insert message.key s.inflight
      recentEvents := if replay then recentEvents
        else recentEvents.set message.key (message.sessionId, now) }, true, !replay)
  else (s, true, !replay)

/-- Whether the worker of a key is at work. -/
def QqSystem.attended (s : QqSystem) (key : String) : Bool :=
  (s.activeTasks.get key).any (fun n => (s.tasks.get n).any QqTask.running)

def QqSystem.spawn (s : QqSystem) (message : QqMessage) (rateReserved : Bool) : QqSystem :=
  { s with
    tasks := s.tasks.set s.next {
      key := message.key, rateReserved, retries := false, phase := .fresh }
    next := s.next + 1
    activeTasks := s.activeTasks.set message.key s.next
    admissions := if rateReserved then ⟨s.next, message.key, message.sessionId, s.now⟩ :: s.admissions
      else s.admissions }

/-- A message whose pending row could not be written gives back what it reserved. -/
def QqSystem.giveBack (s : QqSystem) (message : QqMessage) (rateReserved : Bool) : QqSystem :=
  { s with
    inflight := s.inflight.erase message.key
    recentEvents := if rateReserved then s.recentEvents.erase message.key else s.recentEvents }

/-- The webhook: `existing` holds where there is a delivery row, `setUp` where the turn could be
set up, and `enqueued` where the pending row was written. -/
def QqSystem.receive (config : QqConfig) (s : QqSystem) (message : QqMessage)
    (existing setUp enqueued : Bool) (now now' : ℚ) : QqSystem :=
  if s.attended message.key then s
  else
    let (s, admitted, _) := s.admitQq config message existing false now
    if admitted && setUp then
      -- the second answer is not looked at
      let (s, _, rateReserved) := s.admitQq config message existing true now'
      if enqueued then s.spawn message rateReserved else s.giveBack message rateReserved
    else s

/-- The retry route, up to where it awaits the turn or the provider. -/
def QqSystem.retry (config : QqConfig) (s : QqSystem) (message : QqMessage) (now : ℚ) : QqSystem :=
  let (s, admitted, _) := s.admitQq config message true true now
  if admitted then
    { s with
      tasks := s.tasks.set s.next {
        key := message.key, rateReserved := false, retries := true, phase := .turning }
      next := s.next + 1 }
  else s

def QqSystem.mapTask (s : QqSystem) (n : ℕ) (f : QqTask → QqTask) : QqSystem :=
  match s.tasks.get n with
  | none => s
  | some task => { s with tasks := s.tasks.set n (f task) }

/-- A worker has its turn; a turn that was a replay gives back its place in the minute. -/
def QqSystem.turned (s : QqSystem) (n : ℕ) (task : QqTask) (replayed : Bool) : QqSystem :=
  let s := s.mapTask n fun task => { task with phase := .replying }
  if replayed && task.rateReserved then
    { s with
      recentEvents := s.recentEvents.erase task.key
      admissions := s.admissions.filter (fun a => a.worker ≠ n) }
  else s

/-- The `finally` block of a worker, or of a retry, which is over with it. -/
def QqSystem.finish (s : QqSystem) (n : ℕ) (task : QqTask) : QqSystem :=
  let s := s.mapTask n fun task => { task with phase := if task.retries then .gone else .ended }
  { s with inflight := s.inflight.erase task.key }

def QqSystem.callbacks (s : QqSystem) (n : ℕ) (task : QqTask) : QqSystem :=
  let s := s.mapTask n fun task => { task with phase := .gone }
  { s with
    inflight := s.inflight.erase task.key
    activeTasks := if s.activeTasks.get task.key = some n then s.activeTasks.erase task.key
      else s.activeTasks }

/-! ## Steps -/

inductive QqLabel where
  | receive (message : QqMessage) (existing setUp enqueued : Bool) (now now' : ℚ)
  | retry (message : QqMessage) (now : ℚ)
  | cancel (n : ℕ)
  | begin (n : ℕ)
  | turned (n : ℕ) (replayed : Bool)
  | finish (n : ℕ)
  | drop (n : ℕ)
  | callbacks (n : ℕ)

/-- One step of the event loop: a request as far as its first `await`, or a task from one to
the next. -/
inductive QqStep (config : QqConfig) (s : QqSystem) : QqLabel → QqSystem → Prop
  | receive (message : QqMessage) (existing setUp enqueued : Bool) (now now' : ℚ)
      (hnow : s.now ≤ now) (hnow' : now ≤ now') :
      QqStep config s (.receive message existing setUp enqueued now now')
        (s.receive config message existing setUp enqueued now now')
  | retry (message : QqMessage) (now : ℚ) (hnow : s.now ≤ now) :
      QqStep config s (.retry message now) (s.retry config message now)
  | cancel (n : ℕ) (task : QqTask) (htask : s.tasks.get n = some task)
      (hrunning : task.running = true) :
      QqStep config s (.cancel n) (s.mapTask n fun task => { task with cancelling := true })
  | begin (n : ℕ) (task : QqTask) (htask : s.tasks.get n = some task)
      (hfresh : task.phase = .fresh) (hlive : task.cancelling = false) :
      QqStep config s (.begin n) (s.mapTask n fun task => { task with phase := .turning })
  | turned (n : ℕ) (task : QqTask) (replayed : Bool) (htask : s.tasks.get n = some task)
      (hturning : task.phase = .turning) (hworker : task.retries = false) :
      QqStep config s (.turned n replayed) (s.turned n task replayed)
  /-- A turn or a reply ends, fails or is cancelled. -/
  | finish (n : ℕ) (task : QqTask) (htask : s.tasks.get n = some task)
      (hphase : task.phase = .turning ∨ task.phase = .replying) :
      QqStep config s (.finish n) (s.finish n task)
  | drop (n : ℕ) (task : QqTask) (htask : s.tasks.get n = some task)
      (hfresh : task.phase = .fresh) (hcancelling : task.cancelling = true) :
      QqStep config s (.drop n) (s.mapTask n fun task => { task with phase := .dropped })
  | callbacks (n : ℕ) (task : QqTask) (htask : s.tasks.get n = some task)
      (hphase : task.phase = .ended ∨ task.phase = .dropped) :
      QqStep config s (.callbacks n) (s.callbacks n task)

/-! ## What is claimed, and the condition -/

/-- Slots are held by one worker each and by no one else, no more workers run than may, and no
session was admitted too often in any minute. -/
structure QqSystem.Sound (config : QqConfig) (s : QqSystem) : Prop where
  slots : ∀ key, key ∈ s.inflight ↔
    ∃ n task, s.tasks.get n = some task ∧ task.holds = true ∧ task.key = key
  alone : ∀ n n' task task', s.tasks.get n = some task → s.tasks.get n' = some task' →
    task.holds = true → task'.holds = true → task.key = task'.key → n = n'
  concurrent : s.tasks.entries.countP (fun e => e.2.running) ≤ config.maxConcurrent
  limited : Window.Limited 60 config.ratePerMinute Admission.sessionId Admission.time s.admissions

def QqSystem.later (s : QqSystem) (now : ℚ) : QqSystem :=
  { s with now, recentEvents := prune now s.recentEvents }

/-- The webhook is admitted as a replay of a recent message, whose minute is over before the
webhook asks again, in a session that is full. -/
structure Lapses (config : QqConfig) (s : QqSystem) (message : QqMessage) (existing : Bool)
    (now now' : ℚ) : Prop where
  unattended : s.attended message.key = false
  free : message.key ∉ s.inflight
  room : s.inflight.card < config.maxConcurrent
  new : existing = false
  recent : (s.later now).recentEvents.get message.key ≠ none
  lapsed : ((s.later now).later now').recentEvents.get message.key = none
  full : config.ratePerMinute ≤
    sessionCount ((s.later now).later now').recentEvents message.sessionId

/-- No callback runs while another worker holds the slot of its key, and no webhook that goes on
to a worker lapses. -/
def Unraced (config : QqConfig) (s : QqSystem) : QqLabel → Prop
  | .receive message existing setUp enqueued now now' => setUp = true → enqueued = true →
    ¬ Lapses config s message existing now now'
  | .callbacks n => ∀ n' task task', s.tasks.get n = some task → s.tasks.get n' = some task' →
    task'.holds = true → task'.key = task.key → n' = n
  | _ => True

/-! ## Admission -/

/-- The router after it reserved a slot, and a place in the minute where it `counts`. -/
def QqSystem.reserve (s : QqSystem) (message : QqMessage) (counts : Bool) : QqSystem :=
  { s with
    inflight := insert message.key s.inflight
    recentEvents := if counts then s.recentEvents.set message.key (message.sessionId, s.now)
      else s.recentEvents }

/-- Whether a message counts against its session. -/
def QqSystem.counts (s : QqSystem) (message : QqMessage) (replay : Bool) : Bool :=
  !(replay || (s.recentEvents.get message.key).isSome)

section Admit

variable {config : QqConfig} {s : QqSystem} {message : QqMessage} {replay : Bool} {now : ℚ}

theorem admit_cases (config : QqConfig) (s : QqSystem) (message : QqMessage) (replay reserve : Bool)
    (now : ℚ) :
    (s.admitQq config message replay reserve now = (s.later now, false, false) ∧
      (message.key ∈ s.inflight ∨ config.maxConcurrent ≤ s.inflight.card ∨
        (s.later now).counts message replay = true ∧
          config.ratePerMinute ≤ sessionCount (s.later now).recentEvents message.sessionId)) ∨
    (message.key ∉ s.inflight ∧ s.inflight.card < config.maxConcurrent ∧
      ((s.later now).counts message replay = true →
        sessionCount (s.later now).recentEvents message.sessionId < config.ratePerMinute) ∧
      s.admitQq config message replay reserve now =
        (if reserve then (s.later now).reserve message ((s.later now).counts message replay)
          else s.later now, true, (s.later now).counts message replay)) := by
  have hcounts : (s.later now).counts message replay = true ↔
      (replay || ((prune now s.recentEvents).get message.key).isSome) = false := by
    rw [QqSystem.counts, Bool.not_eq_true']
    rfl
  unfold QqSystem.admitQq
  dsimp only
  split
  · rename_i hrefused
    refine Or.inl ⟨rfl, ?_⟩
    rw [hcounts]
    exact hrefused
  · rename_i hadmitted
    rw [not_or, not_or] at hadmitted
    obtain ⟨hfree, hroom, hminute⟩ := hadmitted
    refine Or.inr ⟨hfree, Nat.lt_of_not_le hroom, fun hcount => ?_, ?_⟩
    · rw [hcounts] at hcount
      exact Nat.lt_of_not_le fun hfull => hminute ⟨hcount, hfull⟩
    · cases reserve with
      | false => rfl
      | true =>
        rw [if_pos rfl, if_pos rfl, QqSystem.reserve, QqSystem.counts]
        cases hreplay : (replay || ((prune now s.recentEvents).get message.key).isSome) with
        | false =>
          have hlater : (replay || ((s.later now).recentEvents.get message.key).isSome) = false :=
            hreplay
          rw [hlater]
          rfl
        | true =>
          have hlater : (replay || ((s.later now).recentEvents.get message.key).isSome) = true :=
            hreplay
          rw [hlater]
          rfl

theorem sessionCount_prune_le (now : ℚ) (events : Dict String (String × ℚ)) (sessionId : String) :
    sessionCount (prune now events) sessionId ≤ sessionCount events sessionId := by
  have hsub : ((prune now events).filter (fun _ event => event.1 = sessionId)).keys.Sublist
      (events.filter (fun _ event => event.1 = sessionId)).keys :=
    (List.filter_sublist.filter _).map Prod.fst
  exact hsub.length_le

end Admit

/-! ## The invariant -/

/-- Whether the turn of the task is not known yet. -/
def QqTask.early (task : QqTask) : Bool :=
  match task.phase with
  | .fresh | .turning => true
  | _ => false

/-- What steps under the condition keep: the slots, and the recent events of every admission of
the last minute, under keys of their own. -/
structure QqSystem.Kept (config : QqConfig) (s : QqSystem) : Prop where
  slots : ∀ key, key ∈ s.inflight ↔
    ∃ n task, s.tasks.get n = some task ∧ task.holds = true ∧ task.key = key
  alone : ∀ n n' task task', s.tasks.get n = some task → s.tasks.get n' = some task' →
    task.holds = true → task'.holds = true → task.key = task'.key → n = n'
  room : s.inflight.card ≤ config.maxConcurrent
  limited : Window.Limited 60 config.ratePerMinute Admission.sessionId Admission.time s.admissions
  past : ∀ a ∈ s.admissions, a.time ≤ s.now ∧ a.worker < s.next
  workers : (s.admissions.map Admission.worker).Nodup
  recorded : ∀ a ∈ s.admissions, s.now - 60 < a.time →
    s.recentEvents.get a.key = some (a.sessionId, a.time)
  distinct : ∀ a ∈ s.admissions, ∀ b ∈ s.admissions, b.worker < a.worker →
    s.now - 60 < b.time → a.key ≠ b.key
  newest : ∀ n task, s.tasks.get n = some task → task.holds = true →
    ∀ a ∈ s.admissions, a.key = task.key → a.worker ≤ n
  own : ∀ n task, s.tasks.get n = some task → task.rateReserved = true → task.early = true →
    ∃ a ∈ s.admissions, a.worker = n ∧ a.key = task.key

/-- Every task has a number below the next. -/
def QqSystem.Numbered (s : QqSystem) : Prop := ∀ n task, s.tasks.get n = some task → n < s.next

section Invariant

variable {config : QqConfig} {s : QqSystem} {message : QqMessage} {n : ℕ} {task task' : QqTask}

theorem new_kept (config : QqConfig) (now : ℚ) : (QqSystem.new now).Kept config where
  slots := fun key => ⟨(fun h => absurd h (Finset.notMem_empty key)), fun ⟨_, _, h, _⟩ => by cases h⟩
  alone := fun _ _ _ _ h => by cases h
  room := Nat.zero_le _
  limited := Window.limited_nil
  past := fun _ h => by cases h
  workers := List.nodup_nil
  recorded := fun _ h => by cases h
  distinct := fun _ h => by cases h
  newest := fun _ _ h => by cases h
  own := fun _ _ h => by cases h

theorem get_later {now : ℚ} {key : String} : (s.later now).recentEvents.get key =
    (s.recentEvents.get key).filter (fun event => ¬ event.2 ≤ now - 60) := Dict.get_filter

theorem QqSystem.Kept.later (h : s.Kept config) {now : ℚ} (hnow : s.now ≤ now) :
    (s.later now).Kept config := by
  have hwindow {t : ℚ} (ht : now - 60 < t) : s.now - 60 < t :=
    lt_of_le_of_lt (sub_le_sub_right hnow 60) ht
  refine { h with past := fun a ha => ?_, recorded := fun a ha ht => ?_, distinct := ?_ }
  · exact ⟨(h.past a ha).1.trans hnow, (h.past a ha).2⟩
  · rw [get_later, h.recorded a ha (hwindow ht)]
    exact Option.filter_some_pos (decide_eq_true (not_le.mpr ht))
  · exact fun a ha b hb hab ht => h.distinct a ha b hb hab (hwindow ht)

theorem QqSystem.Kept.count_le (h : s.Kept config) (sessionId : String) :
    Window.count 60 Admission.sessionId Admission.time s.admissions sessionId s.now ≤
      sessionCount s.recentEvents sessionId := by
  let recent := s.admissions.filter
    (fun a => a.sessionId = sessionId ∧ s.now - 60 < a.time ∧ a.time ≤ s.now)
  have hrecent {a : Admission} (ha : a ∈ recent) : a ∈ s.admissions ∧ a.sessionId = sessionId ∧
      s.now - 60 < a.time := by
    obtain ⟨hmem, hin⟩ := List.mem_filter.mp ha
    obtain ⟨hsession, hafter, -⟩ := of_decide_eq_true hin
    exact ⟨hmem, hsession, hafter⟩
  have hcount : Window.count 60 Admission.sessionId Admission.time s.admissions sessionId s.now =
      recent.length := List.countP_eq_length_filter
  -- two of them have different workers, and so different keys
  have hnodup : (recent.map Admission.key).Nodup := by
    have hworkers : recent.Nodup := (List.Nodup.of_map _ h.workers).filter _
    refine List.Nodup.map_on (fun a ha b hb hkey => ?_) hworkers
    obtain ⟨ha, -, hta⟩ := hrecent ha
    obtain ⟨hb, -, htb⟩ := hrecent hb
    rcases Nat.lt_trichotomy a.worker b.worker with hlt | heq | hlt
    · exact absurd hkey.symm (h.distinct b hb a ha hlt hta)
    · exact List.inj_on_of_nodup_map h.workers ha hb heq
    · exact absurd hkey (h.distinct a ha b hb hlt htb)
  have hsub : recent.map Admission.key ⊆
      (s.recentEvents.filter (fun _ event => event.1 = sessionId)).keys := by
    intro key hkey
    obtain ⟨a, ha, rfl⟩ := List.mem_map.mp hkey
    obtain ⟨ha, hsession, hta⟩ := hrecent ha
    rw [Dict.mem_keys]
    refine ⟨(a.sessionId, a.time), ?_⟩
    rw [Dict.get_filter, h.recorded a ha hta]
    exact Option.filter_some_pos (decide_eq_true hsession)
  calc Window.count 60 Admission.sessionId Admission.time s.admissions sessionId s.now
      = recent.length := hcount
    _ = (recent.map Admission.key).length := by rw [List.length_map]
    _ ≤ sessionCount s.recentEvents sessionId := (List.subperm_of_subset hnodup hsub).length_le

theorem counts_iff {replay : Bool} : s.counts message replay = true ↔
    replay = false ∧ s.recentEvents.get message.key = none := by
  rw [QqSystem.counts, Bool.not_eq_true', Bool.or_eq_false_iff, Option.isSome_eq_false_iff,
    Option.isNone_iff_eq_none]

theorem QqSystem.Kept.reserved_slots (h : s.Kept config) (hnumbered : s.Numbered)
    (hkey : task.key = message.key) (hholds : task.holds = true) (key : String) :
    key ∈ insert message.key s.inflight ↔
      ∃ n task', (s.tasks.set s.next task).get n = some task' ∧ task'.holds = true ∧
        task'.key = key := by
  rw [Finset.mem_insert, h.slots]
  refine ⟨fun hmem => ?_, fun ⟨n, task', htask', hholds', heq⟩ => ?_⟩
  · rcases hmem with rfl | ⟨n, task', htask', hholds', heq⟩
    · exact ⟨s.next, task, Dict.get_set_self, hholds, hkey⟩
    · refine ⟨n, task', ?_, hholds', heq⟩
      rw [Dict.get_set_of_ne (Nat.ne_of_lt (hnumbered n task' htask'))]
      exact htask'
  · rw [Dict.get_set] at htask'
    split at htask'
    · cases htask'
      exact Or.inl (heq.symm.trans hkey)
    · exact Or.inr ⟨n, task', htask', hholds', heq⟩

theorem QqSystem.Kept.launch (h : s.Kept config) (hnumbered : s.Numbered) (task : QqTask) (counts : Bool)
    (hfree : message.key ∉ s.inflight) (hroom : s.inflight.card < config.maxConcurrent)
    (hcounts : counts = true → s.recentEvents.get message.key = none ∧
      sessionCount s.recentEvents message.sessionId < config.ratePerMinute)
    (hkey : task.key = message.key) (hholds : task.holds = true)
    (hreserved : task.rateReserved = counts) (activeTasks : Dict String ℕ) {log : List Admission}
    (hlog : log = if counts then ⟨s.next, message.key, message.sessionId, s.now⟩ :: s.admissions
      else s.admissions) :
    ({ s.reserve message counts with
      tasks := s.tasks.set s.next task
      next := s.next + 1
      activeTasks
      admissions := log } : QqSystem).Kept config := by
  -- the admissions are those there were, and the new one
  have hadmission {a : Admission} (ha : a ∈ log) : a ∈ s.admissions ∨ counts = true ∧
      a = ⟨s.next, message.key, message.sessionId, s.now⟩ := by
    rw [hlog] at ha
    split at ha
    · rename_i hcount
      rcases List.mem_cons.mp ha with heq | ha
      · exact Or.inr ⟨hcount, heq⟩
      · exact Or.inl ha
    · exact Or.inl ha
  have hold {a : Admission} (ha : a ∈ s.admissions) : a ∈ log := by
    rw [hlog]
    split
    · exact List.mem_cons_of_mem _ ha
    · exact ha
  -- no recent admission has the key of one that counts
  have hfresh {a : Admission} (hcount : counts = true) (ha : a ∈ s.admissions)
      (ht : s.now - 60 < a.time) : a.key ≠ message.key := by
    intro heq
    have hrecorded := h.recorded a ha ht
    rw [heq, (hcounts hcount).1] at hrecorded
    cases hrecorded
  have holder {n : ℕ} {task' : QqTask} (htask' : (s.tasks.set s.next task).get n = some task') :
      n = s.next ∧ task' = task ∨ s.tasks.get n = some task' := by
    rw [Dict.get_set] at htask'
    split at htask'
    · cases htask'
      exact Or.inl ⟨‹_›, rfl⟩
    · exact Or.inr htask'
  have halone {n : ℕ} {task' : QqTask} (htask' : s.tasks.get n = some task')
      (hholds' : task'.holds = true) : task'.key ≠ message.key := fun heq =>
    hfree ((h.slots message.key).mpr ⟨n, task', htask', hholds', heq⟩)
  refine ⟨h.reserved_slots hnumbered hkey hholds, ?_, ?_, ?_, ?_, ?_, ?_, ?_, ?_, ?_⟩
  · intro n n' task₁ task₂ h₁ h₂ hholds₁ hholds₂ heq
    rcases holder h₁ with ⟨hn, htask₁⟩ | h₁
    · rw [htask₁, hkey] at heq
      rcases holder h₂ with ⟨hn', -⟩ | h₂
      · rw [hn, hn']
      · exact absurd heq.symm (halone h₂ hholds₂)
    · rcases holder h₂ with ⟨hn', htask₂⟩ | h₂
      · rw [htask₂, hkey] at heq
        exact absurd heq (halone h₁ hholds₁)
      · exact h.alone n n' task₁ task₂ h₁ h₂ hholds₁ hholds₂ heq
  · show (insert message.key s.inflight).card ≤ _
    rw [Finset.card_insert_of_notMem hfree]
    exact hroom
  · show Window.Limited 60 config.ratePerMinute Admission.sessionId Admission.time log
    rw [hlog]
    split
    · rename_i hcount
      refine Window.limited_cons h.limited (fun b hb => (h.past b hb).1) ?_
      exact lt_of_le_of_lt (h.count_le message.sessionId) (hcounts hcount).2
    · exact h.limited
  · intro a ha
    rcases hadmission ha with ha | ⟨-, rfl⟩
    · exact ⟨(h.past a ha).1, Nat.lt_succ_of_lt (h.past a ha).2⟩
    · exact ⟨le_rfl, Nat.lt_succ_self _⟩
  · show (log.map Admission.worker).Nodup
    rw [hlog]
    split
    · rw [List.map_cons]
      refine List.nodup_cons.mpr ⟨fun hmem => ?_, h.workers⟩
      obtain ⟨a, ha, heq⟩ := List.mem_map.mp hmem
      exact Nat.ne_of_lt (h.past a ha).2 heq
    · exact h.workers
  · intro a ha ht
    show (if counts then _ else _ : Dict String (String × ℚ)).get a.key = _
    rcases hadmission ha with ha | ⟨hcount, rfl⟩
    · split
      · rename_i hcount
        rw [Dict.get_set_of_ne (hfresh hcount ha ht)]
        exact h.recorded a ha ht
      · exact h.recorded a ha ht
    · rw [if_pos hcount]
      exact Dict.get_set_self
  · intro a ha b hb hab ht
    rcases hadmission ha with ha | ⟨hcount, rfl⟩
    · rcases hadmission hb with hb | ⟨-, rfl⟩
      · exact h.distinct a ha b hb hab ht
      · exact absurd hab (Nat.not_lt_of_lt (h.past a ha).2)
    · rcases hadmission hb with hb | ⟨-, rfl⟩
      · exact (hfresh hcount hb ht).symm
      · exact absurd hab (Nat.lt_irrefl _)
  · intro n task' htask' hholds' a ha heq
    rcases holder htask' with ⟨hn, -⟩ | htask'
    · rw [hn]
      rcases hadmission ha with ha | ⟨-, rfl⟩
      · exact Nat.le_of_lt (h.past a ha).2
      · exact Nat.le_refl _
    · rcases hadmission ha with ha | ⟨-, rfl⟩
      · exact h.newest n task' htask' hholds' a ha heq
      · exact absurd heq.symm (halone htask' hholds')
  · intro n task' htask' hres hearly
    rcases holder htask' with ⟨hn, rfl⟩ | htask'
    · have hcount : counts = true := hreserved.symm.trans hres
      refine ⟨⟨s.next, message.key, message.sessionId, s.now⟩, ?_, hn.symm, hkey.symm⟩
      show _ ∈ log
      rw [hlog, if_pos hcount]
      exact List.mem_cons_self
    · obtain ⟨a, ha, hworker, heq⟩ := h.own n task' htask' hres hearly
      exact ⟨a, hold ha, hworker, heq⟩

theorem QqSystem.Kept.giveBack (h : s.Kept config) {counts : Bool}
    (hfree : message.key ∉ s.inflight)
    (hcounts : counts = true → s.recentEvents.get message.key = none) :
    ((s.reserve message counts).giveBack message counts).Kept config := by
  have hslots : (insert message.key s.inflight).erase message.key = s.inflight :=
    Finset.erase_insert hfree
  refine { h with slots := fun key => ?_, room := ?_, recorded := fun a ha ht => ?_ }
  · show key ∈ (insert message.key s.inflight).erase message.key ↔ _
    rw [hslots]
    exact h.slots key
  · show ((insert message.key s.inflight).erase message.key).card ≤ _
    rw [hslots]
    exact h.room
  · have hrecorded := h.recorded a ha ht
    show (if counts then _ else _ : Dict String (String × ℚ)).get a.key = _
    split
    · rename_i hcount
      have hne : a.key ≠ message.key := fun heq => by
        rw [heq, hcounts hcount] at hrecorded
        cases hrecorded
      show ((if counts then _ else _ : Dict String (String × ℚ)).erase message.key).get a.key = _
      rw [if_pos hcount, Dict.get_erase, if_neg hne, Dict.get_set_of_ne hne]
      exact hrecorded
    · show (if counts then _ else _ : Dict String (String × ℚ)).get a.key = _
      rw [if_neg ‹_›]
      exact hrecorded

theorem QqSystem.Kept.move (h : s.Kept config) (htask : s.tasks.get n = some task) (task' : QqTask)
    (hkey : task'.key = task.key) (hreserved : task'.rateReserved = task.rateReserved)
    (hholds : task'.holds = true → task.holds = true)
    (hearly : task'.early = true → task.early = true) (activeTasks : Dict String ℕ)
    {inflight : Finset String} (hinflight : inflight =
      if task.holds && !task'.holds then s.inflight.erase task.key else s.inflight) :
    ({ s with tasks := s.tasks.set n task', inflight, activeTasks } : QqSystem).Kept config := by
  have hold {n₁ : ℕ} {task₁ : QqTask} (h₁ : (s.tasks.set n task').get n₁ = some task₁) :
      n₁ = n ∧ task₁ = task' ∨ n₁ ≠ n ∧ s.tasks.get n₁ = some task₁ := by
    rw [Dict.get_set] at h₁
    split at h₁
    · cases h₁
      exact Or.inl ⟨‹_›, rfl⟩
    · exact Or.inr ⟨‹_›, h₁⟩
  -- a task that holds a slot held it before, under the same key
  have hbefore {n₁ : ℕ} {task₁ : QqTask} (h₁ : (s.tasks.set n task').get n₁ = some task₁)
      (hholds₁ : task₁.holds = true) :
      ∃ task₂, s.tasks.get n₁ = some task₂ ∧ task₂.holds = true ∧ task₂.key = task₁.key := by
    rcases hold h₁ with ⟨rfl, rfl⟩ | ⟨-, h₁⟩
    · exact ⟨task, htask, hholds hholds₁, hkey.symm⟩
    · exact ⟨task₁, h₁, hholds₁, rfl⟩
  refine { h with slots := fun key => ?_, alone := ?_, room := ?_, newest := ?_, own := ?_ }
  · have hmem : key ∈ inflight ↔ key ∈ s.inflight ∧
        ¬ (key = task.key ∧ task.holds = true ∧ task'.holds = false) := by
      rw [hinflight]
      cases hwas : task.holds <;> cases his : task'.holds <;> simp [and_comm]
    rw [hmem, h.slots]
    refine ⟨fun ⟨⟨n₁, task₁, h₁, hholds₁, heq₁⟩, hleft⟩ => ?_, fun ⟨n₁, task₁, h₁, hholds₁, heq₁⟩ => ?_⟩
    · by_cases hn : n₁ = n
      · -- the task itself, which still holds its slot
        subst hn
        rw [htask] at h₁
        cases h₁
        refine ⟨n₁, task', Dict.get_set_self, ?_, hkey.trans heq₁⟩
        by_contra hno
        exact hleft ⟨heq₁.symm, hholds₁, Bool.eq_false_iff.mpr hno⟩
      · exact ⟨n₁, task₁, (Dict.get_set_of_ne hn).trans h₁, hholds₁, heq₁⟩
    · obtain ⟨task₂, h₂, hholds₂, heq₂⟩ := hbefore h₁ hholds₁
      refine ⟨⟨n₁, task₂, h₂, hholds₂, heq₂.trans heq₁⟩, fun ⟨heq, hwas, his⟩ => ?_⟩
      -- no other task held the slot that was given up
      rcases hold h₁ with ⟨-, rfl⟩ | ⟨hn, h₁⟩
      · rw [his] at hholds₁
        cases hholds₁
      · exact hn (h.alone n₁ n task₁ task h₁ htask hholds₁ hwas (heq₁.trans heq))
  · intro n₁ n₂ task₁ task₂ h₁ h₂ hholds₁ hholds₂ heq
    obtain ⟨task₃, h₃, hholds₃, heq₃⟩ := hbefore h₁ hholds₁
    obtain ⟨task₄, h₄, hholds₄, heq₄⟩ := hbefore h₂ hholds₂
    exact h.alone n₁ n₂ task₃ task₄ h₃ h₄ hholds₃ hholds₄ (heq₃.trans (heq.trans heq₄.symm))
  · show inflight.card ≤ _
    rw [hinflight]
    split
    · exact (Finset.card_erase_le).trans h.room
    · exact h.room
  · intro n₁ task₁ h₁ hholds₁ a ha heq
    obtain ⟨task₂, h₂, hholds₂, heq₂⟩ := hbefore h₁ hholds₁
    exact h.newest n₁ task₂ h₂ hholds₂ a ha (heq.trans heq₂.symm)
  · intro n₁ task₁ h₁ hres hearly₁
    rcases hold h₁ with ⟨rfl, rfl⟩ | ⟨-, h₁⟩
    · rw [hkey]
      exact h.own n₁ task htask (hreserved ▸ hres) (hearly hearly₁)
    · exact h.own n₁ task₁ h₁ hres hearly₁

theorem QqSystem.Kept.refund (h : s.Kept config) (htask : s.tasks.get n = some task)
    (hholds : task.holds = true) (hlate : task.early = false)
    (hown : ∃ a ∈ s.admissions, a.worker = n ∧ a.key = task.key) :
    ({ s with
      recentEvents := s.recentEvents.erase task.key
      admissions := s.admissions.filter (fun a => a.worker ≠ n) } : QqSystem).Kept config := by
  have hleft {a : Admission} (ha : a ∈ s.admissions.filter (fun a => a.worker ≠ n)) :
      a ∈ s.admissions ∧ a.worker ≠ n := by
    obtain ⟨hmem, hne⟩ := List.mem_filter.mp ha
    exact ⟨hmem, of_decide_eq_true hne⟩
  refine ⟨h.slots, h.alone, h.room, h.limited.sublist List.filter_sublist,
    fun a ha => h.past a (hleft ha).1, (List.filter_sublist.map _).nodup h.workers,
    fun a ha ht => ?_, fun a ha b hb => h.distinct a (hleft ha).1 b (hleft hb).1,
    fun n' task' htask' hholds' a ha => h.newest n' task' htask' hholds' a (hleft ha).1,
    fun n' task' htask' hres hearly => ?_⟩
  · -- the recent admissions that remain are of other keys
    obtain ⟨ha, hworker⟩ := hleft ha
    obtain ⟨b, hb, hbn, hbkey⟩ := hown
    have hne : a.key ≠ task.key := fun heq => by
      have hle := h.newest n task htask hholds a ha heq
      have hlt : a.worker < b.worker := by
        rw [hbn]
        exact lt_of_le_of_ne hle hworker
      exact h.distinct b hb a ha hlt ht (hbkey.trans heq.symm)
    show (s.recentEvents.erase task.key).get a.key = _
    rw [Dict.get_erase, if_neg hne]
    exact h.recorded a ha ht
  · obtain ⟨a, ha, hworker, hkey⟩ := h.own n' task' htask' hres hearly
    refine ⟨a, List.mem_filter.mpr ⟨ha, decide_eq_true ?_⟩, hworker, hkey⟩
    rintro rfl
    rw [← hworker, htask] at htask'
    cases htask'
    rw [hlate] at hearly
    cases hearly

theorem mapTask_eq (htask : s.tasks.get n = some task) (f : QqTask → QqTask) :
    s.mapTask n f = { s with tasks := s.tasks.set n (f task) } := by
  rw [QqSystem.mapTask, htask]

/-! ## Steps keep the invariant -/

theorem QqSystem.Kept.receive (h : s.Kept config) (hnumbered : s.Numbered)
    {existing setUp enqueued : Bool} {now now' : ℚ} (hnow : s.now ≤ now) (hnow' : now ≤ now')
    (hlapses : setUp = true → enqueued = true → ¬ Lapses config s message existing now now') :
    (s.receive config message existing setUp enqueued now now').Kept config := by
  have hfirst : (s.later now).Kept config := h.later hnow
  have hsecond : ((s.later now).later now').Kept config := hfirst.later hnow'
  rw [QqSystem.receive]
  split
  · exact h
  · rename_i hunattended
    rcases admit_cases config s message existing false now with
      ⟨heq, -⟩ | ⟨hfree, hroom, hminute, heq⟩
    · rw [heq]
      exact hfirst
    · rw [heq]
      show QqSystem.Kept config (if setUp = true then _ else s.later now)
      split
      · rename_i hsetUp
        show QqSystem.Kept config (match (s.later now).admitQq config message existing true now' with
          | (s, _, rateReserved) =>
            if enqueued then s.spawn message rateReserved else s.giveBack message rateReserved)
        rcases admit_cases config (s.later now) message existing true now' with
          ⟨heq', hrefused⟩ | ⟨-, -, hminute', heq'⟩
        · rw [heq']
          show QqSystem.Kept config (if enqueued = true then _ else _)
          split
          · -- refused between the two questions
            rename_i henqueued
            exfalso
            rcases hrefused with hmem | hfull | ⟨hcounts, hfull⟩
            · exact hfree hmem
            · exact absurd hroom (Nat.not_lt_of_le hfull)
            · obtain ⟨hexisting, hnone⟩ := counts_iff.mp hcounts
              refine hlapses hsetUp henqueued ⟨Bool.eq_false_iff.mpr hunattended, hfree, hroom,
                hexisting, fun hbefore => ?_, hnone, hfull⟩
              have hcount := hminute (counts_iff.mpr ⟨hexisting, hbefore⟩)
              have hle := sessionCount_prune_le now' (s.later now).recentEvents message.sessionId
              have hfull' : config.ratePerMinute ≤
                sessionCount (prune now' (s.later now).recentEvents) message.sessionId := hfull
              omega
          · have hsame : ((s.later now).later now').inflight.erase message.key =
                ((s.later now).later now').inflight := Finset.erase_eq_of_notMem hfree
            show QqSystem.Kept config { (s.later now).later now' with
              inflight := ((s.later now).later now').inflight.erase message.key
              recentEvents := ((s.later now).later now').recentEvents }
            rw [hsame]
            exact hsecond
        · rw [heq', if_pos rfl]
          show QqSystem.Kept config (if enqueued = true then _ else _)
          split
          · refine hsecond.launch hnumbered ⟨message.key, _, false, .fresh, false⟩ _ hfree hroom
              (fun hcount => ?_) rfl rfl rfl _ rfl
            exact ⟨(counts_iff.mp hcount).2, hminute' hcount⟩
          · exact hsecond.giveBack hfree fun hcount => (counts_iff.mp hcount).2
      · exact hfirst

theorem QqSystem.Kept.retry (h : s.Kept config) (hnumbered : s.Numbered) {now : ℚ}
    (hnow : s.now ≤ now) : (s.retry config message now).Kept config := by
  have hlater : (s.later now).Kept config := h.later hnow
  rw [QqSystem.retry]
  rcases admit_cases config s message true true now with ⟨heq, -⟩ | ⟨hfree, hroom, -, heq⟩
  · rw [heq]
    exact hlater
  · rw [heq, if_pos rfl]
    exact hlater.launch hnumbered ⟨message.key, false, true, .turning, false⟩ false hfree hroom nofun
      rfl rfl rfl _ rfl

theorem step_kept {s' : QqSystem} {l : QqLabel} (hnumbered : s.Numbered) (h : s.Kept config)
    (hstep : QqStep config s l s') (hunraced : Unraced config s l) : s'.Kept config := by
  cases hstep with
  | receive message existing setUp enqueued now now' hnow hnow' =>
    exact h.receive hnumbered hnow hnow' hunraced
  | retry message now hnow => exact h.retry hnumbered hnow
  | cancel n task htask hrunning =>
    rw [mapTask_eq htask]
    refine h.move htask { task with cancelling := true } rfl rfl (fun h => h) (fun h => h)
      s.activeTasks ?_
    have hsame : ({ task with cancelling := true } : QqTask).holds = task.holds := rfl
    rw [hsame, Bool.and_not_self, if_neg Bool.false_ne_true]
  | begin n task htask hfresh hlive =>
    have hholds : task.holds = true := by rw [QqTask.holds, hfresh]; rfl
    have hearly : task.early = true := by rw [QqTask.early, hfresh]
    rw [mapTask_eq htask]
    refine h.move htask { task with phase := .turning } rfl rfl (fun _ => hholds) (fun _ => hearly)
      s.activeTasks ?_
    rw [hholds]
    rfl
  | drop n task htask hfresh hcancelling =>
    have hholds : task.holds = true := by rw [QqTask.holds, hfresh]; rfl
    have hearly : task.early = true := by rw [QqTask.early, hfresh]
    rw [mapTask_eq htask]
    refine h.move htask { task with phase := .dropped } rfl rfl (fun _ => hholds) (fun _ => hearly)
      s.activeTasks ?_
    rw [hholds]
    rfl
  | turned n task replayed htask hturning hworker =>
    have hholds : task.holds = true := by rw [QqTask.holds, hturning]; rfl
    have hearly : task.early = true := by rw [QqTask.early, hturning]
    have hmove : (s.mapTask n fun task => { task with phase := .replying }).Kept config := by
      rw [mapTask_eq htask]
      refine h.move htask { task with phase := .replying } rfl rfl (fun _ => hholds)
        (fun _ => hearly) s.activeTasks ?_
      rw [hholds]
      rfl
    rw [QqSystem.turned]
    split
    · rename_i hrefunds
      obtain ⟨-, hreserved⟩ := (Bool.and_eq_true _ _).mp hrefunds
      rw [mapTask_eq htask] at hmove ⊢
      exact @QqSystem.Kept.refund _ _ n { task with phase := .replying } hmove Dict.get_set_self
        rfl rfl (h.own n task htask hreserved hearly)
    · exact hmove
  | finish n task htask hphase =>
    have hholds : task.holds = true := by
      rcases hphase with hphase | hphase <;> rw [QqTask.holds, hphase] <;> rfl
    have hgone : ({ task with phase := if task.retries then .gone else .ended } : QqTask).holds =
        false := by
      cases task.retries <;> rfl
    have hlate : ({ task with phase := if task.retries then .gone else .ended } : QqTask).early =
        false := by
      cases task.retries <;> rfl
    rw [QqSystem.finish, mapTask_eq htask]
    refine h.move htask { task with phase := if task.retries then .gone else .ended } rfl rfl
      (fun h => ?_) (fun h => ?_) s.activeTasks ?_
    · rw [hgone] at h
      cases h
    · rw [hlate] at h
      cases h
    · rw [hholds, hgone]
      rfl
  | callbacks n task htask hphase =>
    rw [QqSystem.callbacks, mapTask_eq htask]
    refine h.move htask { task with phase := .gone } rfl rfl nofun nofun _ ?_
    show s.inflight.erase task.key = _
    split
    · rfl
    · rename_i hkept
      -- the task is past its `finally` block, and no other task holds its slot
      have hgone : task.holds = false := by
        cases hholds : task.holds with
        | false => rfl
        | true => exact absurd (by rw [hholds]; rfl) hkept
      refine Finset.erase_eq_of_notMem fun hmem => ?_
      obtain ⟨n', task', htask', hholds', hkey'⟩ := (h.slots task.key).mp hmem
      have heq := hunraced n' task task' htask htask' hholds' hkey'
      rw [heq, htask] at htask'
      cases htask'
      rw [hgone] at hholds'
      cases hholds'

end Invariant

/-! ## Every run -/

theorem step_numbered {config : QqConfig} {s s' : QqSystem} {l : QqLabel} (h : s.Numbered)
    (hstep : QqStep config s l s') : s'.Numbered := by
  -- a task that changes keeps its number, and a new one gets the next
  have hset {n : ℕ} {task : QqTask} (hn : n < s.next) :
      ∀ n' task', (s.tasks.set n task).get n' = some task' → n' < s.next := by
    intro n' task' htask'
    rw [Dict.get_set] at htask'
    split at htask'
    · rename_i heq
      rw [heq]
      exact hn
    · exact h n' task' htask'
  have hlaunch {task : QqTask} :
      ∀ n' task', (s.tasks.set s.next task).get n' = some task' → n' < s.next + 1 := by
    intro n' task' htask'
    rw [Dict.get_set] at htask'
    split at htask'
    · omega
    · have hold := h n' task' htask'
      omega
  cases hstep with
  | receive message existing setUp enqueued now now' hnow hnow' =>
    rw [QqSystem.receive]
    split
    · exact h
    · rcases admit_cases config s message existing false now with ⟨heq, -⟩ | ⟨-, -, -, heq⟩
      · rw [heq]
        exact h
      · rw [heq]
        show QqSystem.Numbered (if setUp = true then _ else s.later now)
        split
        · show QqSystem.Numbered (match (s.later now).admitQq config message existing true now' with
            | (s, _, rateReserved) =>
              if enqueued then s.spawn message rateReserved else s.giveBack message rateReserved)
          rcases admit_cases config (s.later now) message existing true now' with
            ⟨heq', -⟩ | ⟨-, -, -, heq'⟩
          · rw [heq']
            show QqSystem.Numbered (if enqueued = true then _ else _)
            split
            · exact hlaunch
            · exact h
          · rw [heq', if_pos rfl]
            show QqSystem.Numbered (if enqueued = true then _ else _)
            split
            · exact hlaunch
            · exact h
        · exact h
  | retry message now hnow =>
    rw [QqSystem.retry]
    rcases admit_cases config s message true true now with ⟨heq, -⟩ | ⟨-, -, -, heq⟩
    · rw [heq]
      exact h
    · rw [heq, if_pos rfl]
      exact hlaunch
  | cancel n task htask hrunning =>
    rw [mapTask_eq htask]
    exact hset (h n task htask)
  | begin n task htask hfresh hlive =>
    rw [mapTask_eq htask]
    exact hset (h n task htask)
  | turned n task replayed htask hturning hworker =>
    rw [QqSystem.turned, mapTask_eq htask]
    split <;> exact hset (h n task htask)
  | finish n task htask hphase =>
    rw [QqSystem.finish, mapTask_eq htask]
    exact hset (h n task htask)
  | drop n task htask hfresh hcancelling =>
    rw [mapTask_eq htask]
    exact hset (h n task htask)
  | callbacks n task htask hphase =>
    rw [QqSystem.callbacks, mapTask_eq htask]
    exact hset (h n task htask)

theorem QqSystem.Kept.sound {config : QqConfig} {s : QqSystem} (h : s.Kept config) :
    s.Sound config := by
  refine ⟨h.slots, h.alone, ?_, h.limited⟩
  let running := s.tasks.entries.filter (fun e => e.2.running)
  have hrunning {e : ℕ × QqTask} (he : e ∈ running) :
      s.tasks.get e.1 = some e.2 ∧ e.2.holds = true := by
    obtain ⟨hmem, hruns⟩ := List.mem_filter.mp he
    refine ⟨Dict.get_eq_some.mpr hmem, ?_⟩
    rw [QqTask.holds]
    rw [QqTask.running] at hruns
    cases hphase : e.2.phase <;> rw [hphase] at hruns <;> first | rfl | cases hruns
  have hnodup : (running.map (fun e => e.2.key)).Nodup := by
    have hentries : running.Nodup := (List.Nodup.of_map _ s.tasks.nodup).filter _
    refine List.Nodup.map_on (fun e he e' he' hkey => ?_) hentries
    obtain ⟨hget, hholds⟩ := hrunning he
    obtain ⟨hget', hholds'⟩ := hrunning he'
    have hn := h.alone _ _ _ _ hget hget' hholds hholds' hkey
    refine Prod.ext hn ?_
    rw [hn, hget'] at hget
    exact (Option.some.inj hget).symm
  have hsub : running.map (fun e => e.2.key) ⊆ s.inflight.toList := by
    intro key hkey
    obtain ⟨e, he, rfl⟩ := List.mem_map.mp hkey
    obtain ⟨hget, hholds⟩ := hrunning he
    exact Finset.mem_toList.mpr ((h.slots _).mpr ⟨e.1, e.2, hget, hholds, rfl⟩)
  calc s.tasks.entries.countP (fun e => e.2.running)
      = running.length := List.countP_eq_length_filter
    _ = (running.map (fun e => e.2.key)).length := by rw [List.length_map]
    _ ≤ s.inflight.toList.length := (List.subperm_of_subset hnodup hsub).length_le
    _ = s.inflight.card := Finset.length_toList _
    _ ≤ config.maxConcurrent := h.room

theorem Lapses.receive {config : QqConfig} {s : QqSystem} {message : QqMessage} {existing : Bool}
    {now now' : ℚ} (h : Lapses config s message existing now now') :
    s.receive config message existing true true now now' =
      ((s.later now).later now').spawn message false := by
  have hreplay : (s.later now).counts message existing ≠ true := fun hcounts =>
    h.recent (counts_iff.mp hcounts).2
  have hcounts : ((s.later now).later now').counts message existing = true :=
    counts_iff.mpr ⟨h.new, h.lapsed⟩
  rw [QqSystem.receive, if_neg (by rw [h.unattended]; exact Bool.false_ne_true)]
  rcases admit_cases config s message existing false now with ⟨-, hrefused⟩ | ⟨-, -, -, heq⟩
  · exfalso
    rcases hrefused with hmem | hfull | ⟨hcount, -⟩
    · exact h.free hmem
    · exact absurd h.room (Nat.not_lt_of_le hfull)
    · exact hreplay hcount
  · rw [heq]
    rcases admit_cases config (s.later now) message existing true now' with
      ⟨heq', -⟩ | ⟨-, -, hminute, -⟩
    · show (match (s.later now).admitQq config message existing true now' with
        | (s, _, rateReserved) => s.spawn message rateReserved) = _
      rw [heq']
    · exact absurd (hminute hcounts) (Nat.not_lt_of_le h.full)

/-- Slots and rates are right in every state of a run exactly where no step frees a slot that
another worker holds, and no webhook lapses. -/
theorem qq_admission_exact (config : QqConfig) (now : ℚ) (hist : List QqLabel) :
    Run.Always (QqStep config) (QqSystem.new now) (QqSystem.Sound config) hist ↔
      Run.Meets (QqStep config) (QqSystem.new now) (Unraced config) hist := by
  refine Run.always_iff_meets (I := QqSystem.Numbered) (fun _ _ h => by cases h)
    (fun s l s' h hstep => step_numbered h hstep) (new_kept config now)
    (fun s l s' hI hQ hstep hC => step_kept hI hQ hstep hC) (fun s _ h => h.sound)
    (fun s l s' hI hsound hstep hsound' => ?_)
  cases hstep with
  | receive message existing setUp enqueued now now' hnow hnow' =>
    -- a worker of a webhook that lapsed has no slot
    rintro rfl rfl hlapses
    rw [hlapses.receive] at hsound'
    exact hlapses.free ((hsound'.slots message.key).mpr ⟨s.next, _, Dict.get_set_self, rfl, rfl⟩)
  | callbacks n task htask hphase =>
    -- the slot that is freed is missing to its holder
    intro n' task₁ task' htask₁ htask' hholds' hkey
    rw [htask] at htask₁
    cases htask₁
    by_contra hne
    have hafter : (s.callbacks n task).tasks.get n' = some task' := by
      rw [QqSystem.callbacks, mapTask_eq htask]
      exact (Dict.get_set_of_ne hne).trans htask'
    have hmem := (hsound'.slots task.key).mpr ⟨n', task', hafter, hholds', hkey⟩
    rw [QqSystem.callbacks, mapTask_eq htask] at hmem
    exact Finset.notMem_erase _ _ hmem
  | _ => trivial

/-! ## A late callback -/

def firstMessage : QqMessage where
  eventId := "1"
  sessionId := "connector:qq:user:42"

def secondMessage : QqMessage where
  eventId := "2"
  sessionId := "connector:qq:user:43"

/-- A worker is past its `finally` block when a retry of its delivery takes the slot; its callback
frees the slot of the retry, and a second worker runs where only one may. -/
theorem late_callback_frees : ¬ ∀ (config : QqConfig) (now : ℚ) (hist : List QqLabel),
    Run.Always (QqStep config) (QqSystem.new now) (QqSystem.Sound config) hist := by
  intro h
  have hrun : Run (QqStep ⟨1, 10⟩) (QqSystem.new 0) [] (QqSystem.new 0) := Run.start
  have hrun := hrun.next (QqStep.receive firstMessage false true true 1 1 (by decide +kernel)
    le_rfl)
  have hrun := hrun.next (QqStep.begin 0 ⟨"qq:1", true, false, .fresh, false⟩ (by decide +kernel)
    rfl rfl)
  have hrun := hrun.next (QqStep.finish 0 ⟨"qq:1", true, false, .turning, false⟩
    (by decide +kernel) (Or.inl rfl))
  have hrun := hrun.next (QqStep.retry firstMessage 2 (by decide +kernel))
  have hrun := hrun.next (QqStep.callbacks 0 ⟨"qq:1", true, false, .ended, false⟩
    (by decide +kernel) (Or.inl rfl))
  have hrun := hrun.next (QqStep.receive secondMessage false true true 3 3 (by decide +kernel)
    le_rfl)
  have hsound := h ⟨1, 10⟩ 0 _ [] _ _ rfl hrun
  exact absurd hsound.concurrent (by decide +kernel)

end Connector
