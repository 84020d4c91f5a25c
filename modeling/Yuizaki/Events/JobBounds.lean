import Yuizaki.Events.JobLog

/- What the job event log keeps along a run.

   `JobLog.view` is what the log has under one key; moving a job renames a view, dropping
   one clears it, and storing an event changes the view of its key, so that an invariant of
   each view and a few facts across keys carry through an append. The events of a job are
   the first and the newest of all that were accepted for it (`trimJobEvents` of its
   history). Two jobs meet under one key only where a job id holds the separator of the
   scoped keys; `Separate` says that a request does not come to another job's key, and
   `job_log_bounds` is about the runs whose requests are separate. -/
namespace Events

open Transition

/-! ## Trimming -/

section Trim

variable {limit : ℕ} {events : List JobEvent} {event : JobEvent}

theorem drop_append_last {α : Type} (n : ℕ) (xs : List α) (x : α) (hpos : 0 < n) :
    (xs.drop (xs.length - n) ++ [x]).drop ((xs.drop (xs.length - n) ++ [x]).length - n) =
      (xs ++ [x]).drop ((xs ++ [x]).length - n) := by
  rw [List.length_append, List.length_append, List.length_drop, List.length_singleton]
  rw [List.drop_append_of_le_length (by rw [List.length_drop]; omega),
    List.drop_append_of_le_length (by omega), List.drop_drop]
  have hsame : xs.length - n + (xs.length - (xs.length - n) + 1 - n) = xs.length + 1 - n := by
    omega
  rw [hsame]

theorem trim_append (hlimit : 2 ≤ limit) :
    trimJobEvents limit (trimJobEvents limit events ++ [event]) =
      trimJobEvents limit (events ++ [event]) := by
  cases events with
  | nil => rfl
  | cons first rest =>
    have h := drop_append_last (limit - 1) rest event (by omega)
    have hlength (xs : List JobEvent) : xs.length - (limit - 1) = xs.length + 1 - limit := by
      omega
    rw [hlength, hlength, hlength] at h
    exact congrArg (List.cons first) h

theorem trim_length (hlimit : 2 ≤ limit) : (trimJobEvents limit events).length ≤ limit := by
  cases events with
  | nil => exact Nat.zero_le _
  | cons first rest =>
    show (rest.drop (rest.length + 1 - limit)).length + 1 ≤ limit
    rw [List.length_drop]
    omega

theorem trim_head? : (trimJobEvents limit events).head? = events.head? := by
  cases events <;> rfl

theorem trim_getLast? (hlimit : 2 ≤ limit) :
    (trimJobEvents limit events).getLast? = events.getLast? := by
  cases events with
  | nil => rfl
  | cons first rest =>
    show (first :: rest.drop (rest.length + 1 - limit)).getLast? = (first :: rest).getLast?
    rw [List.getLast?_cons, List.getLast?_cons, List.getLast?_drop]
    split
    · rename_i hdropped
      -- nothing is dropped from a list that fits
      have hempty : rest = [] := List.length_eq_zero_iff.mp (by omega)
      rw [hempty]
      rfl
    · rfl

theorem trim_dropLast (hlimit : 2 ≤ limit) (hne : events ≠ []) :
    (trimJobEvents limit events).dropLast ++ [event] =
      trimJobEvents limit (events.dropLast ++ [event]) := by
  cases events with
  | nil => exact absurd rfl hne
  | cons first rest =>
    cases hrest : rest with
    | nil =>
      have hsingle (e : JobEvent) : trimJobEvents limit [e] = [e] := congrArg _ List.drop_nil
      rw [hsingle first]
      exact (hsingle event).symm
    | cons second others =>
      rw [← hrest]
      have hrestne : rest ≠ [] := by
        rw [hrest]
        exact List.cons_ne_nil _ _
      have hpos : 0 < rest.length := List.length_pos_of_ne_nil hrestne
      have hdrop : rest.drop (rest.length + 1 - limit) ≠ [] := by
        intro hnil
        have hlength := congrArg List.length hnil
        rw [List.length_drop, List.length_nil] at hlength
        omega
      have hsplit : (first :: rest).dropLast = first :: rest.dropLast :=
        List.dropLast_cons_of_ne_nil hrestne
      rw [hsplit]
      show (first :: rest.drop (rest.length + 1 - limit)).dropLast ++ [event] =
        first :: (rest.dropLast ++ [event]).drop ((rest.dropLast ++ [event]).length + 1 - limit)
      rw [List.dropLast_cons_of_ne_nil hdrop, List.length_append, List.length_dropLast,
        List.length_singleton]
      have hsame : rest.length - 1 + 1 + 1 - limit = rest.length + 1 - limit := by omega
      rw [hsame, List.drop_append_of_le_length (by rw [List.length_dropLast]; omega)]
      rw [List.dropLast_eq_take, List.dropLast_eq_take, List.length_drop, List.take_drop,
        List.cons_append]
      congr 4
      omega

theorem mem_trim (h : event ∈ trimJobEvents limit events) : event ∈ events := by
  cases events with
  | nil => exact h
  | cons first rest =>
    rcases List.mem_cons.mp h with hfirst | hrest
    · exact List.mem_cons.mpr (Or.inl hfirst)
    · exact List.mem_cons_of_mem _ (List.mem_of_mem_drop hrest)

end Trim

/-! ## Histories -/

/-- Revisions from 1, each one more than the one before. -/
def Consecutive (events : List JobEvent) : Prop :=
  ∀ i (h : i < events.length), events[i].revision = i + 1

theorem Consecutive.append {events : List JobEvent} {event : JobEvent} (h : Consecutive events)
    (hevent : event.revision = events.length + 1) : Consecutive (events ++ [event]) := by
  intro i hi
  rw [List.length_append, List.length_singleton] at hi
  by_cases hold : i < events.length
  · rw [List.getElem_append_left hold]
    exact h i hold
  · have heq : i = events.length := by omega
    subst heq
    rw [List.getElem_append_right (Nat.le_refl _)]
    simpa using hevent

theorem Consecutive.dropLast {events : List JobEvent} (h : Consecutive events) :
    Consecutive events.dropLast := by
  intro i hi
  rw [List.getElem_dropLast]
  exact h i _

theorem Consecutive.last {events : List JobEvent} (h : Consecutive events) {last : JobEvent}
    (hlast : events.getLast? = some last) : last.revision = events.length := by
  rw [List.getLast?_eq_getElem?] at hlast
  obtain ⟨hbound, hget⟩ := List.getElem?_eq_some_iff.mp hlast
  have hrevision := h _ hbound
  rw [hget] at hrevision
  omega

/-- All that was accepted for each job since it last came into the log. -/
abbrev Histories := String × String → List JobEvent

/-- The histories after an answer: a coalesced event takes the place of the one before, and
a first revision begins a history. -/
def Histories.after (h : Histories) : Except JobError JobAnswer → Histories
  | .ok (.appended event) =>
    Function.update h event.job (if event.revision = 1 then [event] else h event.job ++ [event])
  | .ok (.coalesced event) => Function.update h event.job ((h event.job).dropLast ++ [event])
  | .ok (.duplicate _) | .error _ => h

/-! ## Views -/

structure JobView where
  events : Option (List JobEvent)
  ended : Bool
  progress : Option ℚ
  next : Option ℤ
  projected : Option (List String)

def JobView.blank : JobView := ⟨none, false, none, none, none⟩

def JobLog.view (log : JobLog) (key : String) : JobView where
  events := log.events.get key
  ended := key ∈ log.terminalJobs
  progress := log.lastProgressAt.get key
  next := log.nextRevision.get key
  projected := log.projectionKeysByJob.get key

def JobView.newest (v : JobView) : Option JobEvent := v.events.bind List.getLast?

/-- A view in order: the events are what trimming leaves of the history of their job, and
everything else is about the newest of them. -/
structure JobView.Kept (limit : ℕ) (h : Histories) (v : JobView) (events : List JobEvent)
    (last : JobEvent) : Prop where
  stored : v.events = some events
  job : ∀ e ∈ events, e.job = last.job
  trimmed : events = trimJobEvents limit (h last.job)
  consecutive : Consecutive (h last.job)
  newest : events.getLast? = some last
  ended : v.ended = last.status.terminal
  progress : v.progress.isSome = decide (last.status = .progress)
  next : v.next = some (last.revision + 1)
  projected : ∀ ks, v.projected = some ks → ks.Nodup ∧ ks.length ≤ limit

def JobView.Ok (limit : ℕ) (h : Histories) (v : JobView) : Prop :=
  v = JobView.blank ∨ ∃ events last, v.Kept limit h events last

/-- The log in order: no more jobs than there may be, one key for each, every view in order,
and the remembered events those of the keys of the jobs. -/
structure JobLog.Ordered (jobs limit : ℕ) (h : Histories) (log : JobLog) : Prop where
  maxJobs : log.maxJobs = jobs
  maxEventsPerJob : log.maxEventsPerJob = limit
  bounded : log.events.keys.length ≤ jobs
  view : ∀ key, (log.view key).Ok limit h
  distinct : ∀ key key' last last', (log.view key).newest = some last →
    (log.view key').newest = some last' → last.job = last'.job → key = key'
  projected : ∀ p, (log.projectionEvents.get p).isSome = true ↔
    ∃ key ks, (log.view key).projected = some ks ∧ p ∈ ks
  projectedJob : ∀ key ks p e, (log.view key).projected = some ks → p ∈ ks →
    log.projectionEvents.get p = some e → (log.view key).newest.map JobEvent.job = some e.job
  projectedOnce : ∀ key key' ks ks' p, (log.view key).projected = some ks →
    (log.view key').projected = some ks' → p ∈ ks → p ∈ ks' → key = key'

section Views

variable {jobs limit : ℕ} {h : Histories} {log : JobLog} {key key' : String}

theorem view_rescope (key a : String) {b : String} (hfree : log.view b = JobView.blank) :
    (log.rescope a b).view key =
      if key = b then log.view a else if key = a then JobView.blank else log.view key := by
  have hevents : log.events.get b = none := congrArg JobView.events hfree
  have hprogress : log.lastProgressAt.get b = none := congrArg JobView.progress hfree
  have hnext : log.nextRevision.get b = none := congrArg JobView.next hfree
  have hprojected : log.projectionKeysByJob.get b = none := congrArg JobView.projected hfree
  have hended : b ∉ log.terminalJobs := of_decide_eq_false (congrArg JobView.ended hfree)
  have hterminal : decide (key ∈ (log.rescope a b).terminalJobs) =
      if key = b then decide (a ∈ log.terminalJobs) else
        if key = a then false else decide (key ∈ log.terminalJobs) := by
    show decide (key ∈ if a ∈ log.terminalJobs then insert b (log.terminalJobs.erase a)
      else log.terminalJobs) = _
    by_cases ha : a ∈ log.terminalJobs
    · rw [if_pos ha]
      by_cases hb : key = b
      · simp [hb, ha]
      · by_cases hkey : key = a <;> simp [hb, hkey]
        exact fun hab => absurd (hkey.trans hab) hb
    · rw [if_neg ha]
      by_cases hb : key = b
      · simp [hb, ha, hended]
      · by_cases hkey : key = a <;> simp [hb, hkey, ha]
  have hview : (log.rescope a b).view key =
      ⟨if key = b then log.events.get a else if key = a then none else log.events.get key,
        if key = b then decide (a ∈ log.terminalJobs) else
          if key = a then false else decide (key ∈ log.terminalJobs),
        if key = b then log.lastProgressAt.get a else
          if key = a then none else log.lastProgressAt.get key,
        if key = b then log.nextRevision.get a else
          if key = a then none else log.nextRevision.get key,
        if key = b then log.projectionKeysByJob.get a else
          if key = a then none else log.projectionKeysByJob.get key⟩ := by
    unfold JobLog.view
    rw [hterminal]
    unfold JobLog.rescope
    dsimp only
    rw [Dict.get_rename hevents, Dict.get_rename hprogress, Dict.get_rename hnext,
      Dict.get_rename hprojected]
  rw [hview]
  by_cases hb : key = b
  · simp only [if_pos hb]
    rfl
  · by_cases hkey : key = a
    · simp only [if_neg hb, if_pos hkey]
      rfl
    · simp only [if_neg hb, if_neg hkey]
      rfl

theorem view_drop (log : JobLog) (key key' : String) : (log.drop key').view key =
    if key = key' then JobView.blank else log.view key := by
  unfold JobLog.view JobLog.drop
  dsimp only
  rw [Dict.get_erase, Dict.get_erase, Dict.get_erase, Dict.get_erase]
  by_cases heq : key = key'
  · simp only [if_pos heq]
    simp [JobView.blank, heq]
  · simp only [if_neg heq]
    simp [heq]

theorem JobView.Kept.newest_eq {v : JobView} {events : List JobEvent} {last : JobEvent}
    (hkept : v.Kept limit h events last) : v.newest = some last := by
  unfold JobView.newest
  rw [hkept.stored]
  exact hkept.newest

theorem JobView.Ok.kept {v : JobView} {last : JobEvent} (hok : v.Ok limit h)
    (hlast : v.newest = some last) : ∃ events, v.Kept limit h events last := by
  rcases hok with hblank | ⟨events, last', hkept⟩
  · rw [hblank] at hlast
    cases hlast
  · have heq := hkept.newest_eq
    rw [hlast] at heq
    cases heq
    exact ⟨events, hkept⟩

theorem JobView.Ok.blank {v : JobView} (hok : v.Ok limit h) (hevents : v.events = none) :
    v = JobView.blank := by
  rcases hok with hblank | ⟨events, last, hkept⟩
  · exact hblank
  · rw [hkept.stored] at hevents
    cases hevents

theorem JobView.Ok.projecting {v : JobView} (hok : v.Ok limit h) {ks : List String}
    (hks : v.projected = some ks) : ∃ last, v.newest = some last := by
  rcases hok with hblank | ⟨events, last, hkept⟩
  · rw [hblank] at hks
    cases hks
  · exact ⟨last, hkept.newest_eq⟩

/-- A log whose views are views of an ordered log, each under one key at most, is ordered
where it remembers the events of its keys. -/
theorem JobLog.Ordered.transfer (hlog : log.Ordered jobs limit h) {log' : JobLog}
    {R : String → String → Prop}
    (hmaxJobs : log'.maxJobs = log.maxJobs) (hmaxEvents : log'.maxEventsPerJob = log.maxEventsPerJob)
    (hbounded : log'.events.keys.length ≤ jobs)
    (hview : ∀ key, log'.view key = JobView.blank ∨
      ∃ key₀, R key key₀ ∧ log'.view key = log.view key₀)
    (hone : ∀ key key' key₀, R key key₀ → R key' key₀ → key = key')
    (hprojected : ∀ p, (log'.projectionEvents.get p).isSome = true ↔
      ∃ key ks, (log'.view key).projected = some ks ∧ p ∈ ks)
    (hevents : ∀ p e, log'.projectionEvents.get p = some e →
      log.projectionEvents.get p = some e) : log'.Ordered jobs limit h := by
  -- what is seen under a key was seen under its source
  have source {key : String} (hused : log'.view key ≠ JobView.blank) :
      ∃ key₀, R key key₀ ∧ log'.view key = log.view key₀ :=
    (hview key).resolve_left hused
  have used_of_newest {key : String} {last : JobEvent}
      (hlast : (log'.view key).newest = some last) : log'.view key ≠ JobView.blank := by
    intro hblank
    rw [hblank] at hlast
    cases hlast
  have used_of_projected {key : String} {ks : List String}
      (hks : (log'.view key).projected = some ks) : log'.view key ≠ JobView.blank := by
    intro hblank
    rw [hblank] at hks
    cases hks
  refine ⟨hmaxJobs.trans hlog.maxJobs, hmaxEvents.trans hlog.maxEventsPerJob, hbounded,
    fun key => ?_, ?_, hprojected, ?_, ?_⟩
  · rcases hview key with hblank | ⟨key₀, -, heq⟩
    · exact Or.inl hblank
    · rw [heq]
      exact hlog.view key₀
  · intro key key' last last' hlast hlast' hjob
    obtain ⟨key₀, hR, heq⟩ := source (used_of_newest hlast)
    obtain ⟨key₀', hR', heq'⟩ := source (used_of_newest hlast')
    rw [heq] at hlast
    rw [heq'] at hlast'
    have hsame := hlog.distinct key₀ key₀' last last' hlast hlast' hjob
    rw [← hsame] at hR'
    exact hone key key' key₀ hR hR'
  · intro key ks p e hks hp he
    obtain ⟨key₀, -, heq⟩ := source (used_of_projected hks)
    rw [heq] at hks ⊢
    exact hlog.projectedJob key₀ ks p e hks hp (hevents p e he)
  · intro key key' ks ks' p hks hks' hp hp'
    obtain ⟨key₀, hR, heq⟩ := source (used_of_projected hks)
    obtain ⟨key₀', hR', heq'⟩ := source (used_of_projected hks')
    rw [heq] at hks
    rw [heq'] at hks'
    have hsame := hlog.projectedOnce key₀ key₀' ks ks' p hks hks' hp hp'
    rw [← hsame] at hR'
    exact hone key key' key₀ hR hR'

theorem JobLog.Ordered.rescope (hlog : log.Ordered jobs limit h) {a b : String}
    (hfree : log.events.get b = none) : (log.rescope a b).Ordered jobs limit h := by
  have hblank : log.view b = JobView.blank := (hlog.view b).blank hfree
  have hview (key : String) := view_rescope key a hblank
  refine hlog.transfer (R := fun key key₀ => key = b ∧ key₀ = a ∨ key ≠ b ∧ key ≠ a ∧ key = key₀)
    rfl rfl (Nat.le_trans Dict.length_keys_rename_le hlog.bounded) (fun key => ?_) ?_ (fun p => ?_)
    (fun p e he => he)
  · rw [hview]
    by_cases hb : key = b
    · rw [if_pos hb]
      exact Or.inr ⟨a, Or.inl ⟨hb, rfl⟩, rfl⟩
    · rw [if_neg hb]
      by_cases ha : key = a
      · rw [if_pos ha]
        exact Or.inl rfl
      · rw [if_neg ha]
        exact Or.inr ⟨key, Or.inr ⟨hb, ha, rfl⟩, rfl⟩
  · intro key key' key₀ hR hR'
    rcases hR with hmoved | hstays
    · rcases hR' with hmoved' | hstays'
      · exact hmoved.1.trans hmoved'.1.symm
      · exact absurd (hstays'.2.2.trans hmoved.2) hstays'.2.1
    · rcases hR' with hmoved' | hstays'
      · exact absurd (hstays.2.2.trans hmoved'.2) hstays.2.1
      · exact hstays.2.2.trans hstays'.2.2.symm
  · refine (hlog.projected p).trans ⟨fun hold => ?_, fun hnew => ?_⟩
    · obtain ⟨key, ks, hks, hp⟩ := hold
      by_cases ha : key = a
      · refine ⟨b, ks, ?_, hp⟩
        rw [hview, if_pos rfl, ← ha]
        exact hks
      · by_cases hb : key = b
        · rw [hb, hblank] at hks
          cases hks
        · refine ⟨key, ks, ?_, hp⟩
          rw [hview, if_neg hb, if_neg ha]
          exact hks
    · obtain ⟨key, ks, hks, hp⟩ := hnew
      rw [hview] at hks
      by_cases hb : key = b
      · rw [if_pos hb] at hks
        exact ⟨a, ks, hks, hp⟩
      · rw [if_neg hb] at hks
        by_cases ha : key = a
        · rw [if_pos ha] at hks
          cases hks
        · rw [if_neg ha] at hks
          exact ⟨key, ks, hks, hp⟩

theorem JobLog.Ordered.drop (hlog : log.Ordered jobs limit h) (key : String) :
    (log.drop key).Ordered jobs limit h := by
  have hview (k : String) := view_drop log k key
  have hget (p : String) : (log.drop key).projectionEvents.get p =
      if p ∈ (log.projectionKeysByJob.get key).getD [] then none
      else log.projectionEvents.get p := Dict.get_erase_all _ _
  refine hlog.transfer (R := Eq) rfl rfl ?_ (fun k => ?_)
    (fun k k' k₀ hR hR' => hR.trans hR'.symm) (fun p => ?_) (fun p e he => ?_)
  · have hle : (log.events.erase key).keys.length ≤ log.events.keys.length :=
      ((List.filter_sublist (l := log.events.entries)).map Prod.fst).length_le
    exact Nat.le_trans hle hlog.bounded
  · rw [hview]
    by_cases hk : k = key
    · rw [if_pos hk]
      exact Or.inl rfl
    · rw [if_neg hk]
      exact Or.inr ⟨k, rfl, rfl⟩
  · rw [hget]
    constructor
    · intro hsome
      by_cases hp : p ∈ (log.projectionKeysByJob.get key).getD []
      · rw [if_pos hp] at hsome
        cases hsome
      · rw [if_neg hp] at hsome
        obtain ⟨k, ks, hks, hmem⟩ := (hlog.projected p).mp hsome
        have hk : k ≠ key := by
          intro hk
          have hks' : log.projectionKeysByJob.get key = some ks := hk ▸ hks
          rw [hks'] at hp
          exact hp hmem
        refine ⟨k, ks, ?_, hmem⟩
        rw [hview, if_neg hk]
        exact hks
    · intro hnew
      obtain ⟨k, ks, hks, hmem⟩ := hnew
      rw [hview] at hks
      by_cases hk : k = key
      · rw [if_pos hk] at hks
        cases hks
      · rw [if_neg hk] at hks
        have hp : p ∉ (log.projectionKeysByJob.get key).getD [] := by
          intro hp
          cases hks' : log.projectionKeysByJob.get key with
          | none =>
            rw [hks'] at hp
            cases hp
          | some ks' =>
            rw [hks'] at hp
            exact hk (hlog.projectedOnce k key ks ks' p hks hks' hmem hp)
        rw [if_neg hp]
        exact (hlog.projected p).mpr ⟨k, ks, hks, hmem⟩
  · rw [hget] at he
    split at he
    · cases he
    · exact he

theorem JobLog.Ordered.update (hlog : log.Ordered jobs limit h) {log' : JobLog} {h' : Histories}
    {events : List JobEvent} {last : JobEvent}
    (hmaxJobs : log'.maxJobs = log.maxJobs) (hmaxEvents : log'.maxEventsPerJob = log.maxEventsPerJob)
    (hbounded : log'.events.keys.length ≤ jobs)
    (hothers : ∀ k, k ≠ key → log'.view k = log.view k)
    (hkept : (log'.view key).Kept limit h' events last)
    (hprojected : (log'.view key).projected = (log.view key).projected)
    (hhistory : ∀ job, job ≠ last.job → h' job = h job)
    (hfits : ∀ k old, (log.view k).newest = some old → (old.job = last.job ↔ k = key))
    (hevents : log'.projectionEvents = log.projectionEvents) : log'.Ordered jobs limit h' := by
  have hnewest : (log'.view key).newest = some last := hkept.newest_eq
  have hprojections (k : String) : (log'.view k).projected = (log.view k).projected := by
    by_cases hk : k = key
    · rw [hk]
      exact hprojected
    · rw [hothers k hk]
  refine ⟨hmaxJobs.trans hlog.maxJobs, hmaxEvents.trans hlog.maxEventsPerJob, hbounded,
    fun k => ?_, ?_, fun p => ?_, ?_, ?_⟩
  · by_cases hk : k = key
    · rw [hk]
      exact Or.inr ⟨events, last, hkept⟩
    · rw [hothers k hk]
      rcases hlog.view k with hblank | ⟨events', old, hold⟩
      · exact Or.inl hblank
      · have hjob : old.job ≠ last.job :=
          fun hjob => hk ((hfits k old hold.newest_eq).mp hjob)
        refine Or.inr ⟨events', old, { hold with trimmed := ?_, consecutive := ?_ }⟩
        · rw [hhistory _ hjob]
          exact hold.trimmed
        · rw [hhistory _ hjob]
          exact hold.consecutive
  · intro k k' old old' hold hold' hjob
    by_cases hk : k = key
    · rw [hk, hnewest] at hold
      cases hold
      by_cases hk' : k' = key
      · exact hk.trans hk'.symm
      · rw [hothers k' hk'] at hold'
        exact absurd ((hfits k' old' hold').mp hjob.symm) hk'
    · rw [hothers k hk] at hold
      by_cases hk' : k' = key
      · rw [hk', hnewest] at hold'
        cases hold'
        exact absurd ((hfits k old hold).mp hjob) hk
      · rw [hothers k' hk'] at hold'
        exact hlog.distinct k k' old old' hold hold' hjob
  · rw [hevents, hlog.projected p]
    simp only [hprojections]
  · intro k ks p e hks hp he
    rw [hprojections] at hks
    rw [hevents] at he
    have hjob := hlog.projectedJob k ks p e hks hp he
    by_cases hk : k = key
    · obtain ⟨old, hold⟩ := (hlog.view k).projecting hks
      rw [hold, Option.map_some, (hfits k old hold).mpr hk] at hjob
      rw [hk, hnewest, Option.map_some, hjob]
    · rw [hothers k hk]
      exact hjob
  · intro k k' ks ks' p hks hks' hp hp'
    rw [hprojections] at hks hks'
    exact hlog.projectedOnce k k' ks ks' p hks hks' hp hp'

/-! ## Remembering an event -/

theorem remembered_keys {ks all : List String} {p : String} {n : ℕ} (hall : all = ks ++ [p])
    (hnodup : ks.Nodup) (hp : p ∉ ks) (hn : 1 ≤ n) :
    (all.drop (all.length - n)).Nodup ∧ (all.drop (all.length - n)).length ≤ n ∧
      p ∈ all.drop (all.length - n) ∧
      (∀ q ∈ all.drop (all.length - n), q ∉ all.take (all.length - n)) ∧
      ∀ q, q ∈ ks ∨ q = p ↔
        q ∈ all.take (all.length - n) ∨ q ∈ all.drop (all.length - n) := by
  have hnodup_all : all.Nodup := by
    rw [hall]
    exact List.nodup_append.mpr ⟨hnodup, List.nodup_singleton p, fun a ha b hb heq =>
      hp (List.mem_singleton.mp hb ▸ heq ▸ ha)⟩
  have hsplit : all.take (all.length - n) ++ all.drop (all.length - n) = all :=
    List.take_append_drop _ _
  have hpos : 0 < all.length := by
    rw [hall, List.length_append, List.length_singleton]
    omega
  have hlast : (all.drop (all.length - n)).getLast? = some p := by
    rw [List.getLast?_drop, if_neg (by omega), hall]
    exact List.getLast?_concat
  refine ⟨(List.drop_sublist _ _).nodup hnodup_all, ?_, List.mem_of_getLast? hlast, ?_, fun q => ?_⟩
  · rw [List.length_drop]
    omega
  · intro q hkept hgone
    rw [← hsplit] at hnodup_all
    exact (List.nodup_append.mp hnodup_all).2.2 q hgone q hkept rfl
  · rw [← List.mem_append, hsplit, hall, List.mem_append, List.mem_singleton]

theorem view_rememberProjection (log : JobLog) (key key' p : String) (event : JobEvent) :
    (log.rememberProjection key' p event).view key =
      if key = key' then
        { log.view key with
          projected := some ((log.jobKeys key' p).drop
            ((log.jobKeys key' p).length - log.maxEventsPerJob)) }
      else log.view key := by
  unfold JobLog.rememberProjection JobLog.view
  dsimp only
  rw [Dict.get_set]
  by_cases heq : key = key'
  · simp only [if_pos heq]
  · simp only [if_neg heq]

theorem JobLog.Ordered.rememberProjection (hlog : log.Ordered jobs limit h) {p : String}
    {event last : JobEvent} (hlimit : 1 ≤ limit) (hnew : log.projectionEvents.get p = none)
    (hlast : (log.view key).newest = some last) (hjob : event.job = last.job) :
    (log.rememberProjection key p event).Ordered jobs limit h := by
  have hview (k : String) := view_rememberProjection log k key p event
  have hunused : ∀ k ks, (log.view k).projected = some ks → p ∉ ks := by
    intro k ks hks hp
    have hsome := (hlog.projected p).mpr ⟨k, ks, hks, hp⟩
    rw [hnew] at hsome
    cases hsome
  obtain ⟨events, hkept⟩ := (hlog.view key).kept hlast
  generalize hks : (log.projectionKeysByJob.get key).getD [] = ks
  have hold : ∀ ks', (log.view key).projected = some ks' ∨ (log.view key).projected = none ∧
      ks' = [] → ks' = ks := by
    intro ks' hks'
    rw [← hks]
    rcases hks' with hsome | hnone
    · have hget : log.projectionKeysByJob.get key = some ks' := hsome
      rw [hget]
      rfl
    · have hget : log.projectionKeysByJob.get key = none := hnone.1
      rw [hget, hnone.2]
      rfl
  have hnodup : ks.Nodup ∧ p ∉ ks ∧
      (∀ q ∈ ks, ∃ ks', (log.view key).projected = some ks' ∧ q ∈ ks') := by
    cases hget : (log.view key).projected with
    | none =>
      rw [← hold [] (Or.inr ⟨hget, rfl⟩)]
      exact ⟨List.nodup_nil, List.not_mem_nil, fun q hq => absurd hq List.not_mem_nil⟩
    | some ks' =>
      rw [← hold ks' (Or.inl hget)]
      exact ⟨(hkept.projected ks' hget).1, hunused key ks' hget, fun q hq => ⟨ks', rfl, hq⟩⟩
  obtain ⟨hnodup, hp, hsource⟩ := hnodup
  have hall : log.jobKeys key p = ks ++ [p] := by
    unfold JobLog.jobKeys
    rw [hks, List.erase_of_not_mem hp]
  obtain ⟨hkeptnodup, hkeptlength, hpkept, hdisjoint, hsplit⟩ :=
    remembered_keys hall hnodup hp hlimit
  have hget (q : String) : (log.rememberProjection key p event).projectionEvents.get q =
      if q ∈ (log.jobKeys key p).take ((log.jobKeys key p).length - limit) then none
      else if q = p then some event else log.projectionEvents.get q := by
    unfold JobLog.rememberProjection
    dsimp only
    rw [Dict.get_erase_all, Dict.get_set, hlog.maxEventsPerJob]
  rw [hlog.maxEventsPerJob] at hview
  generalize (log.jobKeys key p).take ((log.jobKeys key p).length - limit) = gone
    at hdisjoint hsplit hget
  generalize (log.jobKeys key p).drop ((log.jobKeys key p).length - limit) = kept
    at hkeptnodup hkeptlength hpkept hdisjoint hsplit hview
  have hnewest (k : String) : ((log.rememberProjection key p event).view k).newest =
      (log.view k).newest := by
    rw [hview]
    split <;> rfl
  -- what a key remembers now, it remembered before, but for the new key
  have hbefore : ∀ k ks', ((log.rememberProjection key p event).view k).projected = some ks' →
      ∀ q ∈ ks', q ∉ gone ∧ (q = p ∧ k = key ∨ q ≠ p ∧
        ∃ ks₀, (log.view k).projected = some ks₀ ∧ q ∈ ks₀) := by
    intro k ks' hks' q hq
    rw [hview] at hks'
    by_cases hk : k = key
    · rw [if_pos hk] at hks'
      cases hks'
      refine ⟨hdisjoint q hq, ?_⟩
      by_cases hqp : q = p
      · exact Or.inl ⟨hqp, hk⟩
      · rw [hk]
        exact Or.inr ⟨hqp, hsource q (((hsplit q).mpr (Or.inr hq)).resolve_right hqp)⟩
    · rw [if_neg hk] at hks'
      have hqp : q ≠ p := fun hqp => hunused k ks' hks' (hqp ▸ hq)
      refine ⟨fun hgone => ?_, Or.inr ⟨hqp, ks', hks', hq⟩⟩
      obtain ⟨ks₀, hks₀, hq₀⟩ := hsource q
        (((hsplit q).mpr (Or.inl hgone)).resolve_right hqp)
      exact hk (hlog.projectedOnce k key ks' ks₀ q hks' hks₀ hq hq₀)
  refine ⟨hlog.maxJobs, hlog.maxEventsPerJob, hlog.bounded, fun k => ?_, ?_, fun q => ?_, ?_, ?_⟩
  · rw [hview]
    by_cases hk : k = key
    · rw [if_pos hk]
      rw [hk]
      refine Or.inr ⟨events, last, { hkept with projected := fun ks' hks' => ?_ }⟩
      cases hks'
      exact ⟨hkeptnodup, hkeptlength⟩
    · rw [if_neg hk]
      exact hlog.view k
  · intro k k' old old' hold hold' hsame
    rw [hnewest] at hold hold'
    exact hlog.distinct k k' old old' hold hold' hsame
  · rw [hget]
    constructor
    · intro hsome
      split at hsome
      · cases hsome
      · rename_i hgone
        by_cases hqp : q = p
        · refine ⟨key, kept, ?_, hqp ▸ hpkept⟩
          rw [hview, if_pos rfl]
        · rw [if_neg hqp] at hsome
          obtain ⟨k, ks', hks', hq⟩ := (hlog.projected q).mp hsome
          by_cases hk : k = key
          · refine ⟨key, kept, ?_, ?_⟩
            · rw [hview, if_pos rfl]
            · have hin : q ∈ ks := by
                rw [hk] at hks'
                rw [← hold ks' (Or.inl hks')]
                exact hq
              exact ((hsplit q).mp (Or.inl hin)).resolve_left hgone
          · refine ⟨k, ks', ?_, hq⟩
            rw [hview, if_neg hk]
            exact hks'
    · intro hkeys
      obtain ⟨k, ks', hks', hq⟩ := hkeys
      obtain ⟨hgone, hthis | ⟨hqp, ks₀, hks₀, hq₀⟩⟩ := hbefore k ks' hks' q hq
      · rw [if_neg hgone, if_pos hthis.1]
        rfl
      · rw [if_neg hgone, if_neg hqp]
        exact (hlog.projected q).mpr ⟨k, ks₀, hks₀, hq₀⟩
  · intro k ks' q e hks' hq he
    obtain ⟨hgone, hthis | ⟨hqp, ks₀, hks₀, hq₀⟩⟩ := hbefore k ks' hks' q hq
    · rw [hget, if_neg hgone, if_pos hthis.1] at he
      cases he
      rw [hnewest, hthis.2, hlast, hjob]
      rfl
    · rw [hget, if_neg hgone, if_neg hqp] at he
      rw [hnewest]
      exact hlog.projectedJob k ks₀ q e hks₀ hq₀ he
  · intro k k' ks' ks'' q hks' hks'' hq hq'
    obtain ⟨-, hthis | ⟨hqp, ks₀, hks₀, hq₀⟩⟩ := hbefore k ks' hks' q hq
    · obtain ⟨-, hthis' | ⟨hqp', -⟩⟩ := hbefore k' ks'' hks'' q hq'
      · exact hthis.2.trans hthis'.2.symm
      · exact absurd hthis.1 hqp'
    · obtain ⟨-, hthis' | ⟨-, ks₁, hks₁, hq₁⟩⟩ := hbefore k' ks'' hks'' q hq'
      · exact absurd hthis'.1 hqp
      · exact hlog.projectedOnce k k' ks₀ ks₁ q hks₀ hks₁ hq₀ hq₁

end Views

/-! ## Where a job is -/

/-- The key of a job: its events are there and nowhere else, and no other job's are. -/
def JobLog.Fits (log : JobLog) (key : String) (job : String × String) : Prop :=
  ∀ k last, (log.view k).newest = some last → (last.job = job ↔ k = key)

/-- Every job that has not ended still has its newest event. -/
def JobLog.KeepsActive (log log' : JobLog) : Prop :=
  ∀ key last, (log.view key).newest = some last → last.status.terminal = false →
    ∃ key', (log'.view key').newest = some last

/-- A request comes to no other job's key: its job is in the log, or the keys that are its
own, or that a job of its id is moved to, are not in use by another. -/
def JobLog.Separate (log : JobLog) (workspaceId jobId : String) : Prop :=
  log.contains jobId (some workspaceId) = true ∨
    (log.events.get jobId).all (fun direct => newestJob direct = some jobId) = true ∧
      (log.contains jobId none = true → log.events.get (scopeKey workspaceId jobId) = none ∧
        ∀ existing ∈ (log.events.get jobId).bind newestWorkspace,
          log.events.get (scopeKey existing jobId) = none)

section Keys

variable {jobs limit : ℕ} {h : Histories} {log log' : JobLog} {key workspaceId jobId : String}

theorem KeepsActive.refl (log : JobLog) : log.KeepsActive log :=
  fun key _ hlast _ => ⟨key, hlast⟩

theorem newest_of_entry {e : String × List JobEvent} {last : JobEvent}
    (he : e ∈ log.events.entries) (hlast : e.2.getLast? = some last) :
    (log.view e.1).newest = some last := by
  have hget : log.events.get e.1 = some e.2 := Dict.get_eq_some.mpr he
  show (log.events.get e.1).bind List.getLast? = some last
  rw [hget]
  exact hlast

theorem entry_of_newest {last : JobEvent} (hlast : (log.view key).newest = some last) :
    ∃ events, (key, events) ∈ log.events.entries ∧ events.getLast? = some last := by
  obtain ⟨events, hget, hlast⟩ := Option.bind_eq_some_iff.mp hlast
  exact ⟨events, Dict.get_eq_some.mp hget, hlast⟩

theorem isOf_newest {events : List JobEvent} {last : JobEvent} {workspace : Option String}
    (hlast : events.getLast? = some last) : isOf jobId workspace events = true ↔
      last.jobId = jobId ∧ (workspace = none ∨ workspace = some last.workspaceId) := by
  unfold isOf newestJob newestWorkspace
  rw [hlast, decide_eq_true_eq, Option.map_some, Option.map_some, Option.some.injEq]
  exact and_congr_right (fun _ => or_congr_right eq_comm)

theorem isOf_some {events : List JobEvent} {workspace : Option String}
    (hof : isOf jobId workspace events = true) : ∃ last, events.getLast? = some last := by
  cases hlast : events.getLast? with
  | some last => exact ⟨last, rfl⟩
  | none =>
    unfold isOf newestJob at hof
    rw [hlast] at hof
    cases (of_decide_eq_true hof).1

theorem contains_iff {workspace : Option String} : log.contains jobId workspace = true ↔
    ∃ k last, (log.view k).newest = some last ∧ last.jobId = jobId ∧
      (workspace = none ∨ workspace = some last.workspaceId) := by
  unfold JobLog.contains
  rw [List.any_eq_true]
  constructor
  · intro hany
    obtain ⟨e, he, hof⟩ := hany
    obtain ⟨last, hlast⟩ := isOf_some hof
    exact ⟨e.1, last, newest_of_entry he hlast, (isOf_newest hlast).mp hof⟩
  · intro hstored
    obtain ⟨k, last, hlast, hjob⟩ := hstored
    obtain ⟨events, he, hlast⟩ := entry_of_newest hlast
    exact ⟨(k, events), he, (isOf_newest hlast).mpr hjob⟩

theorem scopeKey_ne (workspaceId jobId : String) : scopeKey workspaceId jobId ≠ jobId := by
  intro heq
  have hlength := congrArg String.length heq
  unfold scopeKey at hlength
  rw [String.length_append, String.length_append] at hlength
  have hsep : ("\x00" : String).length = 1 := by decide
  omega

theorem scopeKey_inj {workspaceId' : String}
    (heq : scopeKey workspaceId jobId = scopeKey workspaceId' jobId) :
    workspaceId = workspaceId' := by
  have hlist := congrArg String.toList heq
  unfold scopeKey at hlist
  rw [String.toList_append, String.toList_append, String.toList_append, String.toList_append]
    at hlist
  exact String.toList_inj.mp (List.append_cancel_right (List.append_cancel_right hlist))

theorem fits_new (hnew : log.contains jobId (some workspaceId) ≠ true)
    (hfree : log.events.get key = none) : log.Fits key (workspaceId, jobId) := by
  intro k last hlast
  constructor
  · intro hjob
    refine absurd (contains_iff.mpr ⟨k, last, hlast, congrArg Prod.snd hjob, Or.inr ?_⟩) hnew
    exact congrArg some (congrArg Prod.fst hjob).symm
  · intro hk
    obtain ⟨events, hget, -⟩ := Option.bind_eq_some_iff.mp hlast
    have hget : log.events.get k = some events := hget
    rw [hk, hfree] at hget
    cases hget

theorem new_of_find (hfind : (log.events.entries.filter (fun e => newestJob e.2 = some jobId)).find?
      (fun e => newestWorkspace e.2 = some workspaceId) = none) :
    log.contains jobId (some workspaceId) ≠ true := by
  intro hcontains
  obtain ⟨k, last, hlast, hjobId, hworkspace⟩ := contains_iff.mp hcontains
  rcases hworkspace with hnone | hworkspace
  · cases hnone
  · obtain ⟨events, he, hlast⟩ := entry_of_newest hlast
    have hmem : (k, events) ∈ log.events.entries.filter
        (fun e => newestJob e.2 = some jobId) := by
      refine List.mem_filter.mpr ⟨he, decide_eq_true ?_⟩
      show events.getLast?.map _ = _
      rw [hlast, Option.map_some, hjobId]
    have hnot := List.find?_eq_none.mp hfind (k, events) hmem
    refine hnot (decide_eq_true ?_)
    show events.getLast?.map _ = _
    rw [hlast, Option.map_some, hworkspace]

theorem storageKey_spec (hlog : log.Ordered jobs limit h)
    (hseparate : log.Separate workspaceId jobId) :
    (log.storageKey workspaceId jobId).2.Ordered jobs limit h ∧
      (log.storageKey workspaceId jobId).2.projectionEvents = log.projectionEvents ∧
      log.KeepsActive (log.storageKey workspaceId jobId).2 ∧
      (log.storageKey workspaceId jobId).2.Fits (log.storageKey workspaceId jobId).1
        (workspaceId, jobId) := by
  unfold JobLog.storageKey
  dsimp only
  have hsource : ∀ e ∈ log.events.entries.filter (fun e => newestJob e.2 = some jobId),
      ∃ last, (log.view e.1).newest = some last ∧ last.jobId = jobId ∧
        newestWorkspace e.2 = some last.workspaceId := by
    intro e he
    obtain ⟨hentry, hjob⟩ := List.mem_filter.mp he
    obtain ⟨last, hlast, hjobId⟩ := Option.map_eq_some_iff.mp (of_decide_eq_true hjob)
    refine ⟨last, newest_of_entry hentry hlast, hjobId, ?_⟩
    unfold newestWorkspace
    rw [hlast]
    rfl
  split
  · -- the job has events
    rename_i e hfind
    obtain ⟨last, hlast, hjobId, hworkspace⟩ := hsource e (List.mem_of_find?_eq_some hfind)
    have hfound : newestWorkspace e.2 = some workspaceId := by
      simpa using List.find?_some hfind
    rw [hworkspace, Option.some.injEq] at hfound
    have hjob : last.job = (workspaceId, jobId) := by
      rw [← hfound, ← hjobId]
      rfl
    refine ⟨hlog, rfl, KeepsActive.refl log, fun k last' hlast' => ⟨fun hjob' => ?_, fun hk => ?_⟩⟩
    · exact hlog.distinct k e.1 last' last hlast' hlast (hjob'.trans hjob.symm)
    · rw [hk, hlast] at hlast'
      cases hlast'
      exact hjob
  · rename_i hfind
    have hnew := new_of_find hfind
    obtain ⟨hown, hscoped⟩ := hseparate.resolve_left hnew
    split
    · -- no job has the id
      rename_i hempty
      refine ⟨hlog, rfl, KeepsActive.refl log, fits_new hnew ?_⟩
      cases hget : log.events.get jobId with
      | none => rfl
      | some direct =>
        rw [hget] at hown
        have hmem : (jobId, direct) ∈ log.events.entries.filter
            (fun e => newestJob e.2 = some jobId) :=
          List.mem_filter.mpr ⟨Dict.get_eq_some.mp hget, hown⟩
        rw [hempty] at hmem
        cases hmem
    · rename_i hfound
      have hcontains : log.contains jobId none = true := by
        obtain ⟨e, he⟩ := List.exists_mem_of_ne_nil _ hfound
        obtain ⟨last, hlast, hjobId, -⟩ := hsource e he
        exact contains_iff.mpr ⟨e.1, last, hlast, hjobId, Or.inl rfl⟩
      obtain ⟨hfree, hmoved⟩ := hscoped hcontains
      split
      · exact ⟨hlog, rfl, KeepsActive.refl log, fits_new hnew hfree⟩
      · rename_i direct hdirect
        rw [hdirect] at hown hmoved
        obtain ⟨last, hlast, hjobId⟩ := Option.map_eq_some_iff.mp (of_decide_eq_true hown)
        have hworkspace : newestWorkspace direct = some last.workspaceId := by
          unfold newestWorkspace
          rw [hlast]
          rfl
        rw [hworkspace]
        have hb := hmoved last.workspaceId hworkspace
        have hblank : log.view (scopeKey last.workspaceId jobId) = JobView.blank :=
          (hlog.view _).blank hb
        have hview (k : String) := view_rescope k jobId hblank
        refine ⟨hlog.rescope hb, rfl, ?_, ?_⟩
        · intro k old hold _
          by_cases hk : k = jobId
          · refine ⟨scopeKey last.workspaceId jobId, ?_⟩
            rw [hview, if_pos rfl, ← hk]
            exact hold
          · by_cases hkb : k = scopeKey last.workspaceId jobId
            · rw [hkb, hblank] at hold
              cases hold
            · refine ⟨k, ?_⟩
              rw [hview, if_neg hkb, if_neg hk]
              exact hold
        · -- the job that is moved is another workspace's
          have hother : workspaceId ≠ last.workspaceId := by
            intro hsame
            refine hnew (contains_iff.mpr ⟨jobId, last, ?_, hjobId, Or.inr (congrArg some hsame)⟩)
            show (log.events.get jobId).bind List.getLast? = some last
            rw [hdirect]
            exact hlast
          have hunused : ((log.rescope jobId (scopeKey last.workspaceId jobId)).view
              (scopeKey workspaceId jobId)).newest = none := by
            rw [hview, if_neg (fun heq => hother (scopeKey_inj heq)),
              if_neg (scopeKey_ne workspaceId jobId)]
            rw [(hlog.view _).blank hfree]
            rfl
          intro k old hold
          constructor
          · intro hjob
            rw [hview] at hold
            have hin : ∃ k₀, (log.view k₀).newest = some old := by
              split at hold
              · exact ⟨_, hold⟩
              · split at hold
                · cases hold
                · exact ⟨_, hold⟩
            obtain ⟨k₀, hk₀⟩ := hin
            refine absurd (contains_iff.mpr
              ⟨k₀, old, hk₀, congrArg Prod.snd hjob, Or.inr ?_⟩) hnew
            exact congrArg some (congrArg Prod.fst hjob).symm
          · intro hk
            rw [hk, hunused] at hold
            cases hold

end Keys

/-! ## Appends -/

/-- Every job that has not ended is still there, no earlier than it was. -/
def JobLog.Survives (log log' : JobLog) : Prop :=
  ∀ key last, (log.view key).newest = some last → last.status.terminal = false →
    ∃ key' last', (log'.view key').newest = some last' ∧ last'.job = last.job ∧
      last.revision ≤ last'.revision

section Append

variable {jobs limit : ℕ} {h : Histories} {log log' : JobLog} {key : String}
  {job : String × String} {tables : TextTables} {r : JobRequest} {a : Admitted}
  {events : List JobEvent} {event last : JobEvent}

theorem JobLog.KeepsActive.survives (hkeeps : log.KeepsActive log') : log.Survives log' := by
  intro key last hlast hactive
  obtain ⟨key', hlast'⟩ := hkeeps key last hlast hactive
  exact ⟨key', last, hlast', rfl, Int.le_refl _⟩

theorem JobLog.KeepsActive.trans_survives {log₁ log₂ log₃ : JobLog} (h : log₁.KeepsActive log₂)
    (h' : log₂.Survives log₃) : log₁.Survives log₃ := by
  intro key last hlast hactive
  obtain ⟨key', hlast'⟩ := h key last hlast hactive
  exact h' key' last hlast' hactive

theorem evict_spec (hlog : log.Ordered jobs limit h)
    (hfits : log.Fits key job) (hfree : log.events.get key = none) :
    log.evictTerminalJobIfNeeded = (false, log) ∨
      ∃ log', log.evictTerminalJobIfNeeded = (true, log') ∧ log'.Ordered jobs limit h ∧
        log'.events.keys.length + 1 ≤ jobs ∧
        (∀ p, log.projectionEvents.get p = none → log'.projectionEvents.get p = none) ∧
        log.KeepsActive log' ∧ log'.Fits key job ∧ log'.events.get key = none := by
  unfold JobLog.evictTerminalJobIfNeeded
  split
  · rename_i hroom
    rw [hlog.maxJobs] at hroom
    exact Or.inr ⟨log, rfl, hlog, hroom, fun _ hp => hp, KeepsActive.refl log, hfits, hfree⟩
  · cases hfind : log.events.keys.find? (fun key => key ∈ log.terminalJobs) with
    | none => exact Or.inl rfl
    | some old =>
      have hview (k : String) := view_drop log k old
      obtain ⟨es, hes⟩ := Dict.mem_keys.mp (List.mem_of_find?_eq_some hfind)
      have hstored : log.events.get old ≠ none := by
        rw [hes]
        exact Option.some_ne_none es
      have hended : (log.view old).ended = true := by
        have hfound := List.find?_some hfind
        exact hfound
      refine Or.inr ⟨log.drop old, rfl, hlog.drop old, ?_, fun p hp => ?_, ?_, ?_, ?_⟩
      · have hlength := Dict.length_keys_erase hstored
        have hbounded := hlog.bounded
        show (log.events.erase old).keys.length + 1 ≤ jobs
        omega
      · show (List.foldl Dict.erase log.projectionEvents _).get p = none
        rw [Dict.get_erase_all, hp, ite_self]
      · intro k last hlast hactive
        have hk : k ≠ old := by
          intro hk
          obtain ⟨events, hkept⟩ := (hlog.view k).kept hlast
          have hterminal := hkept.ended
          rw [hk, hended, hactive] at hterminal
          cases hterminal
        refine ⟨k, ?_⟩
        rw [hview, if_neg hk]
        exact hlast
      · intro k last hlast
        rw [hview] at hlast
        split at hlast
        · cases hlast
        · exact hfits k last hlast
      · show (log.events.erase old).get key = none
        rw [Dict.get_erase, hfree, ite_self]

theorem view_store (tables : TextTables) (log : JobLog) (a : Admitted) (events : List JobEvent)
    (event : JobEvent) (k : String) : (log.store tables a events event).view k =
      if k = a.key then
        ⟨some (trimJobEvents log.maxEventsPerJob (events ++ [event])),
          a.status.terminal || (log.view k).ended,
          if a.status = JobStatus.progress then some a.timestamp else none,
          some (event.revision + 1), (log.view k).projected⟩
      else log.view k := by
  have hprogress : (log.store tables a events event).lastProgressAt.get k =
      if k = a.key then if a.status = JobStatus.progress then some a.timestamp else none
      else log.lastProgressAt.get k := by
    show (if a.status = JobStatus.progress then log.lastProgressAt.set a.key a.timestamp
      else log.lastProgressAt.erase a.key).get k = _
    by_cases hprogress : a.status = JobStatus.progress
    · rw [if_pos hprogress, if_pos hprogress, Dict.get_set]
    · rw [if_neg hprogress, if_neg hprogress, Dict.get_erase]
  have hended : decide (k ∈ (log.store tables a events event).terminalJobs) =
      if k = a.key then a.status.terminal || decide (k ∈ log.terminalJobs)
      else decide (k ∈ log.terminalJobs) := by
    show decide (k ∈ if a.status.terminal = true then insert a.key log.terminalJobs
      else log.terminalJobs) = _
    by_cases hterminal : a.status.terminal = true
    · by_cases hk : k = a.key <;> simp [hterminal, hk]
    · simp [Bool.eq_false_iff.mpr hterminal]
  have hview : (log.store tables a events event).view k =
      ⟨if k = a.key then some (trimJobEvents log.maxEventsPerJob (events ++ [event]))
          else log.events.get k,
        if k = a.key then a.status.terminal || decide (k ∈ log.terminalJobs)
          else decide (k ∈ log.terminalJobs),
        if k = a.key then if a.status = JobStatus.progress then some a.timestamp else none
          else log.lastProgressAt.get k,
        if k = a.key then some (event.revision + 1) else log.nextRevision.get k,
        log.projectionKeysByJob.get k⟩ := by
    unfold JobLog.view
    rw [hprogress, hended]
    unfold JobLog.store
    dsimp only
    rw [Dict.get_moveToEnd, Dict.get_set, Dict.get_set]
  rw [hview]
  by_cases hk : k = a.key
  · simp only [if_pos hk]
    rfl
  · simp only [if_neg hk]
    rfl

theorem store_ordered (tables : TextTables) (hlog : log.Ordered jobs limit h) (hlimit : 2 ≤ limit)
    (hfits : log.Fits a.key event.job) (hstatus : event.status = a.status)
    (hcase : log.events.get a.key = none ∧ events = [] ∧ event.revision = 1 ∧
        log.events.keys.length + 1 ≤ jobs ∨
      ∃ last, (log.view a.key).Kept limit h events last ∧
        event.revision = last.revision + 1 ∧
        (last.status.terminal = true → a.status.terminal = true)) :
    (log.store tables a events event).Ordered jobs limit (h.after (.ok (.appended event))) ∧
      ((log.store tables a events event).view a.key).newest = some event ∧
      log.Survives (log.store tables a events event) := by
  have hview (k : String) := view_store tables log a events event k
  have hbounded : (log.store tables a events event).events.keys.length ≤ jobs := by
    show ((log.events.set a.key _).moveToEnd a.key).keys.length ≤ jobs
    rw [Dict.length_keys_moveToEnd]
    rcases hcase with ⟨-, -, -, hroom⟩ | ⟨last, hkept, -⟩
    · exact Nat.le_trans Dict.length_keys_set_le hroom
    · have hstored : log.events.get a.key = some events := hkept.stored
      rw [Dict.length_keys_set (by rw [hstored]; exact Option.some_ne_none _)]
      exact hlog.bounded
  have hhistory : (h.after (.ok (.appended event))) event.job =
      if event.revision = 1 then [event] else h event.job ++ [event] :=
    Function.update_self _ _ _
  -- the history of the job, the events in the log, and what is under the key besides
  have hnew : trimJobEvents limit (events ++ [event]) =
        trimJobEvents limit ((h.after (.ok (.appended event))) event.job) ∧
      (∀ e ∈ events, e.job = event.job) ∧
      Consecutive ((h.after (.ok (.appended event))) event.job) ∧
      (a.status.terminal || (log.view a.key).ended) = event.status.terminal ∧
      ∀ ks, (log.view a.key).projected = some ks → ks.Nodup ∧ ks.length ≤ limit := by
    rcases hcase with ⟨hfree, hempty, hfirst, -⟩ | ⟨last, hkept, hnext, hterminal⟩
    · have hblank := (hlog.view a.key).blank hfree
      rw [hhistory, if_pos hfirst, hempty, hblank, hstatus]
      refine ⟨rfl, (fun e he => by cases he), fun i hi => ?_, Bool.or_false _, fun ks hks => ?_⟩
      · have hi : i = 0 := Nat.lt_one_iff.mp hi
        subst hi
        exact hfirst
      · cases hks
    · have hjob : last.job = event.job := (hfits a.key last hkept.newest_eq).mpr rfl
      have hlast : (h event.job).getLast? = some last := by
        rw [← hjob, ← trim_getLast? hlimit, ← hkept.trimmed]
        exact hkept.newest
      have hconsecutive : Consecutive (h event.job) := hjob ▸ hkept.consecutive
      have hlength := hconsecutive.last hlast
      have hnonempty : 0 < (h event.job).length :=
        List.length_pos_of_mem (List.mem_of_getLast? hlast)
      rw [hhistory, if_neg (by omega)]
      refine ⟨?_, fun e he => (hkept.job e he).trans hjob, hconsecutive.append (by omega), ?_,
        hkept.projected⟩
      · rw [hkept.trimmed, hjob]
        exact trim_append hlimit
      · rw [hkept.ended, hstatus]
        cases hended : last.status.terminal with
        | true => rw [hterminal hended]; rfl
        | false => exact Bool.or_false _
  obtain ⟨htrimmed, hjobs, hconsecutive, hended, hprojected⟩ := hnew
  have hkept : ((log.store tables a events event).view a.key).Kept limit
      (h.after (.ok (.appended event))) (trimJobEvents limit (events ++ [event])) event := by
    rw [hview, if_pos rfl, hlog.maxEventsPerJob]
    refine ⟨rfl, fun e he => ?_, htrimmed, hconsecutive, ?_, hended, ?_, rfl, hprojected⟩
    · rcases List.mem_append.mp (mem_trim he) with hold | hthis
      · exact hjobs e hold
      · rw [List.mem_singleton.mp hthis]
    · rw [trim_getLast? hlimit]
      exact List.getLast?_concat
    · rw [hstatus]
      by_cases hprogress : a.status = JobStatus.progress <;> simp [hprogress]
  have hothers : ∀ k, k ≠ a.key → (log.store tables a events event).view k = log.view k := by
    intro k hk
    rw [hview, if_neg hk]
  refine ⟨hlog.update rfl rfl hbounded hothers hkept ?_ (fun job hjob => ?_) hfits rfl,
    hkept.newest_eq, fun k old hold hactive => ?_⟩
  · rw [hview, if_pos rfl]
  · exact Function.update_of_ne hjob _ _
  · by_cases hk : k = a.key
    · refine ⟨a.key, event, hkept.newest_eq, ((hfits k old hold).mpr hk).symm, ?_⟩
      rcases hcase with ⟨hfree, -⟩ | ⟨last, hlast, hnext, -⟩
      · rw [hk, (hlog.view a.key).blank hfree] at hold
        cases hold
      · rw [hk, hlast.newest_eq] at hold
        cases hold
        omega
    · refine ⟨k, old, ?_, rfl, Int.le_refl _⟩
      rw [hothers k hk]
      exact hold

theorem coalesce_ordered (hlog : log.Ordered jobs limit h) (hlimit : 2 ≤ limit)
    (hfits : log.Fits a.key last.job) (hkept : (log.view a.key).Kept limit h events last) :
    let log' := { log with events := log.events.set a.key (events.dropLast ++ [a.coalesced last]) }
    log'.Ordered jobs limit (h.after (.ok (.coalesced (a.coalesced last)))) ∧
      (log'.view a.key).newest = some (a.coalesced last) ∧ log.Survives log' := by
  intro log'
  have hview (k : String) : log'.view k =
      if k = a.key then
        { log.view k with events := some (events.dropLast ++ [a.coalesced last]) }
      else log.view k := by
    unfold JobLog.view
    dsimp only [log']
    rw [Dict.get_set]
    by_cases hk : k = a.key
    · simp only [if_pos hk]
    · simp only [if_neg hk]
  have hstored : log.events.get a.key = some events := hkept.stored
  have hbounded : log'.events.keys.length ≤ jobs := by
    show (log.events.set a.key _).keys.length ≤ jobs
    rw [Dict.length_keys_set (by rw [hstored]; exact Option.some_ne_none _)]
    exact hlog.bounded
  have hhistory : (h.after (.ok (.coalesced (a.coalesced last)))) last.job =
      (h last.job).dropLast ++ [a.coalesced last] := Function.update_self _ _ _
  have hnewest : (h last.job).getLast? = some last := by
    rw [← trim_getLast? hlimit, ← hkept.trimmed]
    exact hkept.newest
  have hnonempty : h last.job ≠ [] := List.ne_nil_of_mem (List.mem_of_getLast? hnewest)
  have hkept' : (log'.view a.key).Kept limit (h.after (.ok (.coalesced (a.coalesced last))))
      (events.dropLast ++ [a.coalesced last]) (a.coalesced last) := by
    rw [hview, if_pos rfl]
    refine ⟨rfl, fun e he => ?_, ?_, ?_, List.getLast?_concat, hkept.ended, hkept.progress,
      hkept.next, hkept.projected⟩
    · rcases List.mem_append.mp he with hold | hthis
      · exact hkept.job e (List.mem_of_mem_dropLast hold)
      · rw [List.mem_singleton.mp hthis]
    · show _ = trimJobEvents limit ((h.after (.ok (.coalesced (a.coalesced last)))) last.job)
      rw [hhistory, ← trim_dropLast hlimit hnonempty, ← hkept.trimmed]
    · show Consecutive ((h.after (.ok (.coalesced (a.coalesced last)))) last.job)
      rw [hhistory]
      refine hkept.consecutive.dropLast.append ?_
      have hrevision := hkept.consecutive.last hnewest
      have hpos : 0 < (h last.job).length := List.length_pos_of_ne_nil hnonempty
      show last.revision = _
      rw [List.length_dropLast]
      omega
  have hothers : ∀ k, k ≠ a.key → log'.view k = log.view k := by
    intro k hk
    rw [hview, if_neg hk]
  refine ⟨hlog.update rfl rfl hbounded hothers hkept' ?_ (fun job hjob => ?_) hfits rfl,
    hkept'.newest_eq, fun k old hold hactive => ?_⟩
  · rw [hview, if_pos rfl]
  · exact Function.update_of_ne hjob _ _
  · by_cases hk : k = a.key
    · rw [hk, hkept.newest_eq] at hold
      cases hold
      exact ⟨a.key, a.coalesced last, hkept'.newest_eq, rfl, Int.le_refl _⟩
    · refine ⟨k, old, ?_, rfl, Int.le_refl _⟩
      rw [hothers k hk]
      exact hold

theorem remember_ordered (projectionKey : Option String) (hlog : log.Ordered jobs limit h)
    (hlimit : 2 ≤ limit)
    (hnew : ∀ p, projectionKey = some p → log.projectionEvents.get p = none)
    (hnewest : (log.view key).newest = some event) :
    (log.remember key projectionKey event).Ordered jobs limit h ∧
      ∀ k, ((log.remember key projectionKey event).view k).newest = (log.view k).newest := by
  unfold JobLog.remember
  cases projectionKey with
  | none => exact ⟨hlog, fun _ => rfl⟩
  | some p =>
    refine ⟨hlog.rememberProjection (by omega) (hnew p rfl) hnewest rfl, fun k => ?_⟩
    rw [view_rememberProjection]
    split <;> rfl

theorem JobLog.Survives.of_newest {log'' : JobLog} (hsurvives : log.Survives log')
    (hnewest : ∀ k, (log''.view k).newest = (log'.view k).newest) : log.Survives log'' := by
  intro key last hlast hactive
  obtain ⟨key', last', hlast', hsame⟩ := hsurvives key last hlast hactive
  exact ⟨key', last', (hnewest key').trans hlast', hsame⟩

/-- What an append owes: the log stays in order with the history its answer adds to, and no
active job is lost. -/
def Owed (jobs limit : ℕ) (h : Histories) (log : JobLog)
    (result : Except JobError JobAnswer × JobLog) : Prop :=
  result.2.Ordered jobs limit (h.after result.1) ∧ log.Survives result.2

theorem owed_unchanged (hlog : log'.Ordered jobs limit h) (hkeeps : log.KeepsActive log')
    {answer : Except JobError JobAnswer} (hanswer : h.after answer = h) :
    Owed jobs limit h log (answer, log') := by
  refine ⟨?_, hkeeps.survives⟩
  show log'.Ordered jobs limit (h.after answer)
  rw [hanswer]
  exact hlog

theorem Owed.trans (hkeeps : log.KeepsActive log') {result : Except JobError JobAnswer × JobLog}
    (howed : Owed jobs limit h log' result) : Owed jobs limit h log result :=
  ⟨howed.1, hkeeps.trans_survives howed.2⟩

theorem record_owed (hlog : log.Ordered jobs limit h) (hlimit : 2 ≤ limit)
    (hfits : log.Fits a.key (r.workspaceId, r.jobId))
    (hnew : ∀ p, r.projectionKey = some p → log.projectionEvents.get p = none)
    (hcase : log.events.get a.key = none ∧ events = [] ∧ log.events.keys.length + 1 ≤ jobs ∨
      ∃ last, (log.view a.key).Kept limit h events last ∧
        (last.status.terminal = true → a.status.terminal = true)) :
    Owed jobs limit h log (log.record tables r a events) := by
  have hrevision : log.events.get a.key = none ∧ events = [] ∧
        (r.event a ((log.nextRevision.get a.key).getD 1)).revision = 1 ∧
        log.events.keys.length + 1 ≤ jobs ∨
      ∃ last, (log.view a.key).Kept limit h events last ∧
        (r.event a ((log.nextRevision.get a.key).getD 1)).revision = last.revision + 1 ∧
        (last.status.terminal = true → a.status.terminal = true) := by
    rcases hcase with ⟨hfree, hempty, hroom⟩ | ⟨last, hkept, hterminal⟩
    · have hnext : log.nextRevision.get a.key = none :=
        congrArg JobView.next ((hlog.view a.key).blank hfree)
      refine Or.inl ⟨hfree, hempty, ?_, hroom⟩
      rw [hnext]
      rfl
    · have hnext : log.nextRevision.get a.key = some (last.revision + 1) := hkept.next
      refine Or.inr ⟨last, hkept, ?_, hterminal⟩
      rw [hnext]
      rfl
  unfold JobLog.record
  dsimp only
  generalize hevent : r.event a ((log.nextRevision.get a.key).getD 1) = event at hrevision ⊢
  have hjob : event.job = (r.workspaceId, r.jobId) := by
    rw [← hevent]
    rfl
  have hstatus : event.status = a.status := by
    rw [← hevent]
    rfl
  rw [← hjob] at hfits
  obtain ⟨hordered, hnewest, hsurvives⟩ :=
    store_ordered tables hlog hlimit hfits hstatus hrevision
  obtain ⟨hordered', hsame⟩ :=
    remember_ordered r.projectionKey hordered hlimit hnew hnewest
  exact ⟨hordered', hsurvives.of_newest hsame⟩

theorem extend_owed (hlog : log.Ordered jobs limit h) (hlimit : 2 ≤ limit)
    (hfits : log.Fits a.key (r.workspaceId, r.jobId))
    (hnew : ∀ p, r.projectionKey = some p → log.projectionEvents.get p = none)
    (hkept : (log.view a.key).Kept limit h events last) :
    Owed jobs limit h log (log.extend tables r a events last) := by
  have hjob : last.job = (r.workspaceId, r.jobId) := (hfits a.key last hkept.newest_eq).mpr rfl
  unfold JobLog.extend
  dsimp only
  split
  · exact owed_unchanged hlog (KeepsActive.refl log) rfl
  · rename_i hgoes
    -- a recheck keeps the key and the status
    generalize hmerged : (if isRecheck a.data = true then
      { a with data := Json.merge (last.data.getD []) a.data }
      else a) = b
    have hsame : b.key = a.key ∧ b.status = a.status := by
      rw [← hmerged]
      split <;> exact ⟨rfl, rfl⟩
    obtain ⟨hkey, hstatus⟩ := hsame
    rw [← hkey] at hkept hfits
    have hterminal : last.status.terminal = true → b.status.terminal = true := by
      intro hended
      have hcompleted := (not_not.mp (fun hne => hgoes ⟨hended, hne⟩)).2
      rw [hstatus, hcompleted]
      rfl
    split
    · rw [← hjob] at hfits
      obtain ⟨hordered, hnewest, hsurvives⟩ := coalesce_ordered hlog hlimit hfits hkept
      obtain ⟨hordered', hsame⟩ :=
        remember_ordered r.projectionKey hordered hlimit hnew hnewest
      exact ⟨hordered', hsurvives.of_newest hsame⟩
    · split
      · exact owed_unchanged hlog (KeepsActive.refl log) rfl
      · split
        · exact owed_unchanged hlog (KeepsActive.refl log) rfl
        · exact record_owed hlog hlimit hfits hnew (Or.inr ⟨last, hkept, hterminal⟩)

theorem admit_owed (hlog : log.Ordered jobs limit h) (hlimit : 2 ≤ limit)
    (hfits : log.Fits a.key (r.workspaceId, r.jobId))
    (hnew : ∀ p, r.projectionKey = some p → log.projectionEvents.get p = none) :
    Owed jobs limit h log (log.settle tables r a) := by
  unfold JobLog.settle
  split
  · rename_i hfree
    rcases evict_spec hlog hfits hfree with hfull | ⟨log', heq, hlog', hroom, hforgets, hkeeps,
      hfits', hfree'⟩
    · rw [hfull]
      exact owed_unchanged hlog (KeepsActive.refl log) rfl
    · rw [heq]
      exact Owed.trans hkeeps (record_owed hlog' hlimit hfits'
        (fun p hp => hforgets p (hnew p hp)) (Or.inl ⟨hfree', rfl, hroom⟩))
  · rename_i events hstored
    rcases hlog.view a.key with hblank | ⟨events', last, hkept⟩
    · have hnone : log.events.get a.key = none := congrArg JobView.events hblank
      rw [hstored] at hnone
      cases hnone
    · have hsame : log.events.get a.key = some events' := hkept.stored
      rw [hstored, Option.some.injEq] at hsame
      rw [← hsame] at hkept
      rw [hkept.newest]
      exact extend_owed hlog hlimit hfits hnew hkept

theorem append_owed (hlog : log.Ordered jobs limit h) (hlimit : 2 ≤ limit)
    (hseparate : log.Separate r.workspaceId r.jobId) :
    Owed jobs limit h log (log.append tables r) := by
  obtain ⟨hordered, hevents, hkeeps, hfits⟩ := storageKey_spec hlog hseparate
  unfold JobLog.append
  split
  · exact owed_unchanged hlog (KeepsActive.refl log) rfl
  · rename_i timestamp
    generalize log.storageKey r.workspaceId r.jobId = s at hordered hevents hkeeps hfits
    obtain ⟨key, log'⟩ := s
    dsimp only at hordered hevents hkeeps hfits ⊢
    split
    · exact owed_unchanged hordered hkeeps rfl
    · rename_i hunknown
      split
      · exact owed_unchanged hordered hkeeps rfl
      · refine Owed.trans hkeeps (admit_owed hordered hlimit hfits (fun p hp => ?_))
        rw [hp] at hunknown
        exact hunknown

/-! ## Queries and runs -/

theorem isActive_iff (hlog : log.Ordered jobs limit h) {jobId : String}
    {workspace : Option String} : log.isActive jobId workspace = true ↔
      ∃ k last, (log.view k).newest = some last ∧ last.jobId = jobId ∧
        (workspace = none ∨ workspace = some last.workspaceId) ∧
        last.status.terminal = false := by
  have hended {k : String} {last : JobEvent} (hlast : (log.view k).newest = some last) :
      k ∉ log.terminalJobs ↔ last.status.terminal = false := by
    obtain ⟨events, hkept⟩ := (hlog.view k).kept hlast
    rw [← hkept.ended]
    exact decide_eq_false_iff_not.symm
  unfold JobLog.isActive
  rw [List.any_eq_true]
  constructor
  · intro hany
    obtain ⟨e, he, hof⟩ := hany
    obtain ⟨hactive, hof⟩ := of_decide_eq_true hof
    obtain ⟨last, hlast⟩ := isOf_some hof
    have hnewest := newest_of_entry he hlast
    obtain ⟨hjob, hworkspace⟩ := (isOf_newest hlast).mp hof
    exact ⟨e.1, last, hnewest, hjob, hworkspace, (hended hnewest).mp hactive⟩
  · intro hstored
    obtain ⟨k, last, hlast, hjob, hworkspace, hactive⟩ := hstored
    obtain ⟨events, he, hnewest⟩ := entry_of_newest hlast
    exact ⟨(k, events), he, decide_eq_true
      ⟨(hended hlast).mpr hactive, (isOf_newest hnewest).mpr ⟨hjob, hworkspace⟩⟩⟩

theorem recheck_owed (hlog : log.Ordered jobs limit h) (hlimit : 2 ≤ limit)
    (jobId workspaceId : String) (timestamp : Option ℚ) (data : List (String × Json)) :
    Owed jobs limit h log (log.appendRecheck tables jobId workspaceId timestamp data) := by
  unfold JobLog.appendRecheck
  cases hlatest : log.latest jobId (some workspaceId) with
  | none => exact owed_unchanged hlog (KeepsActive.refl log) rfl
  | some latest =>
    obtain ⟨e, hfind, hlast⟩ := Option.bind_eq_some_iff.mp hlatest
    have hof : isOf jobId (some workspaceId) e.2 = true := by
      have hfound := List.find?_some hfind
      exact hfound
    obtain ⟨hjob, -⟩ := (isOf_newest hlast).mp hof
    refine append_owed hlog hlimit (Or.inl (contains_iff.mpr ⟨e.1, latest, ?_, hjob, Or.inr rfl⟩))
    exact newest_of_entry (List.mem_of_find?_eq_some hfind) hlast

end Append

inductive JobLabel where
  | append (r : JobRequest) (answer : Except JobError JobAnswer)
  | recheck (jobId workspaceId : String) (answer : Except JobError JobAnswer)
  | query

/-- The histories after what was done, newest first. -/
def histories : List JobLabel → Histories
  | [] => fun _ => []
  | .append _ answer :: older => (histories older).after answer
  | .recheck _ _ answer :: older => (histories older).after answer
  | .query :: older => histories older

inductive JobStep (tables : TextTables) (log : JobLog) : JobLabel → JobLog → Prop
  | append (r : JobRequest) :
      JobStep tables log (.append r (log.append tables r).1) (log.append tables r).2
  | recheck (jobId workspaceId : String) (timestamp : Option ℚ) (data : List (String × Json)) :
      JobStep tables log
        (.recheck jobId workspaceId (log.appendRecheck tables jobId workspaceId timestamp data).1)
        (log.appendRecheck tables jobId workspaceId timestamp data).2
  | query : JobStep tables log .query log

/-- An append is to come to no other job's key. -/
def JobLog.Admits (log : JobLog) : JobLabel → Prop
  | .append r _ => log.Separate r.workspaceId r.jobId
  | .recheck _ _ _ | .query => True

/-- A step that comes to no other job's key. -/
def AdmittedStep (tables : TextTables) (log : JobLog) (l : JobLabel) (log' : JobLog) : Prop :=
  log.Admits l ∧ JobStep tables log l log'

theorem step_owed {tables : TextTables} {jobs limit : ℕ} {hist : List JobLabel}
    {log log' : JobLog} {l : JobLabel} (hlog : log.Ordered jobs limit (histories hist))
    (hlimit : 2 ≤ limit) (hstep : AdmittedStep tables log l log') :
    log'.Ordered jobs limit (histories (l :: hist)) ∧ log.Survives log' := by
  obtain ⟨hadmits, hstep⟩ := hstep
  cases hstep with
  | append r => exact append_owed hlog hlimit hadmits
  | recheck jobId workspaceId timestamp data =>
    exact recheck_owed hlog hlimit jobId workspaceId timestamp data
  | query => exact ⟨hlog, (KeepsActive.refl log).survives⟩

theorem new_ordered (maxJobs maxEventsPerJob : ℤ) (presentation : Option PresentationLog) :
    (JobLog.new maxJobs maxEventsPerJob presentation).Ordered (max 1 maxJobs).toNat
      (max 2 maxEventsPerJob).toNat (histories []) where
  maxJobs := rfl
  maxEventsPerJob := rfl
  bounded := Nat.zero_le _
  view := fun _ => Or.inl rfl
  distinct := fun _ _ _ _ hlast => by cases hlast
  projected := fun p => by
    constructor
    · intro hsome
      cases hsome
    · intro hkeys
      obtain ⟨_, _, hks, _⟩ := hkeys
      cases hks
  projectedJob := fun _ _ _ _ hks => by cases hks
  projectedOnce := fun _ _ _ _ _ hks => by cases hks

/-- Along every run of appends, rechecks and queries in which no append comes to another
job's key: the log is in order, each job keeps at most so many events, the first and the
newest of its history, whose revisions grow by one from 1, the queries see exactly the jobs
with events, and no step loses a job that has not ended. -/
theorem job_log_bounds (tables : TextTables) (maxJobs maxEventsPerJob : ℤ)
    (presentation : Option PresentationLog) {hist : List JobLabel} {log : JobLog}
    (hrun : Run (AdmittedStep tables) (JobLog.new maxJobs maxEventsPerJob presentation) hist
      log) :
    log.Ordered (max 1 maxJobs).toNat (max 2 maxEventsPerJob).toNat (histories hist) ∧
    (∀ key events, log.events.get key = some events →
      events.length ≤ (max 2 maxEventsPerJob).toNat ∧
      ∃ job, (∀ e ∈ events, e.job = job) ∧ events.head? = (histories hist job).head? ∧
        events.getLast? = (histories hist job).getLast? ∧ Consecutive (histories hist job)) ∧
    (∀ jobId workspace, log.isActive jobId workspace = true ↔
      ∃ k last, (log.view k).newest = some last ∧ last.jobId = jobId ∧
        (workspace = none ∨ workspace = some last.workspaceId) ∧
        last.status.terminal = false) ∧
    ∀ l log', AdmittedStep tables log l log' → log.Survives log' := by
  have hlimit : 2 ≤ (max 2 maxEventsPerJob).toNat := by omega
  have hlog : log.Ordered (max 1 maxJobs).toNat (max 2 maxEventsPerJob).toNat
      (histories hist) :=
    hrun.history (I := fun hist s => s.Ordered (max 1 maxJobs).toNat
        (max 2 maxEventsPerJob).toNat (histories hist))
      (new_ordered maxJobs maxEventsPerJob presentation)
      (fun _ _ _ _ hs hstep => (step_owed hs hlimit hstep).1)
  refine ⟨hlog, fun key events hevents => ?_, fun jobId workspace => isActive_iff hlog,
    fun l log' hstep => (step_owed hlog hlimit hstep).2⟩
  rcases hlog.view key with hblank | ⟨events', last, hkept⟩
  · have hnone : log.events.get key = none := congrArg JobView.events hblank
    rw [hevents] at hnone
    cases hnone
  · have hsame : log.events.get key = some events' := hkept.stored
    rw [hevents, Option.some.injEq] at hsame
    rw [hsame]
    refine ⟨?_, last.job, hkept.job, ?_, ?_, hkept.consecutive⟩
    · rw [hkept.trimmed]
      exact trim_length hlimit
    · rw [hkept.trimmed]
      exact trim_head?
    · rw [hkept.trimmed]
      exact trim_getLast? hlimit

/-! ## A run, and a job that is lost -/

def requestOf (workspaceId jobId status : String) : JobRequest where
  workspaceId
  sessionId := "session-1"
  turnId := "turn-1"
  jobId
  requestId := "request-1"
  interruptionEpoch := 0
  source := "test"
  timestamp := some 1
  status

theorem JobLog.Survives.contains {log log' : JobLog} (hsurvives : log.Survives log')
    (key : String) (job : String × String)
    (hnewest : (log.view key).newest.map (fun e => (e.job, e.status.terminal)) =
      some (job, false)) : log'.contains job.2 (some job.1) = true := by
  obtain ⟨last, hlast, hsame⟩ := Option.map_eq_some_iff.mp hnewest
  obtain ⟨hjob, hactive⟩ := Prod.mk.inj hsame
  obtain ⟨key', last', hlast', hjob', -⟩ := hsurvives key last hlast hactive
  have hstored : last'.job = job := hjob'.trans hjob
  exact contains_iff.mpr ⟨key', last', hlast', congrArg Prod.snd hstored,
    Or.inr (congrArg some (congrArg Prod.fst hstored).symm)⟩

theorem append_next {step : JobLog → JobLabel → JobLog → Prop} {tables : TextTables}
    {log₀ log : JobLog} {hist : List JobLabel} (hrun : Run step log₀ hist log) (r : JobRequest)
    (hstep : step log (.append r (log.append tables r).1) (log.append tables r).2) :
    Run step log₀ (.append r (log.append tables r).1 :: hist) (log.append tables r).2 :=
  hrun.next hstep

/-- A job is created and completed. -/
theorem job_log_bounds_completed : ∃ hist log,
    Run (AdmittedStep asciiTables) (JobLog.new 2 2 none) hist log ∧
    log.events.keys = ["job-1"] ∧ log.terminalJobs = {"job-1"} ∧
    log.Ordered 2 2 (histories hist) := by
  have hfirst : (JobLog.new 2 2 none).Separate "workspace-1" "job-1" :=
    Or.inr ⟨rfl, fun hcontains => by cases hcontains⟩
  have hsecond : ((JobLog.new 2 2 none).append asciiTables
      (requestOf "workspace-1" "job-1" "created")).2.Separate "workspace-1" "job-1" := by
    refine Or.inl ?_
    decide +kernel
  have hrun : Run (AdmittedStep asciiTables) (JobLog.new 2 2 none) [] (JobLog.new 2 2 none) :=
    Run.start
  have hrun := append_next hrun (requestOf "workspace-1" "job-1" "created")
    ⟨hfirst, JobStep.append _⟩
  have hrun := append_next hrun (requestOf "workspace-1" "job-1" "completed")
    ⟨hsecond, JobStep.append _⟩
  refine ⟨_, _, hrun, ?_, ?_, (job_log_bounds asciiTables 2 2 none hrun).1⟩
  · decide +kernel
  · decide +kernel

/-- A job of another workspace brings a job to the key of a third one, which is active and
is lost. -/
theorem job_log_loses_active : ∃ hist log l log',
    Run (JobStep asciiTables) (JobLog.new 8 8 none) hist log ∧ JobStep asciiTables log l log' ∧
    log.isActive "a\x00j" (some "x") = true ∧ log'.contains "a\x00j" (some "x") = false ∧
    ¬ log.Survives log' := by
  have hrun : Run (JobStep asciiTables) (JobLog.new 8 8 none) [] (JobLog.new 8 8 none) :=
    Run.start
  have hrun := append_next hrun (requestOf "x" "a\x00j" "created") (JobStep.append _)
  have hrun := append_next hrun (requestOf "a" "j" "created") (JobStep.append _)
  have hlost : (((((JobLog.new 8 8 none).append asciiTables
      (requestOf "x" "a\x00j" "created")).2.append asciiTables
        (requestOf "a" "j" "created")).2.append asciiTables
          (requestOf "b" "j" "created")).2).contains "a\x00j" (some "x") = false := by
    decide +kernel
  refine ⟨_, _, _, _, hrun, JobStep.append (requestOf "b" "j" "created"), ?_, hlost, ?_⟩
  · decide +kernel
  · intro hsurvives
    have hstays := hsurvives.contains "a\x00j" ("x", "a\x00j") (by decide +kernel)
    rw [hlost] at hstays
    cases hstays

end Events
