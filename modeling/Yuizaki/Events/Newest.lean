import Yuizaki.Events.JobBounds

/- What an append does to the newest events of the jobs, on any log.

   Nothing is assumed of the keys here: a request may come to the key of another job, and
   a job may be moved over one. What stays true is that no job is the newest under two keys
   (`JobLog.Located`), that a newest event is an old one, the one that was appended, or a
   progress event that took the place of another, and that after a job has ended only a
   completed recheck is appended to it (`append_leaves`). -/
namespace Events

/-- Some key has the event as its newest. -/
def JobLog.Has (log : JobLog) (event : JobEvent) : Prop :=
  ∃ key, (log.view key).newest = some event

structure JobIdentity.Normal (identity : JobIdentity) : Prop where
  kept : identity.kept = identity
  stepIndex : identity.stepIndex.map (max 0) = identity.stepIndex
  interruptionEpoch : max 0 identity.interruptionEpoch = identity.interruptionEpoch

/-- No job is the newest under two keys, and trimming leaves the newest event. -/
structure JobLog.Located (log : JobLog) : Prop where
  limit : 2 ≤ log.maxEventsPerJob
  normal : ∀ e, log.Has e → e.toJobIdentity.Normal
  distinct : ∀ key key' last last', (log.view key).newest = some last →
    (log.view key').newest = some last' → last.job = last'.job → key = key'

/-- The job is the newest under no other key. -/
def JobLog.Alone (log : JobLog) (key : String) (job : String × String) : Prop :=
  ∀ k last, (log.view k).newest = some last → last.job = job → k = key

theorem identity_normal (r : JobRequest) : r.identity.kept.Normal := by
  have hkept (value : Option String) : nonEmpty (nonEmpty value) = nonEmpty value := by
    rw [nonEmpty, nonEmpty, Option.filter_filter]
    simp
  refine ⟨?_, ?_, ?_⟩
  · rw [JobIdentity.kept, JobIdentity.kept]
    simp only [hkept]
  · show (r.stepIndex.map (max 0)).map (max 0) = r.stepIndex.map (max 0)
    rw [Option.map_map]
    refine congrArg (fun f => r.stepIndex.map f) (funext fun n => ?_)
    show max 0 (max 0 n) = max 0 n
    omega
  · show max 0 (max 0 r.interruptionEpoch) = max 0 r.interruptionEpoch
    omega

section Logs

variable {log log' : JobLog} {tables : TextTables} {r : JobRequest} {a : Admitted}
  {events : List JobEvent} {event previous : JobEvent} {key workspaceId jobId : String}

theorem JobLog.Located.unique (hlog : log.Located) {e e' : JobEvent} (he : log.Has e)
    (he' : log.Has e') (hjob : e.job = e'.job) : e = e' := by
  obtain ⟨k, hk⟩ := he
  obtain ⟨k', hk'⟩ := he'
  have hkey := hlog.distinct k k' e e' hk hk' hjob
  rw [hkey, hk'] at hk
  exact (Option.some.inj hk).symm

theorem latest_iff (hlog : log.Located) :
    log.latest jobId (some workspaceId) = some event ↔
      log.Has event ∧ event.job = (workspaceId, jobId) := by
  rw [JobLog.latest, Option.bind_eq_some_iff]
  refine ⟨fun ⟨e, hfind, hlast⟩ => ?_, fun ⟨⟨k, hk⟩, hjob⟩ => ?_⟩
  · have hof : isOf jobId (some workspaceId) e.2 = true := by
      have hfound := List.find?_some hfind
      exact hfound
    obtain ⟨hid, hworkspace⟩ := (isOf_newest hlast).mp hof
    refine ⟨⟨e.1, newest_of_entry (List.mem_of_find?_eq_some hfind) hlast⟩, ?_⟩
    have hsame : workspaceId = event.workspaceId := by simpa using hworkspace
    rw [JobEvent.job, hid, hsame]
  · obtain ⟨events, hentry, hlast⟩ := entry_of_newest hk
    obtain ⟨hworkspace, hid⟩ := Prod.mk.inj hjob
    have hof : isOf jobId (some workspaceId) events = true :=
      (isOf_newest hlast).mpr ⟨hid, Or.inr (congrArg some hworkspace.symm)⟩
    cases hfind : log.events.entries.find? (fun e => isOf jobId (some workspaceId) e.2) with
    | none => exact absurd hof (List.find?_eq_none.mp hfind _ hentry)
    | some e =>
      have hfound : isOf jobId (some workspaceId) e.2 = true := by
        have hof := List.find?_some hfind
        exact hof
      obtain ⟨last, hlast'⟩ := isOf_some hfound
      obtain ⟨hid', hworkspace'⟩ := (isOf_newest hlast').mp hfound
      have hmem := List.mem_of_find?_eq_some hfind
      have hjob' : last.job = event.job := by
        have hsame : workspaceId = last.workspaceId := by simpa using hworkspace'
        rw [hjob, JobEvent.job, hid', hsame]
      have heq := hlog.unique ⟨e.1, newest_of_entry hmem hlast'⟩ ⟨k, hk⟩ hjob'
      exact ⟨e, rfl, hlast'.trans (congrArg some heq)⟩

theorem JobLog.Located.mono (hlog : log.Located) (hmax : log'.maxEventsPerJob = log.maxEventsPerJob)
    (hsub : ∀ k last, (log'.view k).newest = some last → (log.view k).newest = some last) :
    log'.Located := by
  refine ⟨hmax ▸ hlog.limit, fun e ⟨k, hk⟩ => hlog.normal e ⟨k, hsub k e hk⟩,
    fun k k' last last' hk hk' hjob => ?_⟩
  exact hlog.distinct k k' last last' (hsub k last hk) (hsub k' last' hk') hjob

theorem newest_rescope (log : JobLog) (key b k : String) :
    ((log.rescope key b).view k).newest =
      if log.events.get key = none then (log.view k).newest
      else if k = b then (log.view key).newest
      else if k = key then none else (log.view k).newest := by
  show ((log.events.rename key b).get k).bind List.getLast? = _
  unfold Dict.rename
  cases hkey : log.events.get key with
  | none =>
    rw [if_pos rfl]
    rfl
  | some events =>
    rw [if_neg (Option.some_ne_none events)]
    show ((((log.events.erase key).set b events).get k).bind List.getLast?) = _
    rw [Dict.get_set, Dict.get_erase]
    split
    · show (some events).bind List.getLast? = (log.events.get key).bind List.getLast?
      rw [hkey]
    · split
      · rfl
      · rfl

/-! ## Where a request goes -/

/-- What `_storage_key` leaves of the newest events. -/
structure Leads (log log' : JobLog) (key : String) (job : String × String) : Prop where
  located : log'.Located
  old : ∀ e, log'.Has e → log.Has e
  alone : log'.Alone key job
  own : ∀ e, log.Has e → e.job = job → (log'.view key).newest = some e

theorem storageKey_leads (hlog : log.Located) (workspaceId jobId : String) :
    Leads log (log.storageKey workspaceId jobId).2 (log.storageKey workspaceId jobId).1
      (workspaceId, jobId) := by
  have hfoundEntry (e : String × List JobEvent)
      (he : e ∈ log.events.entries.filter (fun e => newestJob e.2 = some jobId))
      (hworkspace : newestWorkspace e.2 = some workspaceId) :
      ∃ last, (log.view e.1).newest = some last ∧ last.job = (workspaceId, jobId) := by
    obtain ⟨hentry, hjob⟩ := List.mem_filter.mp he
    obtain ⟨last, hlast, hjobId⟩ := Option.map_eq_some_iff.mp (of_decide_eq_true hjob)
    rw [newestWorkspace, hlast] at hworkspace
    refine ⟨last, newest_of_entry hentry hlast, ?_⟩
    have hsame : last.workspaceId = workspaceId := Option.some.inj hworkspace
    rw [JobEvent.job, hjobId, hsame]
  unfold JobLog.storageKey
  dsimp only
  split
  · -- the job has events: its key is the one
    rename_i e hfind
    have hworkspace : newestWorkspace e.2 = some workspaceId := by
      simpa using List.find?_some hfind
    obtain ⟨last, hlast, hjob⟩ := hfoundEntry e (List.mem_of_find?_eq_some hfind) hworkspace
    refine ⟨hlog, fun _ he => he, fun k last' hk hjob' => ?_, fun e' he' hjob' => ?_⟩
    · exact hlog.distinct k e.1 last' last hk hlast (hjob'.trans hjob.symm)
    · rw [hlog.unique he' ⟨e.1, hlast⟩ (hjob'.trans hjob.symm)]
      exact hlast
  · rename_i hfind
    have hnew (last : JobEvent) (hhas : log.Has last) : last.job ≠ (workspaceId, jobId) := by
      intro hjob
      obtain ⟨k, hk⟩ := hhas
      obtain ⟨events, hentry, hlast⟩ := entry_of_newest hk
      obtain ⟨hworkspace, hid⟩ := Prod.mk.inj hjob
      have hmem : (k, events) ∈ log.events.entries.filter (fun e => newestJob e.2 = some jobId) := by
        refine List.mem_filter.mpr ⟨hentry, decide_eq_true ?_⟩
        show events.getLast?.map _ = _
        rw [hlast, Option.map_some, hid]
      refine List.find?_eq_none.mp hfind _ hmem (decide_eq_true ?_)
      show events.getLast?.map _ = _
      rw [hlast, Option.map_some, hworkspace]
    -- wherever it goes, the job was not there before
    have hleads (log' : JobLog) (key : String) (hlocated : log'.Located)
        (hold : ∀ e, log'.Has e → log.Has e) : Leads log log' key (workspaceId, jobId) :=
      ⟨hlocated, hold, fun k last hk hjob => absurd hjob (hnew last (hold last ⟨k, hk⟩)),
        fun e he hjob => absurd hjob (hnew e he)⟩
    split
    · exact hleads log _ hlog fun _ he => he
    · split
      · exact hleads log _ hlog fun _ he => he
      · rename_i direct hdirect
        split
        · -- an empty entry is dropped
          have hsub (k : String) (last : JobEvent)
              (hk : (({ log with events := log.events.erase jobId } : JobLog).view k).newest =
                some last) : (log.view k).newest = some last := by
            have hk' : ((log.events.erase jobId).get k).bind List.getLast? = some last := hk
            rw [Dict.get_erase] at hk'
            split at hk'
            · cases hk'
            · exact hk'
          refine hleads _ _ (hlog.mono rfl hsub) fun e hhas => ?_
          obtain ⟨k, hk⟩ := hhas
          exact ⟨k, hsub k e hk⟩
        · rename_i existing hexisting
          have hview (k : String) := newest_rescope log jobId (scopeKey existing jobId) k
          simp only [hdirect, reduceCtorEq, if_false] at hview
          have hold (e : JobEvent) (he : (log.rescope jobId (scopeKey existing jobId)).Has e) :
              log.Has e := by
            obtain ⟨k, hk⟩ := he
            rw [hview] at hk
            split at hk
            · exact ⟨_, hk⟩
            · split at hk
              · cases hk
              · exact ⟨_, hk⟩
          refine hleads _ _ ⟨hlog.limit, fun e he => hlog.normal e (hold e he),
            fun k k' last last' hk hk' hjob => ?_⟩ hold
          · -- the moved job keeps its one key
            rw [hview] at hk hk'
            by_cases hb : k = scopeKey existing jobId
            · by_cases hb' : k' = scopeKey existing jobId
              · rw [hb, hb']
              · rw [if_pos hb] at hk
                rw [if_neg hb'] at hk'
                split at hk'
                · cases hk'
                · rename_i hne
                  exact absurd (hlog.distinct _ _ _ _ hk hk' hjob).symm hne
            · rw [if_neg hb] at hk
              split at hk
              · cases hk
              · rename_i hne
                by_cases hb' : k' = scopeKey existing jobId
                · rw [if_pos hb'] at hk'
                  exact absurd (hlog.distinct _ _ _ _ hk hk' hjob) hne
                · rw [if_neg hb'] at hk'
                  split at hk'
                  · cases hk'
                  · exact hlog.distinct _ _ _ _ hk hk' hjob

/-! ## What an append leaves -/

/-- What an append leaves of the newest events. -/
structure Leaves (tables : TextTables) (log : JobLog) (r : JobRequest)
    (result : Except JobError JobAnswer × JobLog) : Prop where
  located : result.2.Located
  newest : ∀ e, result.2.Has e → log.Has e ∨ result.1 = .ok (.appended e) ∨
    result.1 = .ok (.coalesced e)
  appended : ∀ e, result.1 = .ok (.appended e) → result.2.Has e ∧
    e.job = (r.workspaceId, r.jobId) ∧ JobStatus.ofText r.status = some e.status ∧
    ∀ last, log.Has last → last.job = e.job → last.status.terminal = true →
      isRecheck (r.sanitized tables) = true ∧ e.status = .completed
  coalesced : ∀ e, result.1 = .ok (.coalesced e) → ∃ last, log.Has last ∧
    last.status = .progress ∧ e.job = last.job

theorem events_remember (projectionKey : Option String) :
    (log.remember key projectionKey event).events = log.events ∧
      (log.remember key projectionKey event).maxEventsPerJob = log.maxEventsPerJob := by
  cases projectionKey <;> exact ⟨rfl, rfl⟩

theorem newest_remember (projectionKey : Option String) (k : String) :
    ((log.remember key projectionKey event).view k).newest = (log.view k).newest := by
  show ((log.remember key projectionKey event).events.get k).bind List.getLast? = _
  rw [(events_remember projectionKey).1]
  rfl

theorem newest_record (tables : TextTables) (r : JobRequest) (a : Admitted)
    (events : List JobEvent) (hlimit : 2 ≤ log.maxEventsPerJob) (k : String) :
    ((log.record tables r a events).2.view k).newest =
      if k = a.key then some (r.event a ((log.nextRevision.get a.key).getD 1))
      else (log.view k).newest := by
  unfold JobLog.record
  dsimp only
  rw [newest_remember]
  show (((log.events.set a.key _).moveToEnd a.key).get k).bind List.getLast? = _
  rw [Dict.get_moveToEnd, Dict.get_set]
  split
  · show (trimJobEvents log.maxEventsPerJob _).getLast? = _
    rw [trim_getLast? hlimit]
    exact List.getLast?_concat
  · rfl

theorem record_located (hlog : log.Located) (halone : log.Alone a.key (r.workspaceId, r.jobId)) :
    (log.record tables r a events).2.Located := by
  have hview (k : String) := newest_record tables r a events hlog.limit k
  refine ⟨?_, fun e ⟨k, hk⟩ => ?_, fun k k' last last' hk hk' hjob => ?_⟩
  · unfold JobLog.record
    dsimp only
    rw [(events_remember r.projectionKey).2]
    exact hlog.limit
  · rw [hview] at hk
    split at hk
    · cases hk
      exact identity_normal r
    · exact hlog.normal e ⟨k, hk⟩
  · rw [hview] at hk hk'
    by_cases hkey : k = a.key
    · by_cases hkey' : k' = a.key
      · rw [hkey, hkey']
      · rw [if_pos hkey] at hk
        rw [if_neg hkey'] at hk'
        cases hk
        exact absurd (halone k' last' hk' hjob.symm) hkey'
    · rw [if_neg hkey] at hk
      by_cases hkey' : k' = a.key
      · rw [if_pos hkey'] at hk'
        cases hk'
        exact absurd (halone k last hk hjob) hkey
      · rw [if_neg hkey'] at hk'
        exact hlog.distinct _ _ _ _ hk hk' hjob

theorem record_leaves (hlog : log.Located) (halone : log.Alone a.key (r.workspaceId, r.jobId))
    (hstatus : JobStatus.ofText r.status = some a.status)
    (hended : ∀ last, log.Has last → last.job = (r.workspaceId, r.jobId) →
      last.status.terminal = true → isRecheck (r.sanitized tables) = true ∧
        a.status = .completed) :
    Leaves tables log r (log.record tables r a events) := by
  have hview (k : String) := newest_record tables r a events hlog.limit k
  have hanswer : (log.record tables r a events).1 =
      .ok (.appended (r.event a ((log.nextRevision.get a.key).getD 1))) := rfl
  refine ⟨record_located hlog halone, fun e ⟨k, hk⟩ => ?_, fun e he => ?_, fun e he => ?_⟩
  · rw [hview] at hk
    split at hk
    · exact Or.inr (Or.inl (hanswer.trans (by rw [Option.some.inj hk])))
    · exact Or.inl ⟨k, hk⟩
  · rw [hanswer] at he
    cases he
    refine ⟨⟨a.key, ?_⟩, rfl, hstatus, hended⟩
    rw [hview, if_pos rfl]
  · rw [hanswer] at he
    cases he

theorem coalesce_leaves (hlog : log.Located) (hstored : log.events.get a.key = some events)
    (hprevious : events.getLast? = some previous) (hprogress : previous.status = .progress) :
    Leaves tables log r (log.coalesce r a events previous) := by
  have hold : (log.view a.key).newest = some previous := by
    show (log.events.get a.key).bind List.getLast? = some previous
    rw [hstored]
    exact hprevious
  have hview (k : String) : ((log.coalesce r a events previous).2.view k).newest =
      if k = a.key then some (a.coalesced previous) else (log.view k).newest := by
    unfold JobLog.coalesce
    dsimp only
    rw [newest_remember]
    show ((log.events.set a.key _).get k).bind List.getLast? = _
    rw [Dict.get_set]
    split
    · exact List.getLast?_concat
    · rfl
  have hanswer : (log.coalesce r a events previous).1 = .ok (.coalesced (a.coalesced previous)) :=
    rfl
  have hjob : (a.coalesced previous).job = previous.job := rfl
  refine ⟨⟨?_, fun e hhas => ?_, fun k k' last last' hk hk' hsame => ?_⟩, fun e hhas => ?_,
    fun e he => ?_, fun e he => ?_⟩
  · unfold JobLog.coalesce
    dsimp only
    rw [(events_remember r.projectionKey).2]
    exact hlog.limit
  · obtain ⟨k, hk⟩ := hhas
    rw [hview] at hk
    split at hk
    · cases hk
      exact hlog.normal previous ⟨a.key, hold⟩
    · exact hlog.normal e ⟨k, hk⟩
  · rw [hview] at hk hk'
    -- the event that is replaced was of the same job
    have hbefore (k : String) (last : JobEvent)
        (hk : (if k = a.key then some (a.coalesced previous) else (log.view k).newest) = some last) :
        ∃ last₀, (log.view k).newest = some last₀ ∧ last₀.job = last.job := by
      split at hk
      · rename_i hkey
        cases hk
        exact ⟨previous, hkey ▸ hold, hjob.symm⟩
      · exact ⟨last, hk, rfl⟩
    obtain ⟨last₀, hlast₀, hjob₀⟩ := hbefore k last hk
    obtain ⟨last₁, hlast₁, hjob₁⟩ := hbefore k' last' hk'
    exact hlog.distinct k k' last₀ last₁ hlast₀ hlast₁ (by rw [hjob₀, hjob₁, hsame])
  · obtain ⟨k, hk⟩ := hhas
    rw [hview] at hk
    split at hk
    · exact Or.inr (Or.inr (hanswer.trans (by rw [Option.some.inj hk])))
    · exact Or.inl ⟨k, hk⟩
  · rw [hanswer] at he
    cases he
  · rw [hanswer] at he
    cases he
    exact ⟨previous, ⟨a.key, hold⟩, hprogress, hjob⟩

theorem unchanged_leaves (hlog : log.Located) {answer : Except JobError JobAnswer}
    (hanswer : (∃ error, answer = .error error) ∨ ∃ e, answer = .ok (.duplicate e)) :
    Leaves tables log r (answer, log) := by
  refine ⟨hlog, fun _ he => Or.inl he, fun e he => ?_, fun e he => ?_⟩
  · rcases hanswer with ⟨error, h⟩ | ⟨e', h⟩ <;> rw [h] at he <;> cases he
  · rcases hanswer with ⟨error, h⟩ | ⟨e', h⟩ <;> rw [h] at he <;> cases he

theorem Leaves.of_older {result : Except JobError JobAnswer × JobLog}
    (h : Leaves tables log' r result) (hold : ∀ e, log'.Has e → log.Has e)
    (hown : ∀ e, log.Has e → e.job = (r.workspaceId, r.jobId) → log'.Has e) :
    Leaves tables log r result := by
  refine ⟨h.located, fun e he => ?_, fun e he => ?_, fun e he => ?_⟩
  · rcases h.newest e he with hbefore | hnew
    · exact Or.inl (hold e hbefore)
    · exact Or.inr hnew
  · obtain ⟨hhas, hjob, hstatus, hended⟩ := h.appended e he
    refine ⟨hhas, hjob, hstatus, fun last hlast hsame => ?_⟩
    exact hended last (hown last hlast (hsame.trans hjob)) hsame
  · obtain ⟨last, hlast, hrest⟩ := h.coalesced e he
    exact ⟨last, hold last hlast, hrest⟩

theorem extend_leaves (hlog : log.Located) (halone : log.Alone a.key (r.workspaceId, r.jobId))
    (hstored : log.events.get a.key = some events) (hprevious : events.getLast? = some previous)
    (hstatus : JobStatus.ofText r.status = some a.status) (hdata : a.data = r.sanitized tables) :
    Leaves tables log r (log.extend tables r a events previous) := by
  have hnewest : (log.view a.key).newest = some previous := by
    show (log.events.get a.key).bind List.getLast? = some previous
    rw [hstored]
    exact hprevious
  unfold JobLog.extend
  dsimp only
  split
  · exact unchanged_leaves hlog (Or.inl ⟨_, rfl⟩)
  · rename_i hgoes
    generalize hmerged : (if isRecheck a.data = true then
      { a with data := Json.merge (previous.data.getD []) a.data }
      else a) = b
    have hsame : b.key = a.key ∧ b.status = a.status := by
      rw [← hmerged]
      split <;> exact ⟨rfl, rfl⟩
    obtain ⟨hkey, hbstatus⟩ := hsame
    split
    · rename_i hprogress
      exact coalesce_leaves hlog (hkey ▸ hstored) hprevious hprogress.2.1
    · split
      · exact unchanged_leaves hlog (Or.inl ⟨_, rfl⟩)
      · split
        · exact unchanged_leaves hlog (Or.inl ⟨_, rfl⟩)
        · refine record_leaves hlog (hkey ▸ halone) (hbstatus ▸ hstatus) fun last hlast hjob hended => ?_
          -- the job that has ended is the one under the key
          obtain ⟨k, hk⟩ := hlast
          have hwhere := halone k last hk hjob
          rw [hwhere, hnewest] at hk
          cases hk
          by_contra hno
          refine hgoes ⟨hended, fun hrecheck => hno ⟨hdata ▸ hrecheck.1, ?_⟩⟩
          rw [hbstatus]
          exact hrecheck.2

theorem admit_leaves (hlog : log.Located) (halone : log.Alone a.key (r.workspaceId, r.jobId))
    (hown : ∀ e, log.Has e → e.job = (r.workspaceId, r.jobId) →
      (log.view a.key).newest = some e)
    (hstatus : JobStatus.ofText r.status = some a.status) (hdata : a.data = r.sanitized tables) :
    Leaves tables log r (log.settle tables r a) := by
  have hempty (hnone : (log.view a.key).newest = none) (e : JobEvent) (he : log.Has e)
      (hjob : e.job = (r.workspaceId, r.jobId)) : False := by
    have hk := hown e he hjob
    rw [hnone] at hk
    cases hk
  unfold JobLog.settle
  split
  · rename_i hfree
    have hnone : (log.view a.key).newest = none := by
      show (log.events.get a.key).bind List.getLast? = none
      rw [hfree]
      rfl
    unfold JobLog.evictTerminalJobIfNeeded
    by_cases hroom : log.events.keys.length < log.maxJobs
    · rw [if_pos hroom]
      exact record_leaves hlog halone hstatus fun last hlast hjob => (hempty hnone last hlast hjob).elim
    · rw [if_neg hroom]
      cases hfind : log.events.keys.find? (fun key => key ∈ log.terminalJobs) with
      | none => exact unchanged_leaves hlog (Or.inl ⟨_, rfl⟩)
      | some old =>
        -- the job that makes room is another one
        have hsub (k : String) (last : JobEvent) (hk : ((log.drop old).view k).newest = some last) :
            (log.view k).newest = some last := by
          rw [view_drop] at hk
          split at hk
          · cases hk
          · exact hk
        have hdropped : (log.drop old).Located := hlog.mono rfl hsub
        have hleaves : Leaves tables (log.drop old) r ((log.drop old).record tables r a []) := by
          refine record_leaves hdropped (fun k last hk => halone k last (hsub k last hk)) hstatus
            fun last hlast hjob => ?_
          obtain ⟨k, hk⟩ := hlast
          exact (hempty hnone last ⟨k, hsub k last hk⟩ hjob).elim
        exact hleaves.of_older (fun e ⟨k, hk⟩ => ⟨k, hsub k e hk⟩)
          fun e he hjob => (hempty hnone e he hjob).elim
  · rename_i events hstored
    split
    · rename_i hlast
      have hnone : (log.view a.key).newest = none := by
        show (log.events.get a.key).bind List.getLast? = none
        rw [hstored]
        exact hlast
      exact record_leaves hlog halone hstatus fun last hlast hjob => (hempty hnone last hlast hjob).elim
    · rename_i previous hprevious
      exact extend_leaves hlog halone hstored hprevious hstatus hdata

theorem append_leaves (tables : TextTables) (hlog : log.Located) (r : JobRequest) :
    Leaves tables log r (log.append tables r) := by
  have hleads := storageKey_leads hlog r.workspaceId r.jobId
  unfold JobLog.append
  split
  · exact unchanged_leaves hlog (Or.inl ⟨_, rfl⟩)
  · rename_i timestamp
    generalize log.storageKey r.workspaceId r.jobId = s at hleads
    obtain ⟨key, log'⟩ := s
    dsimp only at hleads ⊢
    have holder {result : Except JobError JobAnswer × JobLog} (h : Leaves tables log' r result) :
        Leaves tables log r result :=
      h.of_older hleads.old fun e he hjob => ⟨key, hleads.own e he hjob⟩
    split
    · exact holder (unchanged_leaves hleads.located (Or.inr ⟨_, rfl⟩))
    · split
      · exact holder (unchanged_leaves hleads.located (Or.inl ⟨_, rfl⟩))
      · rename_i status hstatus
        refine holder (admit_leaves hleads.located hleads.alone (fun e he hjob => ?_) hstatus rfl)
        -- the job is where it was, under the key
        have hbefore := hleads.old e he
        exact hleads.own e hbefore hjob

theorem Leaves.ended {result : Except JobError JobAnswer × JobLog} (hlog : log.Located)
    (h : Leaves tables log r result) {e e' : JobEvent} (he : log.Has e)
    (hended : e.status.terminal = true) (he' : result.2.Has e') (hjob : e'.job = e.job) :
    (∀ event, result.1 = .ok (.appended event) → event.job ≠ e.job) ∧ e' = e ∨
      result.1 = .ok (.appended e') ∧ JobStatus.ofText r.status = some e'.status ∧
        isRecheck (r.sanitized tables) = true ∧ e'.status = .completed := by
  by_cases happended : ∃ event, result.1 = .ok (.appended event) ∧ event.job = e.job
  · obtain ⟨event, hanswer, hsame⟩ := happended
    obtain ⟨hhas, -, hstatus, hrecheck⟩ := h.appended event hanswer
    have heq : e' = event := h.located.unique he' hhas (hjob.trans hsame.symm)
    subst heq
    exact Or.inr ⟨hanswer, hstatus, hrecheck e he hsame.symm hended⟩
  · refine Or.inl ⟨fun event hanswer hsame => happended ⟨event, hanswer, hsame⟩, ?_⟩
    rcases h.newest e' he' with hbefore | hanswer | hanswer
    · exact hlog.unique hbefore he hjob
    · exact absurd ⟨e', hanswer, hjob⟩ happended
    · obtain ⟨last, hlast, hprogress, hsame⟩ := h.coalesced e' hanswer
      rw [← hlog.unique he hlast (hjob.symm.trans hsame)] at hprogress
      rw [hprogress] at hended
      cases hended

/-! ## A recheck is taken -/

theorem recheck_appended (hlog : log.Located) {latest : JobEvent} (hlatest : log.Has latest)
    (hjob : latest.job = (r.workspaceId, r.jobId)) (htime : r.timestamp.isSome = true) (hkey : r.projectionKey = none)
    (hstatus : r.status = "completed") (hrecheck : isRecheck (r.sanitized tables) = true)
    (hidentity : r.identity = latest.toJobIdentity) :
    ∃ event, (log.append tables r).1 = .ok (.appended event) := by
  have hleads := storageKey_leads hlog r.workspaceId r.jobId
  unfold JobLog.append
  split
  · rename_i hnone
    rw [hnone] at htime
    cases htime
  · generalize log.storageKey r.workspaceId r.jobId = s at hleads
    obtain ⟨key, log'⟩ := s
    have hcompleted : JobStatus.ofText r.status = some .completed := by
      rw [hstatus]
      decide
    obtain ⟨events, hstored, hlast⟩ :=
      Option.bind_eq_some_iff.mp (hleads.own latest hlatest hjob)
    have hstored' : log'.events.get key = some events := hstored
    dsimp only
    rw [hkey, hcompleted]
    show ∃ event, (log'.settle tables r _).1 = _
    unfold JobLog.settle
    dsimp only
    rw [hstored']
    dsimp only
    rw [hlast]
    dsimp only
    unfold JobLog.extend
    dsimp only
    rw [hrecheck, if_neg (by simp), if_pos rfl]
    dsimp only
    rw [if_neg (by simp), if_neg (by simp), if_neg (by rw [hidentity]; simp)]
    exact ⟨_, rfl⟩

end Logs

theorem new_located (maxJobs maxEventsPerJob : ℤ) (presentation : Option PresentationLog) :
    (JobLog.new maxJobs maxEventsPerJob presentation).Located := by
  refine ⟨?_, fun e ⟨k, hk⟩ => ?_, fun k k' last last' hk => ?_⟩
  · show 2 ≤ (max 2 maxEventsPerJob).toNat
    omega
  · cases hk
  · cases hk

end Events
