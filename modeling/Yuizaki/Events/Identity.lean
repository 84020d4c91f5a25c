import Yuizaki.Events.JobBounds

/- The identity of a job, and the jobs beside it.

   An append that differs from the stored events of its job in the session, the turn or
   anything else of the identity is refused, and the log stays what it was: except that a
   progress event that comes within a tenth of a second of another takes its place before
   the identity is looked at. An append leaves the jobs of other workspaces as they were,
   with what is remembered of them, unless it makes room for a new job by dropping one that
   has ended: as long as no append comes to another job's key. -/
namespace Events

open Transition

section Stored

variable {log : JobLog} {tables : TextTables} {r : JobRequest} {key : String} {events : List JobEvent}
  {last : JobEvent}

/-! ## An append under another identity -/

/-- The events stored for a job, and their key. -/
def JobLog.stored (log : JobLog) (workspaceId jobId : String) : Option (String × List JobEvent) :=
  log.events.entries.find? (fun e => isOf jobId (some workspaceId) e.2)

/-- A progress event that comes too soon after the newest event of its job, a progress event. -/
def JobLog.TooSoon (log : JobLog) (key : String) (last : JobEvent) (r : JobRequest) : Prop :=
  JobStatus.ofText r.status = some .progress ∧ last.status = .progress ∧
    ∃ time, r.timestamp = some time ∧
      (log.lastProgressAt.get key).any (fun before => max 0 time - before < 1 / 10) = true

theorem storageKey_stored (hstored : log.stored r.workspaceId r.jobId = some (key, events)) :
    log.storageKey r.workspaceId r.jobId = (key, log) := by
  have hfind : (log.events.entries.filter (fun e => newestJob e.2 = some r.jobId)).find?
      (fun e => newestWorkspace e.2 = some r.workspaceId) = some (key, events) := by
    rw [List.find?_filter, ← hstored]
    refine congrArg (fun p => log.events.entries.find? p) (funext fun e => ?_)
    unfold isOf
    simp
  unfold JobLog.storageKey
  dsimp only
  rw [hfind]

theorem append_stored (hstored : log.stored r.workspaceId r.jobId = some (key, events))
    (hlast : events.getLast? = some last) (hunused : r.projectionKey.bind log.projectionEvents.get = none)
    {time : ℚ} (htime : r.timestamp = some time) {status : JobStatus}
    (hstatus : JobStatus.ofText r.status = some status) :
    log.append tables r = log.extend tables r ⟨key, max 0 time, status, r.sanitized tables⟩ events last := by
  have hget : log.events.get key = some events := Dict.get_eq_some.mpr (List.mem_of_find?_eq_some hstored)
  unfold JobLog.append
  rw [htime]
  dsimp only
  rw [storageKey_stored hstored]
  dsimp only
  rw [hunused, hstatus]
  dsimp only
  unfold JobLog.settle
  rw [hget]
  dsimp only
  rw [hlast]

theorem append_malformed (hstored : log.stored r.workspaceId r.jobId = some (key, events))
    (hunused : r.projectionKey.bind log.projectionEvents.get = none)
    (hbad : r.timestamp = none ∨ JobStatus.ofText r.status = none) :
    ∃ e, log.append tables r = (.error e, log) := by
  unfold JobLog.append
  cases htime : r.timestamp with
  | none => exact ⟨_, rfl⟩
  | some time =>
    have hstatus : JobStatus.ofText r.status = none :=
      hbad.resolve_left (fun hnone => by rw [htime] at hnone; cases hnone)
    dsimp only
    rw [storageKey_stored hstored]
    dsimp only
    rw [hunused, hstatus]
    exact ⟨_, rfl⟩

theorem extend_stranger {a : Admitted} (hdiffers : last.toJobIdentity ≠ r.identity) :
    (∃ e, log.extend tables r a events last = (.error e, log)) ↔
      ¬ (a.status = .progress ∧ last.status = .progress ∧
        (log.lastProgressAt.get a.key).any (fun before => a.timestamp - before < 1 / 10) = true) := by
  unfold JobLog.extend
  dsimp only
  split
  · -- the job has ended: its newest event is no progress event
    rename_i hended
    refine ⟨fun _ hsoon => ?_, fun _ => ⟨_, rfl⟩⟩
    rw [hsoon.2.1] at hended
    cases hended.1
  · -- a recheck keeps the key, the time and the status
    generalize hmerged : (if isRecheck a.data = true then
      { a with data := Json.merge (last.data.getD []) a.data }
      else a) = b
    have hsame : b.key = a.key ∧ b.status = a.status ∧ b.timestamp = a.timestamp := by
      rw [← hmerged]
      split <;> exact ⟨rfl, rfl, rfl⟩
    obtain ⟨hkey, hstatus, htime⟩ := hsame
    rw [hkey, hstatus, htime]
    split
    · rename_i hsoon
      refine ⟨fun herror => ?_, fun hnot => absurd hsoon hnot⟩
      obtain ⟨e, herror⟩ := herror
      cases congrArg Prod.fst herror
    · rename_i hlate
      refine ⟨fun _ => hlate, fun _ => ?_⟩
      split
      · exact ⟨_, rfl⟩
      · exact ⟨_, rfl⟩

/-- An append that claims another identity than the stored job's, under no remembered key, is
refused and changes nothing, exactly where it does not come too soon. -/
theorem append_stranger (hstored : log.stored r.workspaceId r.jobId = some (key, events))
    (hlast : events.getLast? = some last) (hunused : r.projectionKey.bind log.projectionEvents.get = none)
    (hdiffers : last.toJobIdentity ≠ r.identity) :
    (∃ e, log.append tables r = (.error e, log)) ↔ ¬ log.TooSoon key last r := by
  cases htime : r.timestamp with
  | none =>
    refine ⟨fun _ hsoon => ?_, fun _ => append_malformed hstored hunused (Or.inl htime)⟩
    obtain ⟨-, -, time, hsome, -⟩ := hsoon
    rw [htime] at hsome
    cases hsome
  | some time =>
    cases hstatus : JobStatus.ofText r.status with
    | none =>
      refine ⟨fun _ hsoon => ?_, fun _ => append_malformed hstored hunused (Or.inr hstatus)⟩
      rw [hsoon.1] at hstatus
      cases hstatus
    | some status =>
      rw [append_stored hstored hlast hunused htime hstatus, extend_stranger hdiffers]
      refine not_congr ⟨fun hsoon => ⟨?_, hsoon.2.1, time, htime, hsoon.2.2⟩, fun hsoon => ?_⟩
      · exact hstatus.trans (congrArg some hsoon.1)
      · obtain ⟨hprogress, hbefore, time', htime', hany⟩ := hsoon
        rw [hstatus] at hprogress
        rw [htime] at htime'
        obtain rfl := Option.some.inj htime'
        exact ⟨Option.some.inj hprogress, hbefore, hany⟩

end Stored

/-! ## The jobs beside it -/

/-- What is kept under a key is kept under another, and so is what is remembered of it. -/
def JobLog.Undisturbed (log log' : JobLog) (key key' : String) : Prop :=
  log'.view key' = log.view key ∧
    ∀ ks, (log.view key).projected = some ks → ∀ p ∈ ks,
      log'.projectionEvents.get p = log.projectionEvents.get p

/-- A job that has ended, in a log with no room. -/
def JobLog.Droppable (log : JobLog) (key : String) : Prop :=
  (log.view key).ended = true ∧ log.maxJobs ≤ log.events.keys.length

section Beside

variable {jobs limit : ℕ} {h : Histories} {log log' log'' : JobLog} {k k' k'' : String}
  {tables : TextTables} {r : JobRequest} {a : Admitted} {events : List JobEvent} {last other : JobEvent}

theorem Undisturbed.refl (log : JobLog) (k : String) : log.Undisturbed log k k :=
  ⟨rfl, fun _ _ _ _ => rfl⟩

theorem Undisturbed.trans (h : log.Undisturbed log' k k') (h' : log'.Undisturbed log'' k' k'') :
    log.Undisturbed log'' k k'' := by
  refine ⟨h'.1.trans h.1, fun ks hks p hp => ?_⟩
  rw [h'.2 ks (by rw [h.1]; exact hks) p hp, h.2 ks hks p hp]

theorem remember_undisturbed {key : String} {event : JobEvent} {projectionKey : Option String} (hk : k ≠ key)
    (hnew : ∀ p, projectionKey = some p → ∀ ks, (log.view k).projected = some ks → p ∉ ks)
    (hapart : ∀ ks ks', (log.view k).projected = some ks → (log.view key).projected = some ks' →
      ∀ p ∈ ks, p ∉ ks') :
    log.Undisturbed (log.remember key projectionKey event) k k := by
  unfold JobLog.remember
  cases projectionKey with
  | none => exact Undisturbed.refl log k
  | some p =>
    refine ⟨?_, fun ks hks q hq => ?_⟩
    · show (log.rememberProjection key p event).view k = log.view k
      rw [view_rememberProjection, if_neg hk]
    · have hne : q ≠ p := fun heq => hnew p rfl ks hks (heq ▸ hq)
      have hother : q ∉ log.jobKeys key p := by
        unfold JobLog.jobKeys
        intro hmem
        obtain hold | hthis := List.mem_append.mp hmem
        · have hold := List.mem_of_mem_erase hold
          cases hown : log.projectionKeysByJob.get key with
          | none =>
            rw [hown] at hold
            cases hold
          | some ks' =>
            rw [hown] at hold
            exact hapart ks ks' hks hown q hq hold
        · exact hne (List.mem_singleton.mp hthis)
      show (log.rememberProjection key p event).projectionEvents.get q = log.projectionEvents.get q
      unfold JobLog.rememberProjection
      dsimp only
      rw [Dict.get_erase_all, if_neg (fun hmem => hother (List.mem_of_mem_take hmem)),
        Dict.get_set_of_ne hne]

theorem JobLog.Ordered.unused (hlog : log.Ordered jobs limit h)
    (hnew : ∀ p, r.projectionKey = some p → log.projectionEvents.get p = none) (p : String)
    (hp : r.projectionKey = some p) (ks : List String) (hks : (log.view k).projected = some ks) : p ∉ ks := by
  intro hmem
  have hsome := (hlog.projected p).mpr ⟨k, ks, hks, hmem⟩
  rw [hnew p hp] at hsome
  cases hsome

theorem JobLog.Ordered.apart (hlog : log.Ordered jobs limit h) (hk : k ≠ k') (ks ks' : List String)
    (hks : (log.view k).projected = some ks) (hks' : (log.view k').projected = some ks') (p : String)
    (hp : p ∈ ks) : p ∉ ks' :=
  fun hp' => hk (hlog.projectedOnce k k' ks ks' p hks hks' hp hp')

theorem record_undisturbed (hlog : log.Ordered jobs limit h)
    (hnew : ∀ p, r.projectionKey = some p → log.projectionEvents.get p = none) (hk : k ≠ a.key) :
    log.Undisturbed (log.record tables r a events).2 k k := by
  unfold JobLog.record
  dsimp only
  generalize r.event a ((log.nextRevision.get a.key).getD 1) = event
  have hview : (log.store tables a events event).view k = log.view k := by
    rw [view_store, if_neg hk]
  have hown : ((log.store tables a events event).view a.key).projected = (log.view a.key).projected := by
    rw [view_store, if_pos rfl]
  have hstored : log.Undisturbed (log.store tables a events event) k k := ⟨hview, fun _ _ _ _ => rfl⟩
  refine Undisturbed.trans hstored (remember_undisturbed hk ?_ ?_)
  · intro p hp ks hks
    rw [hview] at hks
    exact hlog.unused hnew p hp ks hks
  · intro ks ks' hks hks'
    rw [hview] at hks
    rw [hown] at hks'
    exact hlog.apart hk ks ks' hks hks'

theorem coalesce_undisturbed (hlog : log.Ordered jobs limit h)
    (hnew : ∀ p, r.projectionKey = some p → log.projectionEvents.get p = none) (hk : k ≠ a.key) :
    log.Undisturbed (log.coalesce r a events last).2 k k := by
  unfold JobLog.coalesce
  dsimp only
  generalize hset : ({ log with events := log.events.set a.key (events.dropLast ++ [a.coalesced last]) } : JobLog) =
    log₁
  have hview : log₁.view k = log.view k := by
    rw [← hset]
    unfold JobLog.view
    dsimp only
    rw [Dict.get_set_of_ne hk]
  have hremembered : log₁.projectionEvents = log.projectionEvents := by rw [← hset]
  have hown : (log₁.view a.key).projected = (log.view a.key).projected := by
    rw [← hset]
    rfl
  have hstored : log.Undisturbed log₁ k k := ⟨hview, fun _ _ _ _ => by rw [hremembered]⟩
  refine Undisturbed.trans hstored (remember_undisturbed hk ?_ ?_)
  · intro p hp ks hks
    rw [hview] at hks
    exact hlog.unused hnew p hp ks hks
  · intro ks ks' hks hks'
    rw [hview] at hks
    rw [hown] at hks'
    exact hlog.apart hk ks ks' hks hks'

theorem extend_undisturbed (hlog : log.Ordered jobs limit h)
    (hnew : ∀ p, r.projectionKey = some p → log.projectionEvents.get p = none) (hk : k ≠ a.key) :
    log.Undisturbed (log.extend tables r a events last).2 k k := by
  unfold JobLog.extend
  dsimp only
  split
  · exact Undisturbed.refl log k
  · generalize hmerged : (if isRecheck a.data = true then
      { a with data := Json.merge (last.data.getD []) a.data }
      else a) = b
    have hkey : k ≠ b.key := by
      rw [← hmerged]
      split <;> exact hk
    split
    · exact coalesce_undisturbed hlog hnew hkey
    · split
      · exact Undisturbed.refl log k
      · split
        · exact Undisturbed.refl log k
        · exact record_undisturbed hlog hnew hkey

theorem evict_undisturbed (hlog : log.Ordered jobs limit h) (k : String) {made : Bool}
    (hmade : log.evictTerminalJobIfNeeded = (made, log')) :
    (log.Undisturbed log' k k ∨ log.Droppable k) ∧ log'.Ordered jobs limit h ∧
      ∀ p, log.projectionEvents.get p = none → log'.projectionEvents.get p = none := by
  unfold JobLog.evictTerminalJobIfNeeded at hmade
  split at hmade
  · cases hmade
    exact ⟨Or.inl (Undisturbed.refl log k), hlog, fun _ hp => hp⟩
  · rename_i hfull
    cases hfind : log.events.keys.find? (fun key => key ∈ log.terminalJobs) with
    | none =>
      rw [hfind] at hmade
      cases hmade
      exact ⟨Or.inl (Undisturbed.refl log k), hlog, fun _ hp => hp⟩
    | some old =>
      rw [hfind] at hmade
      cases hmade
      have hended : (log.view old).ended = true := by
        have hfound := List.find?_some hfind
        exact hfound
      have hforgets (p : String) : (log.drop old).projectionEvents.get p =
          if p ∈ (log.projectionKeysByJob.get old).getD [] then none else log.projectionEvents.get p :=
        Dict.get_erase_all _ _
      refine ⟨?_, hlog.drop old, fun p hp => by rw [hforgets, hp, ite_self]⟩
      by_cases hk : k = old
      · rw [hk]
        exact Or.inr ⟨hended, Nat.le_of_not_lt hfull⟩
      · refine Or.inl ⟨by rw [view_drop, if_neg hk], fun ks hks p hp => ?_⟩
        rw [hforgets, if_neg]
        cases hold : log.projectionKeysByJob.get old with
        | none => exact List.not_mem_nil
        | some ks' => exact hlog.apart hk ks ks' hks hold p hp

theorem settle_undisturbed (hlog : log.Ordered jobs limit h)
    (hnew : ∀ p, r.projectionKey = some p → log.projectionEvents.get p = none) (hk : k ≠ a.key) :
    log.Undisturbed (log.settle tables r a).2 k k ∨ log.Droppable k := by
  unfold JobLog.settle
  split
  · cases hevict : log.evictTerminalJobIfNeeded with
    | mk made log₁ =>
      obtain ⟨hroom, hlog₁, hforgets⟩ := evict_undisturbed hlog k hevict
      cases made with
      | false => exact hroom
      | true =>
        refine hroom.imp_left fun hleft => Undisturbed.trans hleft ?_
        exact record_undisturbed hlog₁ (fun p hp => hforgets p (hnew p hp)) hk
  · split
    · exact Or.inl (record_undisturbed hlog hnew hk)
    · exact Or.inl (extend_undisturbed hlog hnew hk)

theorem storageKey_undisturbed (hlog : log.Ordered jobs limit h)
    (hseparate : log.Separate r.workspaceId r.jobId) (hother : (log.view k).newest = some other) :
    ∃ k', log.Undisturbed (log.storageKey r.workspaceId r.jobId).2 k k' := by
  unfold JobLog.storageKey
  dsimp only
  split
  · exact ⟨k, Undisturbed.refl log k⟩
  · rename_i hfind
    obtain ⟨hown, hscoped⟩ := hseparate.resolve_left (new_of_find hfind)
    split
    · exact ⟨k, Undisturbed.refl log k⟩
    · rename_i hfound
      have hcontains : log.contains r.jobId none = true := by
        obtain ⟨e, he⟩ := List.exists_mem_of_ne_nil _ hfound
        obtain ⟨hentry, hjob⟩ := List.mem_filter.mp he
        obtain ⟨last, hlast, hjobId⟩ := Option.map_eq_some_iff.mp (of_decide_eq_true hjob)
        exact contains_iff.mpr ⟨e.1, last, newest_of_entry hentry hlast, hjobId, Or.inl rfl⟩
      split
      · exact ⟨k, Undisturbed.refl log k⟩
      · rename_i direct hdirect
        rw [hdirect] at hown hscoped
        obtain ⟨last, hlast, -⟩ := Option.map_eq_some_iff.mp (of_decide_eq_true hown)
        have hworkspace : newestWorkspace direct = some last.workspaceId := by
          unfold newestWorkspace
          rw [hlast]
          rfl
        rw [hworkspace]
        have hblank : log.view (scopeKey last.workspaceId r.jobId) = JobView.blank :=
          (hlog.view _).blank ((hscoped hcontains).2 last.workspaceId hworkspace)
        have hview (key : String) := view_rescope key r.jobId hblank
        by_cases hk : k = r.jobId
        · refine ⟨scopeKey last.workspaceId r.jobId, ?_, fun _ _ _ _ => rfl⟩
          rw [hview, if_pos rfl, hk]
        · refine ⟨k, ?_, fun _ _ _ _ => rfl⟩
          have hkb : k ≠ scopeKey last.workspaceId r.jobId := by
            intro hkb
            rw [hkb, hblank] at hother
            cases hother
          rw [hview, if_neg hkb, if_neg hk]

theorem storageKey_room (log : JobLog) (r : JobRequest) :
    (log.storageKey r.workspaceId r.jobId).2.maxJobs = log.maxJobs ∧
      (log.storageKey r.workspaceId r.jobId).2.events.keys.length ≤ log.events.keys.length := by
  unfold JobLog.storageKey
  dsimp only
  split
  · exact ⟨rfl, Nat.le_refl _⟩
  · split
    · exact ⟨rfl, Nat.le_refl _⟩
    · split
      · exact ⟨rfl, Nat.le_refl _⟩
      · rename_i direct hdirect
        split
        · have hlength := Dict.length_keys_erase (d := log.events) (by rw [hdirect]; exact Option.some_ne_none _)
          refine ⟨rfl, ?_⟩
          show (log.events.erase r.jobId).keys.length ≤ _
          omega
        · exact ⟨rfl, Dict.length_keys_rename_le⟩

theorem append_undisturbed (hlog : log.Ordered jobs limit h) (hseparate : log.Separate r.workspaceId r.jobId)
    (hother : (log.view k).newest = some other) (hjob : other.job ≠ (r.workspaceId, r.jobId)) :
    (∃ k', log.Undisturbed (log.append tables r).2 k k') ∨ log.Droppable k := by
  obtain ⟨hordered, hevents, -, hfits⟩ := storageKey_spec hlog hseparate
  obtain ⟨k', hmoved⟩ := storageKey_undisturbed hlog hseparate hother
  have hroom := storageKey_room log r
  unfold JobLog.append
  split
  · exact Or.inl ⟨k, Undisturbed.refl log k⟩
  · rename_i time _
    generalize log.storageKey r.workspaceId r.jobId = s at hordered hevents hfits hmoved hroom
    obtain ⟨key, log₁⟩ := s
    dsimp only at hordered hevents hfits hmoved hroom ⊢
    split
    · exact Or.inl ⟨k', hmoved⟩
    · rename_i hunknown
      split
      · exact Or.inl ⟨k', hmoved⟩
      · rename_i status _
        have hnewest : (log₁.view k').newest = some other := by rw [hmoved.1]; exact hother
        have hk : k' ≠ key := fun heq => hjob ((hfits k' other hnewest).mpr heq)
        have hnew : ∀ p, r.projectionKey = some p → log₁.projectionEvents.get p = none := by
          intro p hp
          rw [hp] at hunknown
          exact hunknown
        have hbeside : log₁.Undisturbed (log₁.settle tables r ⟨key, max 0 time, status, r.sanitized tables⟩).2 k' k' ∨
          log₁.Droppable k' := settle_undisturbed hordered hnew hk
        obtain hleft | hdropped := hbeside
        · exact Or.inl ⟨k', Undisturbed.trans hmoved hleft⟩
        · refine Or.inr ⟨?_, ?_⟩
          · rw [← hmoved.1]
            exact hdropped.1
          · have hfull := hdropped.2
            omega

theorem recheck_undisturbed (hlog : log.Ordered jobs limit h) {jobId workspaceId : String}
    {timestamp : Option ℚ} {data : List (String × Json)} (hother : (log.view k).newest = some other)
    (hjob : other.job ≠ (workspaceId, jobId)) :
    (∃ k', log.Undisturbed (log.appendRecheck tables jobId workspaceId timestamp data).2 k k') ∨
      log.Droppable k := by
  unfold JobLog.appendRecheck
  cases hlatest : log.latest jobId (some workspaceId) with
  | none => exact Or.inl ⟨k, Undisturbed.refl log k⟩
  | some latest =>
    obtain ⟨e, hfind, hlast⟩ := Option.bind_eq_some_iff.mp hlatest
    have hof : isOf jobId (some workspaceId) e.2 = true := by
      have hfound := List.find?_some hfind
      exact hfound
    obtain ⟨hid, hworkspace⟩ := (isOf_newest hlast).mp hof
    have hsame : workspaceId = latest.workspaceId :=
      Option.some.inj (hworkspace.resolve_left (Option.some_ne_none _))
    have hstored := contains_iff.mpr
      ⟨e.1, latest, newest_of_entry (List.mem_of_find?_eq_some hfind) hlast, hid, Or.inr rfl⟩
    exact append_undisturbed hlog (Or.inl hstored) hother (hsame ▸ hjob)

end Beside

def JobLabel.job : JobLabel → Option (String × String)
  | .append r _ => some (r.workspaceId, r.jobId)
  | .recheck jobId workspaceId _ => some (workspaceId, jobId)
  | .query => none

theorem step_undisturbed {tables : TextTables} {jobs limit : ℕ} {h : Histories} {log log' : JobLog}
    {l : JobLabel} {k : String} {other : JobEvent} (hlog : log.Ordered jobs limit h)
    (hstep : AdmittedStep tables log l log') (hother : (log.view k).newest = some other)
    (hjob : l.job ≠ some other.job) : (∃ k', log.Undisturbed log' k k') ∨ log.Droppable k := by
  obtain ⟨hadmits, hstep⟩ := hstep
  cases hstep with
  | append r => exact append_undisturbed hlog hadmits hother (fun heq => hjob (congrArg some heq.symm))
  | recheck jobId workspaceId timestamp data =>
    exact recheck_undisturbed hlog hother (fun heq => hjob (congrArg some heq.symm))
  | query => exact Or.inl ⟨k, Undisturbed.refl log k⟩

/-- In every log an append that claims another identity than the stored job's, under no
remembered key, is refused and changes nothing, exactly where it is not a progress event that
comes too soon after one; and along every run in which no append comes to another job's key,
what is stored of each job, its workspace part of it, is what its own events leave, and every step
leaves the jobs that it is not about, but for one that has ended where there is no room. -/
theorem job_identity_kept (tables : TextTables) (maxJobs maxEventsPerJob : ℤ)
    (presentation : Option PresentationLog) :
    (∀ (log : JobLog) (r : JobRequest) key events last,
      log.stored r.workspaceId r.jobId = some (key, events) → events.getLast? = some last →
      r.projectionKey.bind log.projectionEvents.get = none → last.toJobIdentity ≠ r.identity →
      ((∃ e, log.append tables r = (.error e, log)) ↔ ¬ log.TooSoon key last r)) ∧
    ∀ hist log, Run (AdmittedStep tables) (JobLog.new maxJobs maxEventsPerJob presentation) hist log →
      log.Ordered (max 1 maxJobs).toNat (max 2 maxEventsPerJob).toNat (histories hist) ∧
      ∀ l log', AdmittedStep tables log l log' → ∀ key other, (log.view key).newest = some other →
        l.job ≠ some other.job → (∃ key', log.Undisturbed log' key key') ∨ log.Droppable key := by
  have hlimit : 2 ≤ (max 2 maxEventsPerJob).toNat := by omega
  refine ⟨fun log r key events last hstored hlast hunused hdiffers =>
    append_stranger hstored hlast hunused hdiffers, fun hist log hrun => ?_⟩
  have hlog : log.Ordered (max 1 maxJobs).toNat (max 2 maxEventsPerJob).toNat (histories hist) :=
    hrun.history (I := fun hist s => s.Ordered (max 1 maxJobs).toNat
        (max 2 maxEventsPerJob).toNat (histories hist))
      (new_ordered maxJobs maxEventsPerJob presentation)
      (fun _ _ _ _ hs hstep => (step_owed hs hlimit hstep).1)
  exact ⟨hlog, fun l log' hstep key other hother hjob => step_undisturbed hlog hstep hother hjob⟩

def strangerOf (status : String) : JobRequest :=
  { requestOf "workspace-1" "job-1" status with sessionId := "session-2" }

/-- A job is created; another session cannot say that it runs. -/
theorem job_identity_kept_created : ∃ hist log,
    Run (AdmittedStep asciiTables) (JobLog.new 2 2 none) hist log ∧
    log.contains "job-1" (some "workspace-1") = true ∧
    ∃ e, log.append asciiTables (strangerOf "running") = (.error e, log) := by
  have hfirst : (JobLog.new 2 2 none).Separate "workspace-1" "job-1" :=
    Or.inr ⟨rfl, fun hcontains => by cases hcontains⟩
  have hrun : Run (AdmittedStep asciiTables) (JobLog.new 2 2 none) [] (JobLog.new 2 2 none) :=
    Run.start
  have hrun := append_next hrun (requestOf "workspace-1" "job-1" "created") ⟨hfirst, JobStep.append _⟩
  refine ⟨_, _, hrun, by decide +kernel, ?_⟩
  obtain ⟨hrefused, -⟩ := job_identity_kept asciiTables 2 2 none
  have hstored : ((((JobLog.new 2 2 none).append asciiTables
      (requestOf "workspace-1" "job-1" "created")).2.stored "workspace-1" "job-1").map
        (fun e => (e.1, e.2.getLast?.map (fun last => (last.sessionId, last.status))))) =
      some ("job-1", some ("session-1", .created)) := by decide +kernel
  obtain ⟨⟨key, events⟩, hfound, hnewest⟩ := Option.map_eq_some_iff.mp hstored
  obtain ⟨last, hlast, hsame⟩ := Option.map_eq_some_iff.mp (Prod.mk.inj hnewest).2
  obtain ⟨hsession, hstatus⟩ := Prod.mk.inj hsame
  refine (hrefused _ _ key events last hfound hlast (by decide +kernel) (fun heq => ?_)).mpr (fun hsoon => ?_)
  · have hsessions := congrArg JobIdentity.sessionId heq
    rw [hsession] at hsessions
    exact absurd hsessions (by decide)
  · have hprogress := hsoon.2.1
    rw [hstatus] at hprogress
    cases hprogress

/-- A progress event of another session takes the place of the one it comes too soon after. -/
theorem stranger_coalesced : ∃ hist log r key events last,
    Run (JobStep asciiTables) (JobLog.new 8 8 none) hist log ∧
    log.stored r.workspaceId r.jobId = some (key, events) ∧ events.getLast? = some last ∧
    r.projectionKey.bind log.projectionEvents.get = none ∧ last.toJobIdentity ≠ r.identity ∧
    ¬ ∃ e, log.append asciiTables r = (.error e, log) := by
  have hrun : Run (JobStep asciiTables) (JobLog.new 8 8 none) [] (JobLog.new 8 8 none) :=
    Run.start
  have hrun := append_next hrun (requestOf "workspace-1" "job-1" "created") (JobStep.append _)
  have hrun := append_next hrun (requestOf "workspace-1" "job-1" "progress") (JobStep.append _)
  generalize hlog : (((JobLog.new 8 8 none).append asciiTables (requestOf "workspace-1" "job-1" "created")).2.append
    asciiTables (requestOf "workspace-1" "job-1" "progress")).2 = log at hrun
  have hstored : ((log.stored "workspace-1" "job-1").map
      (fun e => e.2.getLast?.map (fun last => last.sessionId))) = some (some "session-1") := by
    rw [← hlog]
    decide +kernel
  have hunused : (strangerOf "progress").projectionKey.bind log.projectionEvents.get = none := by
    rw [← hlog]
    decide +kernel
  have hanswer : ((log.append asciiTables (strangerOf "progress")).1.toOption).isSome = true := by
    rw [← hlog]
    decide +kernel
  obtain ⟨⟨key, events⟩, hfound, hnewest⟩ := Option.map_eq_some_iff.mp hstored
  obtain ⟨last, hlast, hsession⟩ := Option.map_eq_some_iff.mp hnewest
  refine ⟨_, log, strangerOf "progress", key, events, last, hrun, hfound, hlast, hunused, fun heq => ?_, fun herror => ?_⟩
  · have hsessions := congrArg JobIdentity.sessionId heq
    rw [hsession] at hsessions
    exact absurd hsessions (by decide)
  · obtain ⟨e, herror⟩ := herror
    rw [herror] at hanswer
    cases hanswer

end Events
