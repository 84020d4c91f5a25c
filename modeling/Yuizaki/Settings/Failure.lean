import Yuizaki.Settings.Calls

/- Commits of settings that fail.

   A snapshot that was appended is taken away again by removing the last one, which is the same list
   only where there was room for it and where every snapshot reads back as it was written. The
   settings are written back as validation gives them, the record of dynamic changes is not undone, and
   neither is what was assigned of the live configuration. -/
namespace Settings

open Transition

/-! ## Statements -/

/-- Something was tried on a backend: before it, after it, and whether it failed. -/
structure Attempt where
  before : Backend
  after : Backend
  failed : Bool

/-- The backend, and the commits that were tried, newest first. -/
structure Ledger where
  backend : Backend
  log : List Attempt

/-- A commit: what goes wrong in it, the settings, and the updates. -/
structure Commit where
  faults : Faults
  next : Json
  updates : Json

namespace Ledger

variable (world : World) (s : Ledger)

def attempt (l : Commit) : Ledger :=
  let r := s.backend.commit world l.faults l.next l.updates
  ⟨r.2, ⟨s.backend, r.2, r.1.isNone⟩ :: s.log⟩

def Step (s : Ledger) (l : Commit) (s' : Ledger) : Prop := s.attempt world l = s'

def start (backend : Backend) : Ledger := ⟨backend, []⟩

end Ledger

/-- No commit that failed has left a trace. -/
def NoTrace (s : Ledger) : Prop := ∀ a ∈ s.log, a.failed = true → a.after = a.before

/-- Updates that change nothing of a dynamic configuration. -/
def DynamicConfig.quiet (d : DynamicConfig) (updates : List (String × Json)) : Bool :=
  updates.all fun entry => Json.same ((Json.obj d.config).get entry.1) entry.2

/-- Assignments that change nothing, up to one that raises. -/
def quietAssignments (config : RuntimeConfig) : List Assignment → Bool
  | [] => true
  | (_, none) :: _ => true
  | (field, some value) :: rest => decide (config.get field = some value) && quietAssignments config rest

/-- A snapshot can be appended to the stored ones and taken away again. -/
def roomFor (world : World) (stored : List Json) (previous : Json) : Bool :=
  decide (readSnapshots world stored = some stored) && decide (stored.length < maxSettingsSnapshots) &&
    (validatePersistedSettings world (scrubSensitiveSettings previous)).isSome

namespace Backend

variable (world : World) (b : Backend)

/-- The live configuration keeps its values until something raises. -/
def quietConfig (faults : Faults) (previous updates : Json) : Bool :=
  faults.update.isSome || b.config.all fun config =>
    quietAssignments config (upTo faults.apply (runtimeAssignments world config (changedRuntimeUpdates previous updates) true))

/-- A commit leaves no trace if it fails: it fails before anything is written; or its snapshot can be
taken away again, the settings in memory and in the file are what validation gives, they can be
written back, and nothing of the dynamic and of the live configuration has changed by then. -/
def clean (faults : Faults) (updates : Json) : Bool :=
  match validatePersistedSettings world b.settings with
  | none => true
  | some previous =>
    if faults.append = true then (readSnapshots world b.snapshots).isSome
    else roomFor world b.snapshots previous && !faults.discard && decide (b.settings = previous) &&
      (faults.save || (!faults.restore && decide (b.file = some (scrubSensitiveSettings previous)) &&
        b.dynamic.quiet (upTo faults.update (entriesOf updates)) && b.quietConfig world faults previous updates))

end Backend

/-- The commit leaves no trace if it fails. -/
def Ledger.CleanStep (world : World) (s : Ledger) (l : Commit) (s' : Ledger) : Prop :=
  s.Step world l s' ∧ ((s.backend.commit world l.faults l.next l.updates).1 = none →
    s.backend.clean world l.faults l.updates = true)

/-! ## Snapshots -/

section Snapshots

variable {world : World} {stored current : List Json} {snapshot : Json}

theorem newest_of_le {α : Type} {n : ℕ} {items : List α} (h : items.length ≤ n) : newest n items = items := by
  unfold newest
  rw [show items.length - n = 0 by omega, List.drop_zero]

theorem length_newest {α : Type} (n : ℕ) (items : List α) : (newest n items).length = min n items.length := by
  unfold newest
  rw [List.length_drop]
  omega

theorem validateSnapshots_append {a b : List Json} :
    validateSnapshots world (a ++ b) = (validateSnapshots world a).bind fun x => (validateSnapshots world b).map (x ++ ·) := by
  induction a with
  | nil =>
    show validateSnapshots world b = (validateSnapshots world b).map ([] ++ ·)
    simp
  | cons entry rest ih =>
    rw [List.cons_append, validateSnapshots, validateSnapshots, ih]
    cases validatePersistedSettings world entry with
    | none => rfl
    | some value =>
      cases validateSnapshots world rest with
      | none => rfl
      | some values =>
        cases validateSnapshots world b with
        | none => rfl
        | some others => rfl

theorem length_validateSnapshots (h : validateSnapshots world stored = some current) : current.length = stored.length := by
  induction stored generalizing current with
  | nil =>
    obtain rfl := Option.some.inj h
    rfl
  | cons entry rest ih =>
    obtain ⟨value, -, h⟩ := Option.bind_eq_some_iff.mp h
    obtain ⟨values, hvalues, rfl⟩ := Option.map_eq_some_iff.mp h
    rw [List.length_cons, List.length_cons, ih hvalues]

theorem validateSnapshots_of_read (h : readSnapshots world stored = some stored) :
    validateSnapshots world stored = some stored ∧ stored.length ≤ maxSettingsSnapshots := by
  obtain ⟨current, hcurrent, hnewest⟩ := Option.map_eq_some_iff.mp h
  have hlength := length_newest maxSettingsSnapshots current
  have hsame := length_validateSnapshots hcurrent
  rw [hnewest] at hlength
  have hle : current.length ≤ maxSettingsSnapshots := by omega
  rw [newest_of_le hle] at hnewest
  exact ⟨hnewest ▸ hcurrent, by omega⟩

theorem readSnapshots_of_stable (h : ∀ d ∈ stored, validatePersistedSettings world d = some d)
    (hlength : stored.length ≤ maxSettingsSnapshots) : readSnapshots world stored = some stored := by
  have hall : validateSnapshots world stored = some stored := by
    clear hlength
    induction stored with
    | nil => rfl
    | cons d rest ih =>
      obtain ⟨hd, hrest⟩ := List.forall_mem_cons.mp h
      rw [validateSnapshots, hd, ih hrest]
      rfl
  unfold readSnapshots
  rw [hall, Option.map_some, newest_of_le hlength]

theorem appendSnapshot_of_read (h : readSnapshots world stored = some current) :
    appendSnapshot world false snapshot stored =
      (newest maxSettingsSnapshots (current ++ [scrubSensitiveSettings snapshot]), true) := by
  unfold appendSnapshot
  rw [h]
  rfl

theorem pop_append (h : roomFor world stored snapshot = true) :
    popSnapshots world false 1 (appendSnapshot world false snapshot stored).1 = (stored, true) := by
  unfold roomFor at h
  rw [Bool.and_eq_true_iff, Bool.and_eq_true_iff] at h
  obtain ⟨⟨hread, hroom⟩, hback⟩ := h
  have hread := of_decide_eq_true hread
  have hroom := of_decide_eq_true hroom
  obtain ⟨value, hvalue⟩ := Option.isSome_iff_exists.mp hback
  have hall := (validateSnapshots_of_read hread).1
  have hlength : (stored ++ [scrubSensitiveSettings snapshot]).length ≤ maxSettingsSnapshots := by
    rw [List.length_append, List.length_singleton]
    omega
  rw [appendSnapshot_of_read hread, newest_of_le hlength]
  have hafter : readSnapshots world (stored ++ [scrubSensitiveSettings snapshot]) = some (stored ++ [value]) := by
    unfold readSnapshots
    rw [validateSnapshots_append, hall]
    show ((validateSnapshots world [scrubSensitiveSettings snapshot]).map (stored ++ ·)).map _ = _
    rw [validateSnapshots, hvalue]
    show some (newest maxSettingsSnapshots (stored ++ [value])) = _
    rw [newest_of_le (by rw [List.length_append, List.length_singleton] at hlength ⊢; exact hlength)]
  unfold popSnapshots
  rw [hafter]
  have hsteps : ¬ (stored ++ [value]).length < 1 := by
    rw [List.length_append, List.length_singleton]
    omega
  have htake : (stored ++ [value]).take ((stored ++ [value]).length - 1) = stored := by
    rw [List.length_append, List.length_singleton, Nat.add_sub_cancel]
    exact List.take_left
  dsimp only
  rw [if_neg hsteps, if_neg (by decide), htake]

theorem pop_append_full (hread : readSnapshots world stored = some stored) (hfull : stored.length = maxSettingsSnapshots)
    (hback : validatePersistedSettings world (scrubSensitiveSettings snapshot) = some (scrubSensitiveSettings snapshot)) :
    popSnapshots world false 1 (appendSnapshot world false snapshot stored).1 = (stored.tail, true) := by
  have hall := (validateSnapshots_of_read hread).1
  cases stored with
  | nil => exact absurd hfull (by decide)
  | cons oldest rest =>
    have hrest : validateSnapshots world rest = some rest := by
      obtain ⟨value, -, hmap⟩ := Option.bind_eq_some_iff.mp hall
      obtain ⟨values, hvalues, heq⟩ := Option.map_eq_some_iff.mp hmap
      obtain ⟨-, rfl⟩ := List.cons.inj heq
      exact hvalues
    have hnewest : newest maxSettingsSnapshots (oldest :: rest ++ [scrubSensitiveSettings snapshot]) =
        rest ++ [scrubSensitiveSettings snapshot] := by
      unfold newest
      rw [List.length_append, hfull, List.length_singleton, Nat.add_sub_cancel_left]
      rfl
    have hlength : (rest ++ [scrubSensitiveSettings snapshot]).length = maxSettingsSnapshots := by
      rw [List.length_append, List.length_singleton, ← hfull, List.length_cons]
    rw [appendSnapshot_of_read hread, hnewest]
    have hafter : readSnapshots world (rest ++ [scrubSensitiveSettings snapshot]) =
        some (rest ++ [scrubSensitiveSettings snapshot]) := by
      unfold readSnapshots
      rw [validateSnapshots_append, hrest]
      show ((validateSnapshots world [scrubSensitiveSettings snapshot]).map (rest ++ ·)).map _ = _
      rw [validateSnapshots, hback]
      show some (newest maxSettingsSnapshots (rest ++ [scrubSensitiveSettings snapshot])) = _
      rw [newest_of_le (le_of_eq hlength)]
    unfold popSnapshots
    rw [hafter]
    dsimp only
    have hsteps : ¬ maxSettingsSnapshots < 1 := by decide
    have htake : (rest ++ [scrubSensitiveSettings snapshot]).take (maxSettingsSnapshots - 1) = rest := by
      rw [← hlength, List.length_append, List.length_singleton, Nat.add_sub_cancel]
      exact List.take_left
    rw [hlength, if_neg hsteps, if_neg (by decide), htake]
    rfl

end Snapshots

/-! ## Configurations -/

theorem update_quiet {d : DynamicConfig} {updates : List (String × Json)} (h : d.quiet updates = true) :
    d.updateBatch updates = d := by
  induction updates with
  | nil => rfl
  | cons entry rest ih =>
    obtain ⟨hentry, hrest⟩ := Bool.and_eq_true_iff.mp h
    have hupdate : d.update entry = d := if_pos hentry
    show DynamicConfig.updateBatch (d.update entry) rest = d
    rw [hupdate]
    exact ih hrest

theorem assign_quiet {config : RuntimeConfig} {assignments : List Assignment}
    (h : quietAssignments config assignments = true) : (assign assignments config).1 = config := by
  induction assignments with
  | nil => rfl
  | cons a rest ih =>
    obtain ⟨field, value⟩ := a
    cases value with
    | none => rfl
    | some value =>
      obtain ⟨hvalue, hrest⟩ := Bool.and_eq_true_iff.mp h
      show (assign rest (config.set field value)).1 = config
      rw [Dict.set_self (of_decide_eq_true hvalue)]
      exact ih hrest

/-! ## Failed commits -/

section Failure

variable {world : World} {b b' : Backend} {faults : Faults} {next updates : Json}

theorem recover_eq {appended : Backend} {previous : Json} (hsettings : b.settings = previous)
    (hfile : b.file = some (scrubSensitiveSettings previous)) (hrestore : faults.restore = false)
    (hdiscard : faults.discard = false) (hroom : roomFor world b.snapshots previous = true)
    (hsnapshots : appended.snapshots = (appendSnapshot world false previous b.snapshots).1)
    (hdynamic : appended.dynamic = b.dynamic) (hconfig : appended.config = b.config) :
    appended.recover world faults previous b.dynamic.config = b := by
  unfold Backend.recover
  rw [hrestore, if_neg (by decide)]
  show Backend.mk previous (some (scrubSensitiveSettings previous))
    (popSnapshots world faults.discard 1 appended.snapshots).1 ⟨b.dynamic.config, appended.dynamic.changeHistory⟩
      appended.config = b
  rw [hdiscard, hsnapshots, pop_append hroom, hdynamic, hconfig, ← hfile, ← hsettings]

theorem applyRuntime_quiet {previous : Json} (h : b.quietConfig world faults previous updates = true)
    (hupdate : faults.update.isSome = false) :
    (b.applyRuntime world faults.apply (changedRuntimeUpdates previous updates)).1 = b.config := by
  unfold Backend.quietConfig at h
  rw [hupdate, Bool.false_or] at h
  unfold Backend.applyRuntime
  cases hb : b.config with
  | none => rfl
  | some config =>
    rw [hb] at h
    exact congrArg some (assign_quiet h)

theorem commit_clean (h : b.commit world faults next updates = (none, b')) (hclean : b.clean world faults updates = true) :
    b' = b := by
  unfold Backend.clean at hclean
  unfold Backend.commit at h
  cases hprevious : validatePersistedSettings world b.settings with
  | none =>
    rw [hprevious] at h
    exact (Prod.mk.inj h).2.symm
  | some previous =>
    rw [hprevious] at h hclean
    dsimp only at h hclean
    cases happend : faults.append with
    | true =>
      rw [happend, if_pos rfl] at hclean
      obtain ⟨current, hcurrent⟩ := Option.isSome_iff_exists.mp hclean
      have hkept : appendSnapshot world true previous b.snapshots = (b.snapshots, false) := by
        unfold appendSnapshot
        rw [hcurrent]
        rfl
      rw [happend, hkept] at h
      exact (Prod.mk.inj h).2.symm
    | false =>
      rw [happend, if_neg (by decide)] at hclean
      rw [Bool.and_eq_true_iff, Bool.and_eq_true_iff, Bool.and_eq_true_iff, Bool.not_eq_true'] at hclean
      obtain ⟨⟨⟨hroom, hdiscard⟩, hsettings⟩, hrest⟩ := hclean
      have hsettings := of_decide_eq_true hsettings
      have happended : (appendSnapshot world false previous b.snapshots).2 = true := by
        unfold roomFor at hroom
        rw [Bool.and_eq_true_iff, Bool.and_eq_true_iff] at hroom
        rw [appendSnapshot_of_read (of_decide_eq_true hroom.1.1)]
      rw [happend, happended, if_neg (by decide)] at h
      cases hsave : faults.save with
      | true =>
        rw [hsave, if_pos rfl] at h
        obtain rfl := (Prod.mk.inj h).2
        show Backend.mk previous b.file
          (popSnapshots world faults.discard 1 (appendSnapshot world false previous b.snapshots).1).1 b.dynamic b.config = b
        rw [hdiscard, pop_append hroom, ← hsettings]
      | false =>
        rw [hsave, if_neg (by decide)] at h
        rw [hsave, Bool.false_or] at hrest
        rw [Bool.and_eq_true_iff, Bool.and_eq_true_iff, Bool.and_eq_true_iff, Bool.not_eq_true'] at hrest
        obtain ⟨⟨⟨hrestore, hfile⟩, hquiet⟩, hconfig⟩ := hrest
        have hfile := of_decide_eq_true hfile
        have hbatch := update_quiet hquiet
        unfold Backend.applyUpdates at h
        dsimp only at h
        split at h
        · obtain rfl := (Prod.mk.inj h).2
          exact recover_eq hsettings hfile hrestore hdiscard hroom rfl hbatch rfl
        · rename_i hupdate
          split at h
          · cases h
          · obtain rfl := (Prod.mk.inj h).2
            refine recover_eq hsettings hfile hrestore hdiscard hroom rfl hbatch ?_
            exact applyRuntime_quiet hconfig (Bool.eq_false_iff.mpr hupdate)

end Failure

/-- In every run whose commits are clean where they fail, no failed commit leaves a trace. -/
theorem failed_commits_leave_no_trace (world : World) (backend : Backend) (hist : List Commit) (s : Ledger)
    (hrun : Run (Ledger.CleanStep world) (Ledger.start backend) hist s) : NoTrace s := by
  refine hrun.invariant (fun a ha => absurd ha List.not_mem_nil) fun s l s' h hstep => ?_
  obtain ⟨rfl, hclean⟩ := hstep
  intro a ha hfailed
  obtain rfl | ha := List.mem_cons.mp ha
  · have hnone := Option.isNone_iff_eq_none.mp hfailed
    exact commit_clean (Prod.ext hnone rfl) (hclean hnone)
  · exact h a ha hfailed

theorem NoTrace.last {world : World} {s : Ledger} {l : Commit} (h : NoTrace (s.attempt world l))
    (hfailed : (s.backend.commit world l.faults l.next l.updates).1 = none) :
    (s.backend.commit world l.faults l.next l.updates).2 = s.backend :=
  h _ List.mem_cons_self (Option.isNone_iff_eq_none.mpr hfailed)

/-! ## A full list of snapshots -/

namespace Sample

def failing : Commit := ⟨{ save := true }, settings, .obj []⟩

def full : Backend := { backend with snapshots := List.replicate maxSettingsSnapshots settings }

theorem failing_commit (b : Backend) (hsettings : b.settings = settings)
    (hread : readSnapshots plainWorld b.snapshots = some b.snapshots) :
    b.commit plainWorld failing.faults failing.next failing.updates =
      (none, { b with
        settings := settings
        snapshots := (popSnapshots plainWorld false 1 (appendSnapshot plainWorld false settings b.snapshots).1).1 }) := by
  unfold Backend.commit
  rw [hsettings, settings_stable.1]
  dsimp only [failing]
  rw [appendSnapshot_of_read hread]
  rfl

end Sample

/-- A write that fails leaves no trace where there is room for a snapshot. -/
theorem failed_commits_leave_no_trace_once :
    NoTrace ((Ledger.start Sample.backend).attempt plainWorld Sample.failing) := by
  have hstable : validatePersistedSettings plainWorld Sample.backend.settings = some Sample.settings := Sample.settings_stable.1
  have hroom : roomFor plainWorld Sample.backend.snapshots Sample.settings = true := by
    unfold roomFor
    rw [Sample.settings_stable.2, Sample.settings_stable.1]
    rfl
  have hsettings : decide (Sample.backend.settings = Sample.settings) = true := decide_eq_true rfl
  have hclean : Sample.backend.clean plainWorld Sample.failing.faults Sample.failing.updates = true := by
    unfold Backend.clean
    rw [hstable]
    dsimp only
    rw [hroom, hsettings]
    rfl
  exact failed_commits_leave_no_trace plainWorld Sample.backend [Sample.failing] _ (Run.next Run.start ⟨rfl, fun _ => hclean⟩)

/-- Where the list of snapshots is full, a write that fails loses the oldest. -/
theorem failed_commit_loses_snapshot :
    ∃ hist s, Run (Ledger.Step plainWorld) (Ledger.start Sample.full) hist s ∧ ¬ NoTrace s := by
  refine ⟨[Sample.failing], _, Run.next Run.start rfl, fun h => ?_⟩
  obtain ⟨hstable, hscrub⟩ := Sample.settings_stable
  have hread : readSnapshots plainWorld Sample.full.snapshots = some Sample.full.snapshots :=
    readSnapshots_of_stable (fun d hd => by rw [List.eq_of_mem_replicate hd]; exact hstable) (by decide)
  have hcommit := Sample.failing_commit Sample.full rfl hread
  have hpop := pop_append_full hread List.length_replicate (by rw [hscrub]; exact hstable : validatePersistedSettings plainWorld
    (scrubSensitiveSettings Sample.settings) = some (scrubSensitiveSettings Sample.settings))
  have hafter := h.last (congrArg Prod.fst hcommit)
  have hsnapshots : _ = Sample.full.snapshots := congrArg Backend.snapshots ((congrArg Prod.snd hcommit).symm.trans hafter)
  dsimp only at hsnapshots
  rw [hpop] at hsnapshots
  have hlength := congrArg List.length hsnapshots
  exact absurd hlength (by decide)

end Settings
