import Yuizaki.Events.Newest
import Yuizaki.Tool.Call

/- Rechecks of a job (`ToolExecutor.recheck` in `modules/agent/tool_executor.py`).

   A recheck reads the newest event of its job, asks the probe of the tool, and appends what
   the probe found to the job; other events may come between the two. Whatever the probe
   found, the event is appended as a completed one. `recheck_honest` says what follows: a
   job that ended otherwise is shown as completed exactly after the first recheck of it that
   the log takes, so it is shown honestly exactly where the probe of that one verified the
   effect. -/
namespace Tool

open Events Transition

/-! ## The two ends of a recheck -/

/-- What a recheck meets besides the log: the tools, and how Python shows a value. -/
structure RecheckWorld where
  tables : TextTables
  registry : String → Option ToolDefinition
  str : Json → String
  parametersSummary : Json → Json

/-- `str(value or "")`. -/
def RecheckWorld.text (world : RecheckWorld) : Json → String
  | .str s => s
  | value => if value.truthy then world.str value else ""

/-- `normalize_verification_status` of a text. -/
def normalizeVerificationStatus (tables : TextTables) (value : String) (default : VerificationStatus) :
    VerificationStatus :=
  let marker := PyStr.replaceChar ' ' '_' (PyStr.replaceChar '-' '_'
    (PyStr.lower tables.lower (PyStr.strip value)))
  if marker ∈ ["verified", "passed", "success", "succeeded", "ok"] then .verified
  else if marker ∈ ["error", "failed", "failure", "timeout", "timed_out"] then .error
  else if marker ∈ ["cancelled", "canceled", "interrupted"] then .cancelled
  else default

/-- The arguments of `recheck`, with the workspace its context names. -/
structure RecheckCall where
  toolName : String
  args : List (String × Json)
  requestId : String
  runId : Option String
  jobId : Option String
  workspaceId : String

structure Probe where
  jobId : String
  workspaceId : String
  tool : String
  args : List (String × Json)
  effectOutcome : String
deriving DecidableEq

def recheckableTerminal (status : JobStatus) (effectOutcome : String) : Bool :=
  status = .completed ∨ status.terminal = true ∧ effectOutcome = "unknown_effect"

/-- `recheck` up to the probe: what runs, or why nothing does. -/
def RecheckWorld.recheck (world : RecheckWorld) (log : JobLog) (call : RecheckCall) :
    Except String Probe :=
  match nonEmpty call.jobId with
  | none => .error "job_not_available"
  | some jobId =>
    match log.latest jobId (some call.workspaceId) with
    | none => .error "job_not_found"
    | some latest =>
      let data := latest.data.getD []
      let originalTool := world.text ((data.lookup "toolName").getD .null)
      let effectOutcome := world.text ((data.lookup "effectOutcome").getD .null)
      match data.lookup "args" with
      | some (.obj args) =>
        if recheckableTerminal latest.status effectOutcome = false ∨
            data.lookup "recheckAvailable" ≠ some (.bool true) ∨ originalTool ≠ call.toolName ∨
            Json.same (.obj args) (.obj call.args) = false ∨ latest.requestId ≠ call.requestId ∨
            call.runId.any (fun runId => latest.runId.getD "" ≠ runId) then
          .error "job_identity_mismatch"
        else match world.registry originalTool with
          | none => .error "unknown_tool"
          | some tool =>
            if tool.hasRecheckHandler then
              .ok ⟨jobId, call.workspaceId, originalTool, args, effectOutcome⟩
            else .error "probe_not_available"
      | _ => .error "job_identity_mismatch"

/-- What a probe returns: `True`, a dictionary with a status and the texts of its evidence,
or anything else. -/
inductive ProbeResult where
  | truth
  | report (status : Json) (evidence : List String)
  | other

inductive ProbeAnswer where
  | answered (result : ProbeResult)
  | timedOut
  | raised

def RecheckWorld.status (world : RecheckWorld) : ProbeResult → VerificationStatus
  | .truth => .verified
  | .report status _ =>
    normalizeVerificationStatus world.tables
      (world.text (status.or (.str VerificationStatus.unverified.text))) .unverified
  | .other => .unverified

/-- Whether the probe positively verified the effect. -/
def RecheckWorld.verifies (world : RecheckWorld) : ProbeAnswer → Bool
  | .answered result => world.status result = .verified
  | .timedOut | .raised => false

def ProbeResult.evidence : ProbeResult → List String
  | .report _ evidence => evidence
  | .truth | .other => []

/-- `build_result_verification(…).to_event_data()`. -/
def RecheckWorld.contract (world : RecheckWorld) (probe : Probe) (status : VerificationStatus)
    (evidence : List String) (retryability unknownEffect : Bool) : List (String × Json) :=
  [("verificationTarget", .str probe.tool),
    ("verificationParameters", world.parametersSummary (.obj probe.args)),
    ("verificationStatus", .str status.text),
    ("verificationEvidence", .arr (evidence.map Json.str)),
    ("verificationRetryable", .bool (!unknownEffect && retryability)),
    ("unknownEffect", .bool unknownEffect)]

/-- The payload of a probe that gave no result. -/
def RecheckWorld.failedPayload (world : RecheckWorld) (probe : Probe) (durationMs : ℤ)
    (reason : String) : List (String × Json) :=
  Json.merge [("verificationStatus", .str VerificationStatus.error.text), ("recheck", .bool true),
    ("recheckAvailable", .bool true), ("durationMs", .int durationMs),
    ("recheckError", .str reason)] (world.contract probe .error [] true false)

def RecheckWorld.payload (world : RecheckWorld) (probe : Probe) (durationMs : ℤ) :
    ProbeAnswer → List (String × Json)
  | .answered result =>
    let status := world.status result
    let outcome := if status = .verified then "known_success"
      else if probe.effectOutcome = "" then "verification_pending" else probe.effectOutcome
    Json.merge [("verificationStatus", .str status.text),
      ("verificationEvidence", .arr (result.evidence.map Json.str)), ("recheck", .bool true),
      ("recheckAvailable", .bool true), ("durationMs", .int durationMs),
      ("effectOutcome", .str outcome)]
      (world.contract probe status result.evidence (status = .unverified ∨ status = .error)
        (probe.effectOutcome = "unknown_effect" ∧ status ≠ .verified))
  | .timedOut => world.failedPayload probe durationMs "status_probe_timeout"
  | .raised => world.failedPayload probe durationMs "status_probe_failed"

def RecheckWorld.data (world : RecheckWorld) (probe : Probe) (durationMs : ℤ)
    (answer : ProbeAnswer) : List (String × Json) :=
  Json.merge [("toolName", .str probe.tool), ("progress", .num 1)]
    (world.payload probe durationMs answer)

/-- `recheck` after the probe: what it found is appended to its job. -/
def RecheckWorld.finish (world : RecheckWorld) (log : JobLog) (probe : Probe)
    (answer : ProbeAnswer) (durationMs : ℤ) (timestamp : ℚ) :
    Except JobError JobAnswer × JobLog :=
  log.appendRecheck world.tables probe.jobId probe.workspaceId (some timestamp)
    (world.data probe durationMs answer)

/-! ## Runs -/

/-- The log, and the rechecks whose probe runs. -/
structure RecheckState where
  log : JobLog
  probes : List Probe

/-- What is done: a job event is appended, a recheck begins, ends, or is cancelled. -/
inductive RecheckLabel where
  | event (r : JobRequest) (answer : Except JobError JobAnswer)
  | begin (call : RecheckCall) (probe : Probe)
  | finish (probe : Probe) (answer : ProbeAnswer) (written : Except JobError JobAnswer)
  | cancel (probe : Probe)

/-- One step; a job event is no recheck. -/
inductive RecheckStep (world : RecheckWorld) (s : RecheckState) :
    RecheckLabel → RecheckState → Prop
  | event (r : JobRequest) (h : isRecheck (r.sanitized world.tables) = false) :
      RecheckStep world s (.event r (s.log.append world.tables r).1)
        { s with log := (s.log.append world.tables r).2 }
  | begin (call : RecheckCall) (probe : Probe) (h : world.recheck s.log call = .ok probe) :
      RecheckStep world s (.begin call probe) { s with probes := probe :: s.probes }
  | finish (probe : Probe) (answer : ProbeAnswer) (durationMs : ℤ) (timestamp : ℚ)
      (h : probe ∈ s.probes) :
      RecheckStep world s
        (.finish probe answer (world.finish s.log probe answer durationMs timestamp).1)
        ⟨(world.finish s.log probe answer durationMs timestamp).2, s.probes.erase probe⟩
  | cancel (probe : Probe) (h : probe ∈ s.probes) :
      RecheckStep world s (.cancel probe) { s with probes := s.probes.erase probe }

def RecheckState.shown (s : RecheckState) (job : String × String) : Option JobEvent :=
  s.log.latest job.2 (some job.1)

/-- A step after which the job is still in the log. -/
def KeepingStep (world : RecheckWorld) (job : String × String) (s : RecheckState)
    (l : RecheckLabel) (s' : RecheckState) : Prop :=
  RecheckStep world s l s' ∧ s'.shown job ≠ none

def RecheckLabel.Rechecks (job : String × String) : RecheckLabel → Prop
  | .finish probe _ _ => (probe.workspaceId, probe.jobId) = job
  | .event .. | .begin .. | .cancel .. => False

/-- One whose probe verified the effect. -/
def RecheckLabel.Verifies (world : RecheckWorld) (job : String × String) : RecheckLabel → Prop
  | .finish probe answer _ =>
    (probe.workspaceId, probe.jobId) = job ∧ world.verifies answer = true
  | .event .. | .begin .. | .cancel .. => False

/-! ## The event of a recheck -/

section Data

variable {world : RecheckWorld} {probe : Probe} {durationMs : ℤ} {answer : ProbeAnswer}

/-- The names the data of a recheck uses. -/
def recheckNames : List String :=
  ["toolName", "progress", "verificationStatus", "verificationEvidence", "recheck",
    "recheckAvailable", "durationMs", "effectOutcome", "recheckError", "verificationTarget",
    "verificationParameters", "verificationRetryable", "unknownEffect"]

theorem nodup_data : ((world.data probe durationMs answer).map Prod.fst).Nodup :=
  Json.nodup_merge (by simp) _

theorem names_data : ∀ k ∈ (world.data probe durationMs answer).map Prod.fst, k ∈ recheckNames := by
  have hcontract (status : VerificationStatus) (evidence : List String) (retry unknown : Bool) :
      ∀ k ∈ (world.contract probe status evidence retry unknown).map Prod.fst, k ∈ recheckNames := by
    simp [RecheckWorld.contract, recheckNames]
  have hfailed (reason : String) :
      ∀ k ∈ (world.failedPayload probe durationMs reason).map Prod.fst, k ∈ recheckNames :=
    Json.names_merge (by simp [recheckNames]) (hcontract _ _ _ _)
  have hpayload : ∀ k ∈ (world.payload probe durationMs answer).map Prod.fst, k ∈ recheckNames := by
    cases answer with
    | answered result => exact Json.names_merge (by simp [recheckNames]) (hcontract _ _ _ _)
    | timedOut => exact hfailed _
    | raised => exact hfailed _
  exact Json.names_merge (by simp [recheckNames]) hpayload

theorem data_isRecheck (r : JobRequest)
    (hdata : r.data = some (Json.setEntry (world.data probe durationMs answer) "recheck"
      (.bool true))) : isRecheck (r.sanitized world.tables) = true := by
  generalize hentries : Json.setEntry (world.data probe durationMs answer) "recheck"
    (.bool true) = entries at hdata
  have hnodup : (entries.map Prod.fst).Nodup := by
    rw [← hentries]
    exact Json.nodup_setEntry nodup_data _ _
  have hnames : ∀ k ∈ entries.map Prod.fst, k ∈ recheckNames := by
    intro k hk
    rw [← hentries] at hk
    rcases (Json.mem_keys_setEntry _ _ _ _).mp hk with heq | hold
    · rw [heq]
      decide
    · exact names_data k hold
  have hfew : entries.length ≤ jobDataMaxItems := by
    have hle := (List.subperm_of_subset hnodup hnames).length_le
    rw [List.length_map] at hle
    exact Nat.le_trans hle (by decide)
  have hshort : ∀ e ∈ entries, e.1.length ≤ jobDataMaxKey := by
    have hbound : ∀ k ∈ recheckNames, k.length ≤ jobDataMaxKey := by decide
    exact fun e he => hbound e.1 (hnames e.1 (List.mem_map_of_mem he))
  have hlookup : entries.lookup "recheck" = some (.bool true) := by
    rw [← hentries, Json.lookup_setEntry, if_pos rfl]
  have hplain : Events.isSecretKey world.tables "recheck" = false := by
    have hlower : PyStr.lower world.tables.lower "recheck" = PyStr.lowerAscii "recheck" :=
      if_pos (by decide)
    rw [Events.isSecretKey, hlower]
    decide +kernel
  have hkept : (sanitizeEntries world.tables 1 jobDataMaxItems [] entries).lookup "recheck" =
      some (.bool true) := by
    rw [lookup_sanitizeEntries _ _ _ hfew hshort hnodup, hlookup, Option.map_some, sanitizeEntry,
      hplain]
    rfl
  rw [JobRequest.sanitized, hdata, Option.getD_some, sanitizeJobData_obj _ hfew]
  exact decide_eq_true hkept

end Data

/-! ## What a step does to a job that has ended -/

section Steps

variable {world : RecheckWorld} {s s' : RecheckState} {l : RecheckLabel} {job : String × String}
  {e e' : JobEvent}

theorem finish_leaves (world : RecheckWorld) (hlog : s.log.Located) (probe : Probe) (answer : ProbeAnswer)
    (durationMs : ℤ) (timestamp : ℚ) :
    (∃ error, world.finish s.log probe answer durationMs timestamp = (.error error, s.log)) ∨
      ∃ r, (r.workspaceId, r.jobId) = (probe.workspaceId, probe.jobId) ∧
        Leaves world.tables s.log r (world.finish s.log probe answer durationMs timestamp) := by
  rw [RecheckWorld.finish, JobLog.appendRecheck]
  cases hlatest : s.log.latest probe.jobId (some probe.workspaceId) with
  | none => exact Or.inl ⟨_, rfl⟩
  | some latest =>
    obtain ⟨-, hjob⟩ := (latest_iff hlog).mp hlatest
    refine Or.inr ⟨_, ?_, append_leaves _ hlog _⟩
    show (latest.workspaceId, probe.jobId) = (probe.workspaceId, probe.jobId)
    rw [(Prod.mk.inj hjob).1]

theorem finish_appended (world : RecheckWorld) (hlog : s.log.Located) (probe : Probe) (answer : ProbeAnswer)
    (durationMs : ℤ) (timestamp : ℚ)
    (hshown : s.shown (probe.workspaceId, probe.jobId) = some e) :
    ∃ event, (world.finish s.log probe answer durationMs timestamp).1 =
      .ok (.appended event) := by
  have hlatest : s.log.latest probe.jobId (some probe.workspaceId) = some e := hshown
  obtain ⟨hhas, hjob⟩ := (latest_iff hlog).mp hlatest
  obtain ⟨hkept, hstep, hepoch⟩ := hlog.normal e hhas
  obtain ⟨hworkspace, hid⟩ := Prod.mk.inj hjob
  rw [RecheckWorld.finish, JobLog.appendRecheck, hlatest]
  refine recheck_appended hlog hhas ?_ rfl rfl rfl (data_isRecheck _ rfl) ?_
  · rw [hjob, hworkspace]
  · -- the request brings the identity of the newest event
    show ({ e.toJobIdentity with
      stepIndex := e.stepIndex.map (max 0)
      interruptionEpoch := max 0 e.interruptionEpoch } : JobIdentity) = e.toJobIdentity
    rw [hstep, hepoch]

theorem step_located (hlog : s.log.Located) (hstep : RecheckStep world s l s') :
    s'.log.Located := by
  cases hstep with
  | event r h => exact (append_leaves _ hlog r).located
  | begin call probe h => exact hlog
  | finish probe answer durationMs timestamp h =>
    rcases finish_leaves world hlog probe answer durationMs timestamp with
      ⟨error, herror⟩ | ⟨r, -, hleaves⟩
    · show (world.finish s.log probe answer durationMs timestamp).2.Located
      rw [herror]
      exact hlog
    · exact hleaves.located
  | cancel probe h => exact hlog

theorem step_ended (hlog : s.log.Located) (hstep : RecheckStep world s l s')
    (he : s.shown job = some e) (hended : e.status.terminal = true)
    (he' : s'.shown job = some e') :
    ¬ l.Rechecks job ∧ e' = e ∨ l.Rechecks job ∧ e'.status = .completed := by
  have hlog' := step_located hlog hstep
  obtain ⟨hhas, hjob⟩ := (latest_iff hlog).mp he
  obtain ⟨hhas', hjob'⟩ := (latest_iff hlog').mp he'
  have hsame : e'.job = e.job := hjob'.trans hjob.symm
  cases hstep with
  | event r h =>
    rcases (append_leaves world.tables hlog r).ended hlog hhas hended hhas' hsame with
      ⟨-, heq⟩ | ⟨-, -, hrecheck, -⟩
    · exact Or.inl ⟨fun hno => hno, heq⟩
    · rw [h] at hrecheck
      cases hrecheck
  | begin call probe h => exact Or.inl ⟨fun hno => hno, hlog.unique hhas' hhas hsame⟩
  | finish probe answer durationMs timestamp h =>
    rcases finish_leaves world hlog probe answer durationMs timestamp with
      ⟨error, herror⟩ | ⟨r, hr, hleaves⟩
    · have hbefore : s.log.Has e' := by
        have hlogs : (world.finish s.log probe answer durationMs timestamp).2 = s.log := by
          rw [herror]
        exact hlogs ▸ hhas'
      refine Or.inl ⟨fun hrechecks => ?_, hlog.unique hbefore hhas hsame⟩
      have hrechecks : (probe.workspaceId, probe.jobId) = job := hrechecks
      obtain ⟨event, hanswer⟩ := finish_appended world hlog probe answer durationMs
        timestamp (hrechecks ▸ he)
      rw [herror] at hanswer
      cases hanswer
    · rcases hleaves.ended hlog hhas hended hhas' hsame with ⟨hother, heq⟩ | ⟨hanswer, -, -, hstatus⟩
      · refine Or.inl ⟨fun hrechecks => ?_, heq⟩
        have hrechecks : (probe.workspaceId, probe.jobId) = job := hrechecks
        obtain ⟨event, hanswer⟩ := finish_appended world hlog probe answer durationMs
          timestamp (hrechecks ▸ he)
        obtain ⟨-, hevent, -⟩ := hleaves.appended event hanswer
        refine hother event hanswer ?_
        rw [hevent, hr, hrechecks, hjob]
      · obtain ⟨-, hevent, -⟩ := hleaves.appended e' hanswer
        refine Or.inr ⟨?_, hstatus⟩
        show (probe.workspaceId, probe.jobId) = job
        rw [← hr, ← hevent, hjob']
  | cancel probe h => exact Or.inl ⟨fun hno => hno, hlog.unique hhas' hhas hsame⟩

end Steps

/-! ## Runs of a job that has ended -/

section Runs

variable {world : RecheckWorld} {s₀ s : RecheckState} {job : String × String} {e : JobEvent}
  {hist : List RecheckLabel}

def RecheckState.Completed (s : RecheckState) (job : String × String) : Prop :=
  ∃ event, s.shown job = some event ∧ event.status = .completed

theorem run_located (hlog : s₀.log.Located) (hrun : Run (KeepingStep world job) s₀ hist s) :
    s.log.Located :=
  hrun.invariant (I := fun s => s.log.Located) hlog fun _ _ _ h hstep => step_located h hstep.1

theorem shown_completed (hlog : s₀.log.Located) (he : s₀.shown job = some e)
    (hended : e.status.terminal = true) (hother : e.status ≠ .completed)
    (hrun : Run (KeepingStep world job) s₀ hist s) :
    ∃ e', s.shown job = some e' ∧ e'.status.terminal = true ∧
      (e'.status = .completed ↔ ∃ l ∈ hist, l.Rechecks job) := by
  induction hrun with
  | start => exact ⟨e, he, hended, iff_of_false hother (fun ⟨l, hl, _⟩ => by cases hl)⟩
  | next hrun hstep ih =>
    rename_i hist s s' l
    obtain ⟨e₁, he₁, hended₁, hiff⟩ := ih
    obtain ⟨hstep, hstays⟩ := hstep
    obtain ⟨e₂, he₂⟩ := Option.ne_none_iff_exists'.mp hstays
    refine ⟨e₂, he₂, ?_⟩
    rcases step_ended (run_located hlog hrun) hstep he₁ hended₁ he₂ with
      ⟨hno, heq⟩ | ⟨hrechecks, hcompleted⟩
    · rw [heq]
      refine ⟨hended₁, hiff.trans ⟨fun ⟨m, hm, hmr⟩ => ⟨m, List.mem_cons_of_mem _ hm, hmr⟩,
        fun ⟨m, hm, hmr⟩ => ?_⟩⟩
      rcases List.mem_cons.mp hm with hl | hm
      · exact absurd (hl ▸ hmr) hno
      · exact ⟨m, hm, hmr⟩
    · rw [hcompleted]
      exact ⟨rfl, iff_of_true rfl ⟨l, List.mem_cons_self, hrechecks⟩⟩

theorem completed_iff (hlog : s₀.log.Located) (he : s₀.shown job = some e)
    (hended : e.status.terminal = true) (hother : e.status ≠ .completed)
    (hrun : Run (KeepingStep world job) s₀ hist s) :
    s.Completed job ↔ ∃ l ∈ hist, l.Rechecks job := by
  obtain ⟨e', he', -, hiff⟩ := shown_completed hlog he hended hother hrun
  rw [← hiff]
  refine ⟨fun ⟨event, hevent, hstatus⟩ => ?_, fun hstatus => ⟨e', he', hstatus⟩⟩
  rw [he'] at hevent
  rw [Option.some.inj hevent]
  exact hstatus

/-- A run shows the job honestly: as completed only after a recheck that verified its effect,
and no other recheck turns it into a completed one. -/
structure HonestRun (world : RecheckWorld) (job : String × String) (s₀ : RecheckState)
    (hist : List RecheckLabel) : Prop where
  shown : ∀ newer older s, hist = newer ++ older → Run (KeepingStep world job) s₀ older s →
    s.Completed job → ∃ l ∈ older, l.Verifies world job
  turned : ∀ newer l older s s', hist = newer ++ l :: older →
    Run (KeepingStep world job) s₀ older s → KeepingStep world job s l s' →
    ¬ s.Completed job → s'.Completed job → l.Verifies world job

/-- The first recheck of the job to end verified its effect. -/
def FirstVerifies (world : RecheckWorld) (job : String × String) (hist : List RecheckLabel) :
    Prop :=
  ∀ newer l older, hist = newer ++ l :: older → l.Rechecks job →
    (∀ m ∈ older, ¬ m.Rechecks job) → l.Verifies world job

theorem oldest_recheck (h : ∃ l ∈ hist, l.Rechecks job) :
    ∃ newer l older, hist = newer ++ l :: older ∧ l.Rechecks job ∧
      ∀ m ∈ older, ¬ m.Rechecks job := by
  induction hist with
  | nil =>
    obtain ⟨l, hl, -⟩ := h
    cases hl
  | cons l rest ih =>
    by_cases hrest : ∃ m ∈ rest, m.Rechecks job
    · obtain ⟨newer, m, older, hsplit, hm, hfirst⟩ := ih hrest
      exact ⟨l :: newer, m, older, by rw [hsplit]; rfl, hm, hfirst⟩
    · obtain ⟨m, hm, hmr⟩ := h
      rcases List.mem_cons.mp hm with hl | hm
      · exact ⟨[], l, rest, rfl, hl ▸ hmr, fun m' hm' hmr' => hrest ⟨m', hm', hmr'⟩⟩
      · exact absurd ⟨m, hm, hmr⟩ hrest

/-- Along every run of events and rechecks that keeps a job which ended otherwise than
completed: the job is shown honestly exactly where the first recheck of it verified its
effect. -/
theorem recheck_honest {maxJobs maxEventsPerJob : ℤ} {presentation : Option PresentationLog}
    {hist₀ : List RecheckLabel}
    (hreached : Run (RecheckStep world)
      ⟨JobLog.new maxJobs maxEventsPerJob presentation, []⟩ hist₀ s₀)
    (he : s₀.shown job = some e) (hended : e.status.terminal = true)
    (hother : e.status ≠ .completed) (hrun : Run (KeepingStep world job) s₀ hist s) :
    HonestRun world job s₀ hist ↔ FirstVerifies world job hist := by
  have hlog : s₀.log.Located :=
    hreached.invariant (I := fun s => s.log.Located)
      (new_located maxJobs maxEventsPerJob presentation) fun _ _ _ h hstep => step_located h hstep
  have hcompleted {older : List RecheckLabel} {mid : RecheckState}
      (hmid : Run (KeepingStep world job) s₀ older mid) :
      mid.Completed job ↔ ∃ l ∈ older, l.Rechecks job := completed_iff hlog he hended hother hmid
  refine ⟨fun honest newer l older hsplit hl hfirst => ?_, fun hverifies => ⟨?_, ?_⟩⟩
  · -- the first recheck turns the job into a completed one
    rw [hsplit] at hrun
    obtain ⟨mid', hmid', -⟩ := Run.split hrun
    obtain ⟨mid, hmid, hstep⟩ := Run.cons_inv hmid'
    refine honest.turned newer l older mid mid' hsplit hmid hstep (fun hc => ?_) ?_
    · obtain ⟨m, hm, hmr⟩ := (hcompleted hmid).mp hc
      exact hfirst m hm hmr
    · exact (hcompleted hmid').mpr ⟨l, List.mem_cons_self, hl⟩
  · intro newer older mid hsplit hmid hc
    obtain ⟨newer', l, older', hsplit', hl, hfirst⟩ := oldest_recheck ((hcompleted hmid).mp hc)
    refine ⟨l, by rw [hsplit']; exact List.mem_append_right _ List.mem_cons_self, ?_⟩
    exact hverifies (newer ++ newer') l older' (by rw [hsplit, hsplit', List.append_assoc]) hl hfirst
  · intro newer l older mid mid' hsplit hmid hstep hno hc
    have hnone (m : RecheckLabel) (hm : m ∈ older) (hmr : m.Rechecks job) : False :=
      hno ((hcompleted hmid).mpr ⟨m, hm, hmr⟩)
    obtain ⟨m, hm, hmr⟩ := (hcompleted (Run.next hmid hstep)).mp hc
    rcases List.mem_cons.mp hm with hml | hm
    · exact hverifies newer l older hsplit (hml ▸ hmr) hnone
    · exact (hnone m hm hmr).elim

end Runs

/-! ## A probe that times out -/

def probeWorld : RecheckWorld where
  tables := asciiTables
  registry := fun _ => some {
    name := "send", source := .plugin, effectKind := .write, hasRecheckHandler := true }
  str := fun _ => ""
  parametersSummary := fun _ => .null

def unknownRequest : JobRequest :=
  { requestOf "workspace-1" "job-1" "failed" with
    data := some [("toolName", .str "send"), ("args", .obj [("to", .str "friend")]),
      ("effectOutcome", .str "unknown_effect"), ("recheckAvailable", .bool true)] }

def unknownLog : JobLog :=
  (((JobLog.new 8 8 none).append asciiTables (requestOf "workspace-1" "job-1" "created")).2.append
    asciiTables unknownRequest).2

def unknownRecheck : RecheckCall where
  toolName := "send"
  args := [("to", .str "friend")]
  requestId := "request-1"
  runId := none
  jobId := some "job-1"
  workspaceId := "workspace-1"

def unknownProbe : Probe :=
  ⟨"job-1", "workspace-1", "send", [("to", .str "friend")], "unknown_effect"⟩

theorem unknown_reached : ∃ hist, Run (RecheckStep probeWorld) ⟨JobLog.new 8 8 none, []⟩ hist
    ⟨unknownLog, []⟩ := by
  have hrun : Run (RecheckStep probeWorld) ⟨JobLog.new 8 8 none, []⟩ []
    ⟨JobLog.new 8 8 none, []⟩ := Run.start
  have hcreated := hrun.next (RecheckStep.event (requestOf "workspace-1" "job-1" "created")
    (by decide +kernel))
  have hfailed := hcreated.next (RecheckStep.event unknownRequest (by decide +kernel))
  exact ⟨_, hfailed⟩

theorem unknown_rechecked (answer : ProbeAnswer)
    (hstays : ((probeWorld.finish unknownLog unknownProbe answer 5 9).2.latest "job-1"
      (some "workspace-1")).isSome = true) :
    Run (KeepingStep probeWorld ("workspace-1", "job-1")) ⟨unknownLog, []⟩
      [.finish unknownProbe answer (probeWorld.finish unknownLog unknownProbe answer 5 9).1,
        .begin unknownRecheck unknownProbe]
      ⟨(probeWorld.finish unknownLog unknownProbe answer 5 9).2, []⟩ := by
  have hbegin : RecheckStep probeWorld ⟨unknownLog, []⟩ (.begin unknownRecheck unknownProbe)
      ⟨unknownLog, [unknownProbe]⟩ := RecheckStep.begin _ _ (by decide +kernel)
  have hfinish : RecheckStep probeWorld ⟨unknownLog, [unknownProbe]⟩
      (.finish unknownProbe answer (probeWorld.finish unknownLog unknownProbe answer 5 9).1)
      ⟨(probeWorld.finish unknownLog unknownProbe answer 5 9).2, []⟩ :=
    RecheckStep.finish unknownProbe answer 5 9 List.mem_cons_self
  have hshown : (RecheckState.mk unknownLog [unknownProbe]).shown ("workspace-1", "job-1") ≠ none := by
    decide +kernel
  refine Run.next (Run.next Run.start ⟨hbegin, hshown⟩) ⟨hfinish, fun hnone => ?_⟩
  have hnone : (probeWorld.finish unknownLog unknownProbe answer 5 9).2.latest "job-1"
    (some "workspace-1") = none := hnone
  rw [hnone] at hstays
  cases hstays

theorem unknown_shown : ∃ e, (RecheckState.mk unknownLog []).shown ("workspace-1", "job-1") = some e ∧
    e.status.terminal = true ∧ e.status ≠ .completed := by
  have hshown : ((RecheckState.mk unknownLog []).shown ("workspace-1", "job-1")).any
      (fun e => e.status.terminal ∧ e.status ≠ .completed) = true := by decide +kernel
  obtain ⟨e, he, hstatus⟩ := (Option.any_eq_true _ _).mp hshown
  exact ⟨e, he, of_decide_eq_true hstatus⟩

/-- A probe that verifies the effect shows the job honestly. -/
theorem recheck_honest_verified :
    HonestRun probeWorld ("workspace-1", "job-1") ⟨unknownLog, []⟩
      [.finish unknownProbe (.answered .truth)
          (probeWorld.finish unknownLog unknownProbe (.answered .truth) 5 9).1,
        .begin unknownRecheck unknownProbe] := by
  obtain ⟨hist₀, hreached⟩ := unknown_reached
  obtain ⟨e, he, hended, hother⟩ := unknown_shown
  refine (recheck_honest hreached he hended hother
    (unknown_rechecked (.answered .truth) (by decide +kernel))).mpr ?_
  intro newer l older hsplit hl _
  have hmem : l ∈ newer ++ l :: older := List.mem_append_right _ List.mem_cons_self
  rw [← hsplit] at hmem
  rcases List.mem_cons.mp hmem with rfl | hmem
  · exact ⟨rfl, by decide⟩
  · rw [List.mem_singleton.mp hmem] at hl
    exact hl.elim

/-- A probe that times out turns a failed call into a completed one. -/
theorem timeout_completes : ¬ ∀ (world : RecheckWorld) (maxJobs maxEventsPerJob : ℤ)
    (presentation : Option PresentationLog) (hist₀ hist : List RecheckLabel) (s₀ s : RecheckState)
    (job : String × String) (e : JobEvent),
    Run (RecheckStep world) ⟨JobLog.new maxJobs maxEventsPerJob presentation, []⟩ hist₀ s₀ →
    s₀.shown job = some e → e.status.terminal = true → e.status ≠ .completed →
    Run (KeepingStep world job) s₀ hist s → HonestRun world job s₀ hist := by
  intro h
  obtain ⟨hist₀, hreached⟩ := unknown_reached
  obtain ⟨e, he, hended, hother⟩ := unknown_shown
  have hrun := unknown_rechecked .timedOut (by decide +kernel)
  have honest := h probeWorld 8 8 none hist₀ _ _ _ _ e hreached he hended hother hrun
  have hcompleted : ((probeWorld.finish unknownLog unknownProbe .timedOut 5 9).2.latest "job-1"
      (some "workspace-1")).any (fun e => e.status = .completed) = true := by decide +kernel
  obtain ⟨e', he', hstatus⟩ := (Option.any_eq_true _ _).mp hcompleted
  obtain ⟨l, hl, hverifies⟩ := honest.shown [] _ _ rfl hrun ⟨e', he', of_decide_eq_true hstatus⟩
  rcases List.mem_cons.mp hl with rfl | hl
  · cases hverifies.2
  · rw [List.mem_singleton.mp hl] at hverifies
    exact hverifies

end Tool
