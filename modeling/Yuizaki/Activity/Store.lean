import Yuizaki.Activity.Frames
import Yuizaki.Lib.Count

/- The store of activity frames and proactive opportunities (`ActivityFrameStore` in
   `modules/agent/activity_frames.py`).

   Every operation is one transaction that takes the writer's lock at its beginning, so it is
   one function of the store and of the time it is given; one that raises leaves the store as
   it was. The rows of a table stand in the order in which they came in. -/
namespace Activity

open Fallible

inductive OpportunityStatus where
  | pending
  | delivered
  | suppressed
  | expired
  | cancelled
  | failed
deriving DecidableEq

/-- A row of `proactive_opportunities`. -/
structure Opportunity where
  requestId : String
  frameId : String
  sourceKind : String
  localDate : String
  status : OpportunityStatus
  createdAt : ℚ
  resolvedAt : Option ℚ
  expiresAt : Option ℚ
deriving DecidableEq

/-- A row of `proactive_feedback`. -/
structure Feedback where
  jobId : String
  requestId : String
  sourceKind : String
  kind : FeedbackKind
  createdAt : ℚ
deriving DecidableEq

/-- A row of `activity_frame_tombstones`. -/
structure Tombstone where
  frameId : String
  reason : String
  deletedAt : ℚ
deriving DecidableEq

/-- A row of `proactive_settings`. -/
structure SettingsRow where
  settings : ProactiveSettings
  revision : ℤ
  updatedAt : ℚ
deriving DecidableEq

/-- `ActivityFrameStore`: frames, tombstones by source, settings by workspace, opportunities by
workspace and job, feedback by workspace and id. -/
structure ActivityFrameStore where
  frames : FrameTable
  tombstones : Dict (String × String × String) Tombstone
  settings : Dict String SettingsRow
  opportunities : Dict (String × String) Opportunity
  feedback : Dict (String × String) Feedback
deriving DecidableEq

/-- The arguments of `reserve_opportunity`; the local date it is also given is not read. -/
structure Reservation where
  workspaceId : String
  jobId : String
  requestId : String
  frameId : String
  sourceKind : String
  interruptible : Bool
  expiresAt : Option ℚ
deriving DecidableEq

/-- The arguments of `resolve_opportunity`. -/
structure Resolution where
  workspaceId : String
  jobId : String
  requestId : String
  sourceKind : String
  outcome : OpportunityStatus
deriving DecidableEq

/-- The arguments of `record_feedback`. -/
structure FeedbackRecord where
  workspaceId : String
  feedbackId : String
  jobId : String
  requestId : String
  sourceKind : String
  kind : FeedbackKind
deriving DecidableEq

/-- `INSERT OR IGNORE`. -/
def insertOrIgnore {κ ρ : Type} [DecidableEq κ] (d : Dict κ ρ) (k : κ) (v : ρ) : Dict κ ρ :=
  if (d.get k).isSome then d else d.set k v

/-- `ORDER BY created_at DESC LIMIT 1`: of rows of one time, the one that came in last. -/
def newestFeedback (rows : List Feedback) : Option Feedback :=
  rows.foldl (fun newest row =>
    match newest with
    | none => some row
    | some best => if best.createdAt ≤ row.createdAt then some row else some best) none

/-- `status IN ('pending', 'delivered')`. -/
def Opportunity.usesBudget (row : Opportunity) : Bool := row.status = .pending || row.status = .delivered

/-- A row that is cancelled where it meets a predicate and is pending. -/
def cancelledIf (now : ℚ) (p : String × String → Opportunity → Bool) (key : String × String) (row : Opportunity) :
    Opportunity :=
  if p key row = true ∧ row.status = .pending then { row with status := .cancelled, resolvedAt := some now }
  else row

/-- What a reservation puts in the row: the local date, the expiry, and whether the row is there. -/
structure Reserved where
  localDate : String
  expiresAt : ℚ
  renews : Bool

namespace ActivityFrameStore

def empty : ActivityFrameStore := ⟨FrameTable.empty, Dict.empty, Dict.empty, Dict.empty, Dict.empty⟩

variable (host : Host) (s : ActivityFrameStore) (now : ℚ)

/-! ## Queries -/

/-- The settings of a workspace: the row, validated again, or the defaults. -/
def settingsOf (workspace : String) : Except ActivityError ProactiveSettings :=
  match s.settings.get workspace with
  | some row => row.settings.validate host
  | none => ProactiveSettings.validate host {}

/-- The category of the frame of an opportunity, as the frames are now. -/
def categoryOf (workspace frameId : String) : String :=
  activityCategory host (((s.frames.find workspace frameId).map ActivityFrame.signals).getD (.obj []))

/-- `_category_usage_locked`, without one job. -/
def categoryUsage (workspace localDate category excludeJobId : String) : ℕ :=
  s.opportunities.count fun key row =>
    key.1 = workspace && row.localDate = localDate && row.usesBudget && key.2 ≠ excludeJobId &&
      s.categoryOf host workspace row.frameId = category

/-- `_category_preference_locked`: feedback counts where its opportunity is found. -/
def categoryPreference (workspace category : String) : ℚ :=
  preferenceScore host now (s.feedback.entries.filterMap fun e =>
    match s.opportunities.get (workspace, e.2.jobId) with
    | none => none
    | some row =>
      if e.1.1 = workspace ∧ now - feedbackLearningWindowSeconds ≤ e.2.createdAt ∧
          row.requestId = e.2.requestId ∧ row.sourceKind = e.2.sourceKind ∧
          s.categoryOf host workspace row.frameId = category then
        some (e.2.kind, e.2.createdAt)
      else none)

/-- `MAX(resolved_at)` of the delivered opportunities of a source. -/
def lastDelivered (workspace kind : String) : Option ℚ :=
  (s.opportunities.entries.filterMap fun e =>
    if e.1.1 = workspace ∧ e.2.sourceKind = kind ∧ e.2.status = .delivered then e.2.resolvedAt else none).max?

def latestFeedback (workspace kind : String) : Option Feedback :=
  newestFeedback ((s.feedback.entries.filter fun e => e.1.1 = workspace && e.2.sourceKind = kind).map Prod.snd)

/-- A source was not delivered within the cooldown. -/
def cooledDown (workspace kind : String) (settings : ProactiveSettings) : Bool :=
  match s.lastDelivered workspace kind with
  | some last => settings.cooldownSeconds ≤ now - last
  | none => true

/-- The latest feedback on a source opens no gate. -/
def feedbackClear (workspace kind : String) (settings : ProactiveSettings) : Bool :=
  match s.latestFeedback workspace kind with
  | some row => !feedbackGate row.kind row.createdAt now settings
  | none => true

/-! ## Frames -/

/-- `UPDATE proactive_opportunities SET status = 'cancelled' … AND status = 'pending'`. -/
def cancelWhere (p : String × String → Opportunity → Bool) : ActivityFrameStore :=
  { s with opportunities := s.opportunities.mapValues (cancelledIf now p) }

/-- `_prune_feedback_locked`. -/
def pruneFeedback (workspace : String) : ActivityFrameStore :=
  { s with
    feedback := s.feedback.filter fun key row =>
      !(key.1 = workspace && row.createdAt < now - feedbackRetentionSeconds) }

/-- One frame of `_prune_expired_locked`: its source is tombstoned, its opportunity cancelled. -/
def pruneFrame (workspace : String) (frame : ActivityFrame) : ActivityFrameStore :=
  { s with
    tombstones := insertOrIgnore s.tombstones (workspace, frame.sourceKind, frame.sourceId)
      ⟨frame.frameId, "retention_expired", now⟩ }.cancelWhere now
    fun key row => key.1 = workspace && row.frameId = frame.frameId

def pruneExpiredLocked (workspace : String) : ActivityFrameStore :=
  let expired := s.frames.rows.filter fun frame => frame.workspaceId = workspace && frame.expiresAt ≤ now
  let s := expired.foldl (fun s frame => s.pruneFrame now workspace frame) s
  { s with
    frames := s.frames.filter fun frame => !(frame.workspaceId = workspace && frame.expiresAt ≤ now)
    }.pruneFeedback now workspace

def pruneExpired (workspaceId : String) : Except ActivityError ActivityFrameStore := do
  let workspace ← boundedId workspaceId "workspaceId"
  pure (s.pruneExpiredLocked now workspace)

def upsertFrame (frame : ActivityFrame) : Except ActivityError (ActivityFrameStore × Bool) :=
  if (s.tombstones.get frame.source).isSome then pure (s, false)
  else do
    let frames ← s.frames.upsert frame
    pure ({ s with frames }, true)

def deleteFrame (workspaceId frameId reason : String) : Except ActivityError (ActivityFrameStore × Bool) := do
  let workspace ← boundedId workspaceId "workspaceId"
  let frame ← boundedId frameId "frameId"
  match s.frames.find workspace frame with
  | none => pure (s, s.tombstones.entries.any fun e => e.1.1 = workspace && e.2.frameId = frame)
  | some row =>
    pure ({ s with
        tombstones := insertOrIgnore s.tombstones (workspace, row.sourceKind, row.sourceId) ⟨frame, reason, now⟩
        frames := s.frames.filter fun f => f.key ≠ (workspace, frame)
      }.cancelWhere now fun key row => key.1 = workspace && row.frameId = frame, true)

def tombstoneSource (workspaceId kind sourceId reason : String) : Except ActivityError ActivityFrameStore := do
  let workspace ← boundedId workspaceId "workspaceId"
  let source ← boundedId sourceId "sourceId"
  require (.value "unknown activity frame source") (kind = sourceKind)
  pure { s with
    tombstones := insertOrIgnore s.tombstones (workspace, kind, source)
      ⟨host.deterministicFrameId kind source, reason, now⟩
    frames := s.frames.filter fun f => f.source ≠ (workspace, kind, source) }

def patchSettings (workspaceId : String) (patch : SettingsPatch) (expectedRevision : ℤ) :
    Except ActivityError ActivityFrameStore := do
  let workspace ← boundedId workspaceId "workspaceId"
  let revision := ((s.settings.get workspace).map SettingsRow.revision).getD 0
  require (.lookup s!"settings revision conflict: expected {expectedRevision}, current {revision}")
    (revision = expectedRevision)
  let current ← s.settingsOf host workspace
  let settings ← (patch.update current).validate host
  let s := { s with
    settings := s.settings.set workspace ⟨settings, revision + 1, now⟩
    frames := s.frames.setExpiry fun frame =>
      if frame.workspaceId = workspace then frame.sourceCreatedAt + settings.retentionDays * 86400
      else frame.expiresAt }
  let s := if authorityBlocked settings (host.localClock now settings.timezone).2 then
      s.cancelWhere now fun key row => key.1 = workspace && row.sourceKind = sourceKind
    else s
  pure (s.pruneExpiredLocked now workspace)

/-! ## Opportunities -/

/-- What `reserve_opportunity` checks, and what it puts in the row. -/
def reservable (workspace : String) (settings : ProactiveSettings) (r : Reservation) : Option Reserved := do
  let existing := s.opportunities.get (workspace, r.jobId)
  let localDate := (host.localClock now settings.timezone).1
  let minute := (host.localClock now settings.timezone).2
  guard (authorityBlocked settings minute = false ∧ r.interruptible = true)
  let frame ← s.frames.rows.find? fun frame =>
    frame.key = (workspace, r.frameId) && frame.sourceKind = r.sourceKind && now < frame.expiresAt
  let category := activityCategory host frame.signals
  guard (contextNotInterruptible host frame.signals = false)
  guard (s.tombstones.get (workspace, r.sourceKind, frame.sourceId) = none)
  let frameExpiry := min frame.expiresAt (frame.sourceCreatedAt + settings.retentionDays * 86400)
  guard (now < frameExpiry)
  guard (s.feedbackClear now workspace r.sourceKind settings = true)
  guard (s.cooledDown now workspace r.sourceKind settings = true)
  let renews := existing.any fun row =>
    row.requestId = r.requestId && row.frameId = r.frameId && row.sourceKind = r.sourceKind &&
      row.status = .pending && row.expiresAt.all fun expiry => now < expiry
  guard (existing = none ∨ renews = true)
  guard (s.opportunities.count (fun key row =>
    key.1 = workspace && row.frameId = r.frameId && key.2 ≠ r.jobId) = 0)
  guard ((s.opportunities.count (fun key row =>
    key.1 = workspace && row.localDate = localDate && row.usesBudget && key.2 ≠ r.jobId) : ℤ) < settings.dailyBudget)
  guard ((s.categoryUsage host workspace localDate category r.jobId : ℤ) < categoryBudget settings category)
  guard (-2 < s.categoryPreference host now workspace category)
  let expiry := min (r.expiresAt.getD frameExpiry) frameExpiry
  guard (now < expiry)
  pure ⟨localDate, expiry, renews⟩

def reserveOpportunity (r : Reservation) : Except ActivityError (ActivityFrameStore × Bool) := do
  let workspace ← boundedId r.workspaceId "workspaceId"
  let settings ← s.settingsOf host workspace
  match s.reservable host now workspace settings r with
  | none => pure (s, false)
  | some reserved =>
    if reserved.renews = true then
      pure ({ s with
        opportunities := s.opportunities.mapValues fun key row =>
          if key = (workspace, r.jobId) ∧ row.status = .pending then
            { row with localDate := reserved.localDate, expiresAt := some reserved.expiresAt }
          else row }, true)
    else
      pure ({ s with
        opportunities := insertOrIgnore s.opportunities (workspace, r.jobId) {
          requestId := r.requestId
          frameId := r.frameId
          sourceKind := r.sourceKind
          localDate := reserved.localDate
          status := .pending
          createdAt := now
          resolvedAt := none
          expiresAt := some reserved.expiresAt } },
        (s.opportunities.get (workspace, r.jobId)).isNone)

/-- What `resolve_opportunity` checks before a delivery; its local date. -/
def deliverable (settings : ProactiveSettings) (r : Resolution) (row : Opportunity) : Option String := do
  let localDate := (host.localClock now settings.timezone).1
  let minute := (host.localClock now settings.timezone).2
  guard (authorityBlocked settings minute = false)
  guard (row.expiresAt.all (fun expiry => now < expiry) = true)
  let frame ← s.frames.rows.find? fun frame =>
    frame.key = (r.workspaceId, row.frameId) && frame.sourceKind = r.sourceKind
  guard (now < min frame.expiresAt (frame.sourceCreatedAt + settings.retentionDays * 86400))
  guard ((s.opportunities.count (fun key row =>
    key.1 = r.workspaceId && row.localDate = localDate && row.status = .delivered) : ℤ) < settings.dailyBudget)
  guard (s.cooledDown now r.workspaceId r.sourceKind settings = true)
  pure localDate

/-- The `UPDATE` of a resolved opportunity. -/
def settle (r : Resolution) (localDate : Option String) : ActivityFrameStore :=
  { s with
    opportunities := s.opportunities.mapValues fun key row =>
      if key = (r.workspaceId, r.jobId) ∧ row.requestId = r.requestId ∧ row.sourceKind = r.sourceKind ∧
          row.status = .pending then
        { row with status := r.outcome, resolvedAt := some now, localDate := localDate.getD row.localDate }
      else row }

def resolveOpportunity (r : Resolution) : Except ActivityError (ActivityFrameStore × Bool) := do
  require (.value "unknown proactive opportunity outcome") (r.outcome ≠ .pending)
  match s.opportunities.get (r.workspaceId, r.jobId) with
  | none => pure (s, false)
  | some row =>
    if row.requestId ≠ r.requestId ∨ row.sourceKind ≠ r.sourceKind then pure (s, false)
    else if row.status = r.outcome then pure (s, true)
    else if row.status ≠ .pending then pure (s, false)
    else if r.outcome = .delivered then do
      let settings ← s.settingsOf host r.workspaceId
      match s.deliverable host now settings r row with
      | none => pure (s, false)
      | some localDate => pure (s.settle now r (some localDate), true)
    else pure (s.settle now r none, true)

def cancelPending (workspaceId kind : String) (frameId : Option String) :
    Except ActivityError ActivityFrameStore := do
  let workspace ← boundedId workspaceId "workspaceId"
  pure (s.cancelWhere now fun key row =>
    key.1 = workspace && row.sourceKind = kind && frameId.all fun id => row.frameId = id)

/-! ## Feedback -/

/-- Feedback of these kinds cancels its opportunity. -/
def fences : FeedbackKind → Bool
  | .notUseful | .tooFrequent | .wrongTime | .ignored | .cancelled | .snoozed => true
  | _ => false

/-- Feedback that fences cancels the opportunity it is about, where that is pending. -/
def fence (workspace : String) (r : FeedbackRecord) : ActivityFrameStore :=
  if fences r.kind then
    s.cancelWhere now fun key row =>
      key = (workspace, r.jobId) && row.requestId = r.requestId && row.sourceKind = r.sourceKind
  else s

/-- `never_source` turns the source off and cancels what it has pending. -/
def disableSource (workspace kind : String) : Except ActivityError ActivityFrameStore := do
  let settings ← s.settingsOf host workspace
  let disabled ← { settings with completedTurnFollowupEnabled := false }.validate host
  let revision := ((s.settings.get workspace).map SettingsRow.revision).getD 0
  pure ({ s with settings := s.settings.set workspace ⟨disabled, revision + 1, now⟩ }.cancelWhere now
    fun key row => key.1 = workspace && row.sourceKind = kind)

/-- `record_feedback`; the answer says whether the feedback is new. -/
def recordFeedback (r : FeedbackRecord) : Except ActivityError (ActivityFrameStore × Bool) := do
  let workspace ← boundedId r.workspaceId "workspaceId"
  let feedback ← boundedId r.feedbackId "feedbackId"
  match s.feedback.get (workspace, feedback) with
  | some existing =>
    require (.value "feedbackId is already bound to another feedback record")
      (existing.jobId = r.jobId ∧ existing.requestId = r.requestId ∧ existing.kind = r.kind)
    pure (s, false)
  | none =>
    require (.lookup "proactive opportunity was not found")
      ((s.opportunities.get (workspace, r.jobId)).any fun row =>
        row.requestId = r.requestId && row.sourceKind = r.sourceKind)
    let recorded := { s with
      feedback := s.feedback.set (workspace, feedback) ⟨r.jobId, r.requestId, r.sourceKind, r.kind, now⟩ }
    let fenced := recorded.fence now workspace r
    if r.kind = .neverSource then (·, true) <$> fenced.disableSource host now workspace r.sourceKind
    else pure (fenced, true)

/-- `list_feedback`, as what it removes. -/
def listFeedback (workspaceId : String) : Except ActivityError ActivityFrameStore := do
  let workspace ← boundedId workspaceId "workspaceId"
  pure (s.pruneFeedback now workspace)

/-! ## Projection -/

def upsertProjected : Option ActivityFrame → Except ActivityError ActivityFrameStore
  | none => pure s
  | some frame => (·.1) <$> s.upsertFrame frame

/-- The frame of an event, kept as long as the settings of its workspace say. -/
def projectedFrame (event : TurnEvent) : Except ActivityError (Option ActivityFrame) := do
  let workspace ← boundedId (if isMapping event.payload then
    host.str ((event.payload.get "workspace_id").or (.str "default")) else "default") "workspaceId"
  let settings ← s.settingsOf host workspace
  projectEvent host event settings.retentionDays

/-- `ActivityFrameService.project`, up to the evaluation of the frame. -/
def project (event : TurnEvent) : Except ActivityError ActivityFrameStore := do
  let frame ← s.projectedFrame host event
  s.upsertProjected frame

/-- The frame of a commit that is projected again. -/
def rebuiltFrame (workspaceId : String) (commit : TurnEvent) : Except ActivityError (Option ActivityFrame) := do
  let workspace ← boundedId workspaceId "workspaceId"
  let settings ← s.settingsOf host workspace
  projectEvent host commit settings.retentionDays

/-- One commit of `ActivityFrameService.rebuild`. -/
def rebuildOne (workspaceId : String) (commit : TurnEvent) : Except ActivityError ActivityFrameStore := do
  let frame ← s.rebuiltFrame host workspaceId commit
  s.upsertProjected frame

end ActivityFrameStore

end Activity
