import Yuizaki.Activity.Settings

/- Activity frames, their table and their projection from committed turns
   (`modules/agent/activity_frames.py`).

   The table has two keys, the frame id and the source, each within its workspace, so that an
   upsert that is addressed to the frame of a source fails where its frame id belongs to
   another source. -/
namespace Activity

open Fallible

structure ActivityFrame where
  frameId : String
  workspaceId : String
  sessionId : String
  sourceKind : String
  sourceId : String
  sourceEventId : String
  sourceCreatedAt : ℚ
  createdAt : ℚ
  expiresAt : ℚ
  projectionVersion : String
  policyVersion : String
  signals : Json
deriving DecidableEq

/-- The unique key of the source of a frame. -/
def ActivityFrame.source (frame : ActivityFrame) : String × String × String :=
  (frame.workspaceId, frame.sourceKind, frame.sourceId)

def ActivityFrame.key (frame : ActivityFrame) : String × String := (frame.workspaceId, frame.frameId)

/-- The table `activity_frames`. -/
structure FrameTable where
  rows : List ActivityFrame
  sources : (rows.map ActivityFrame.source).Nodup
  keys : (rows.map ActivityFrame.key).Nodup

namespace FrameTable

instance : DecidableEq FrameTable := fun a b =>
  decidable_of_iff (a.rows = b.rows) ⟨fun h => by cases a; cases b; cases h; rfl, fun h => by rw [h]⟩

def empty : FrameTable := ⟨[], List.nodup_nil, List.nodup_nil⟩

/-- `DELETE` of the frames that do not meet a predicate. -/
def filter (t : FrameTable) (p : ActivityFrame → Bool) : FrameTable where
  rows := t.rows.filter p
  sources := (List.filter_sublist.map _).nodup t.sources
  keys := (List.filter_sublist.map _).nodup t.keys

/-- `UPDATE activity_frames SET expires_at = …`. -/
def setExpiry (t : FrameTable) (expiry : ActivityFrame → ℚ) : FrameTable where
  rows := t.rows.map fun frame => { frame with expiresAt := expiry frame }
  sources := by
    rw [List.map_map]
    exact t.sources
  keys := by
    rw [List.map_map]
    exact t.keys

/-- `SELECT … WHERE workspace_id = ? AND frame_id = ?`. -/
def find (t : FrameTable) (workspace frameId : String) : Option ActivityFrame :=
  t.rows.find? (·.key = (workspace, frameId))

/-- The rows after an upsert: the frame of the source is replaced and keeps when it was
created, or the frame is added. -/
def upserted (rows : List ActivityFrame) (frame : ActivityFrame) : List ActivityFrame :=
  if frame.source ∈ rows.map ActivityFrame.source then
    rows.map fun row => if row.source = frame.source then { frame with createdAt := row.createdAt } else row
  else rows ++ [frame]

theorem sources_upserted {rows : List ActivityFrame} {frame : ActivityFrame}
    (h : (rows.map ActivityFrame.source).Nodup) : ((upserted rows frame).map ActivityFrame.source).Nodup := by
  unfold upserted
  split
  · have hsame : (rows.map fun row => if row.source = frame.source then
        { frame with createdAt := row.createdAt } else row).map ActivityFrame.source =
        rows.map ActivityFrame.source := by
      rw [List.map_map]
      apply List.map_congr_left
      intro row _
      show (if row.source = frame.source then _ else row).source = row.source
      split
      · rename_i heq
        exact heq.symm
      · rfl
    rw [hsame]
    exact h
  · rename_i hnew
    rw [List.map_append, List.nodup_append]
    refine ⟨h, List.nodup_singleton _, fun a ha b hb heq => ?_⟩
    rw [List.map_singleton, List.mem_singleton] at hb
    exact hnew (hb ▸ heq ▸ ha)

/-- `INSERT … ON CONFLICT(workspace_id, source_kind, source_id) DO UPDATE`. -/
def upsert (t : FrameTable) (frame : ActivityFrame) : Except ActivityError FrameTable :=
  if h : ((upserted t.rows frame).map ActivityFrame.key).Nodup then
    .ok ⟨upserted t.rows frame, sources_upserted t.sources, h⟩
  else .error .integrity

section Rules

variable {t t' : FrameTable} {frame row : ActivityFrame} {p : ActivityFrame → Bool} {workspace frameId : String}

theorem mem_filter : row ∈ (t.filter p).rows ↔ row ∈ t.rows ∧ p row = true := List.mem_filter

theorem mem_setExpiry {expiry : ActivityFrame → ℚ} :
    row ∈ (t.setExpiry expiry).rows ↔ ∃ old ∈ t.rows, { old with expiresAt := expiry old } = row :=
  List.mem_map

theorem find_some (h : t.find workspace frameId = some row) :
    row ∈ t.rows ∧ row.key = (workspace, frameId) := by
  refine ⟨List.mem_of_find?_eq_some h, ?_⟩
  have hkey := List.find?_some h
  exact of_decide_eq_true hkey

theorem key_inj {a b : ActivityFrame} (ha : a ∈ t.rows) (hb : b ∈ t.rows) (h : a.key = b.key) : a = b :=
  List.inj_on_of_nodup_map t.keys ha hb h

theorem source_inj {a b : ActivityFrame} (ha : a ∈ t.rows) (hb : b ∈ t.rows) (h : a.source = b.source) : a = b :=
  List.inj_on_of_nodup_map t.sources ha hb h

theorem find_of_mem (h : row ∈ t.rows) (hkey : row.key = (workspace, frameId)) :
    t.find workspace frameId = some row := by
  cases hfind : t.find workspace frameId with
  | some found =>
    obtain ⟨hmem, hfound⟩ := find_some hfind
    rw [key_inj hmem h (hfound.trans hkey.symm)]
  | none =>
    have hnone := List.find?_eq_none.mp hfind row h
    exact absurd (decide_eq_true hkey) hnone

theorem mem_upsert (h : t.upsert frame = .ok t') :
    row ∈ t'.rows ↔ (row ∈ t.rows ∧ row.source ≠ frame.source) ∨
      (∃ old ∈ t.rows, old.source = frame.source ∧ row = { frame with createdAt := old.createdAt }) ∨
      (frame.source ∉ t.rows.map ActivityFrame.source ∧ row = frame) := by
  unfold upsert at h
  split at h
  · obtain rfl := Except.ok.inj h
    show row ∈ upserted t.rows frame ↔ _
    unfold upserted
    split
    · rename_i hknown
      rw [List.mem_map]
      constructor
      · rintro ⟨old, hold, heq⟩
        split at heq
        · rename_i hsource
          exact Or.inr (Or.inl ⟨old, hold, hsource, heq.symm⟩)
        · rename_i hsource
          subst heq
          exact Or.inl ⟨hold, hsource⟩
      · rintro (⟨hold, hsource⟩ | ⟨old, hold, hsource, rfl⟩ | ⟨hnew, -⟩)
        · exact ⟨row, hold, if_neg hsource⟩
        · exact ⟨old, hold, if_pos hsource⟩
        · exact absurd hknown hnew
    · rename_i hnew
      rw [List.mem_append, List.mem_singleton]
      constructor
      · rintro (hold | rfl)
        · exact Or.inl ⟨hold, fun heq => hnew (heq ▸ List.mem_map_of_mem hold)⟩
        · exact Or.inr (Or.inr ⟨hnew, rfl⟩)
      · rintro (⟨hold, -⟩ | ⟨old, hold, hsource, rfl⟩ | ⟨-, rfl⟩)
        · exact Or.inl hold
        · exact absurd (hsource ▸ List.mem_map_of_mem hold) hnew
        · exact Or.inr rfl
  · cases h

end Rules

end FrameTable

/-! ## Projection -/

/-- An event of the turn log, as `project_event` reads it. -/
structure TurnEvent where
  eventType : String
  payload : Json
  idempotencyKey : Json
  eventId : Json
  createdAt : Json
deriving DecidableEq

/-- `_bounded_id` of any value. -/
def boundedValue (host : Host) (value : Json) (field : String) : Except ActivityError String :=
  boundedId (if value.truthy then host.str value else "") field

/-- `value if value in allowed else fallback`, of a text without the blanks around it. -/
def allowedText (host : Host) (value : Json) (allowed : List String) (fallback : String) : String :=
  let text := PyStr.strip (host.str (value.or (.str fallback)))
  if text ∈ allowed then text else fallback

/-- `raw.get(snake, raw.get(camel))`. -/
def eitherKey (raw : Json) (snake camel : String) : Json :=
  if raw.hasKey snake then raw.get snake else raw.get camel

def isMapping : Json → Bool
  | .obj _ => true
  | _ => false

def activityContext (host : Host) (payload : Json) : List (String × Json) :=
  let raw := if isMapping (payload.get "activity_context") then payload.get "activity_context"
    else if isMapping (payload.get "activityContext") then payload.get "activityContext" else .obj []
  let confidence := (host.toFloat ((eitherKey raw "scene_confidence" "sceneConfidence").or (.num 0))).getD 0
  [("scene_confidence", .num (max 0 (min 1 confidence))),
    ("user_work_state", .str (allowedText host (eitherKey raw "user_work_state" "userWorkState")
      ["unknown", "working", "idle", "meeting", "focus", "away"] "unknown")),
    ("expected_benefit", .str (allowedText host (eitherKey raw "expected_benefit" "expectedBenefit")
      ["continue_task", "check_in", "reminder", "companionship"] "continue_task")),
    ("interrupt_cost", .str (allowedText host (eitherKey raw "interrupt_cost" "interruptCost")
      ["low", "medium", "high"] "low"))]

/-- The number of user messages of a turn, at most 20. -/
def userMessageCount : Json → ℕ
  | .arr items => min 20 (items.countP fun item => item.get "role" = .str "user")
  | _ => 0

def projectedSignals (host : Host) (payload : Json) : Json :=
  let trigger := host.str ((payload.get "trigger").or (.str ""))
  let knownTrigger := if trigger ∈ ["socket", "voice", "schedule", "plugin"] then trigger else "other"
  let hadToolCalls := (payload.get "tool_calls").truthy
  let category := if knownTrigger = "schedule" then "scheduled"
    else if hadToolCalls then "tool_followup" else "conversation"
  .obj ([("kind", .str sourceKind), ("turnCompleted", .bool true),
    ("assistantReplyPresent", .bool (PyStr.strip (host.str ((payload.get "reply").or (.str ""))) ≠ "")),
    ("userMessageCount", .int (userMessageCount (payload.get "messages"))),
    ("hadToolCalls", .bool hadToolCalls), ("trigger", .str knownTrigger),
    ("activityCategory", .str category)] ++ activityContext host payload)

def projectEvent (host : Host) (event : TurnEvent) (retentionDays : ℤ) :
    Except ActivityError (Option ActivityFrame) :=
  if event.eventType ≠ "turn.committed" then pure none
  else do
    require (.type "activity frame projection requires a turn.committed payload") (isMapping event.payload = true)
    let workspaceId ← boundedValue host ((event.payload.get "workspace_id").or (.str "default")) "workspaceId"
    let sessionId ← boundedValue host (event.payload.get "session_id") "sessionId"
    let sourceId ← boundedValue host event.idempotencyKey "sourceId"
    let sourceEventId ← boundedId (host.str event.eventId) "sourceEventId"
    let committedAt := (event.payload.get "committed_at").or event.createdAt
    require (.value "turn.committed projection requires an authoritative committed timestamp")
      (committedAt ≠ .null)
    match host.toFloat committedAt with
    | none => .error (.value "could not convert the committed timestamp to float")
    | some sourceCreatedAt => pure (some {
        frameId := host.deterministicFrameId sourceKind sourceId
        workspaceId, sessionId, sourceKind := sourceKind, sourceId, sourceEventId, sourceCreatedAt
        createdAt := sourceCreatedAt
        expiresAt := sourceCreatedAt + retentionDays * 86400
        projectionVersion := projectionVersion
        policyVersion := policyVersion
        signals := projectedSignals host event.payload })

end Activity
