import Yuizaki.Lib.Dict
import Yuizaki.Lib.Json
import Yuizaki.Lib.PyStr
import Yuizaki.Lib.Fallible
import Mathlib.Data.Rat.Floor

/- Proactive settings and the pure gates over them (`modules/agent/activity_frames.py`).

   `Host` is what the store takes from Python and the machine: the time zone database, `str`
   and `float` of values that are neither texts nor numbers, the power function and SHA-256. A
   timestamp is a rational. -/
namespace Activity

open Fallible

/-- What an operation of the store raises. -/
inductive ActivityError where
  | value (message : String)
  | lookup (message : String)
  | type (message : String)
  | integrity
deriving DecidableEq

/-- The machine under the store: `_local_clock` (date and minute of the day), the keys of the
time zone database, `0.5 ** x`, `str` and `float` of other values, and SHA-256. -/
structure Host where
  localClock : ℚ → String → String × ℕ
  zoneInfo : String → Bool
  halved : ℚ → ℚ
  text : Json → String
  float : Json → Option ℚ
  sha256 : String → String

/-- `str(value)`. -/
def Host.str (host : Host) : Json → String
  | .str s => s
  | value => host.text value

/-- `float(value)`, where it is finite. -/
def Host.toFloat (host : Host) (value : Json) : Option ℚ := value.number.orElse fun _ => host.float value

/-! ## Identifiers -/

def sourceKind : String := "completed_turn_followup"

def projectionVersion : String := "activity-frame.v1"

def policyVersion : String := "proactive-policy.v1"

def defaultActivityCategory : String := "general"

def isAlnum (c : Char) : Bool :=
  ('A' ≤ c ∧ c ≤ 'Z') ∨ ('a' ≤ c ∧ c ≤ 'z') ∨ ('0' ≤ c ∧ c ≤ '9')

/-- `_SAFE_ID.fullmatch`. -/
def isSafeId (s : String) : Bool :=
  match s.toList with
  | [] => false
  | c :: rest => isAlnum c && (rest.length ≤ 159 : Bool) && rest.all fun d => isAlnum d || d ∈ "._:/-".toList

def boundedId (value : String) (field : String) : Except ActivityError String := do
  let normalized := PyStr.strip value
  require (.value (field ++ " must be a safe identifier of 1-160 characters")) (isSafeId normalized = true)
  pure normalized

def Host.deterministicFrameId (host : Host) (sourceKind sourceId : String) : String :=
  "af_" ++ host.sha256 (sourceKind ++ "\x00" ++ sourceId ++ "\x00" ++ projectionVersion)

/-! ## Settings -/

structure ProactiveSettings where
  enabled : Bool := false
  completedTurnFollowupEnabled : Bool := true
  paused : Bool := false
  dnd : Bool := false
  quietHoursEnabled : Bool := false
  quietHoursStart : String := "22:00"
  quietHoursEnd : String := "08:00"
  timezone : String := "UTC"
  dailyBudget : ℤ := 3
  cooldownSeconds : ℤ := 3600
  retentionDays : ℤ := 7
  categoryBudgets : Dict String ℤ := Dict.empty
deriving DecidableEq

def digit? (c : Char) : Option ℕ := if '0' ≤ c ∧ c ≤ '9' then some (c.toNat - '0'.toNat) else none

/-- `_parse_hhmm`: only a text that `HH:MM` prints again is read. -/
def parseHhmm (value : String) : Option ℕ :=
  match value.toList with
  | [a, b, ':', c, d] => do
    let hour := 10 * (← digit? a) + (← digit? b)
    let minute := 10 * (← digit? c) + (← digit? d)
    guard (hour ≤ 23 ∧ minute ≤ 59)
    pure (hour * 60 + minute)
  | _ => none

def windowsTzdataFallbacks : List String :=
  ["UTC", "Etc/UTC", "Asia/Shanghai", "Asia/Tokyo", "America/New_York", "Europe/London"]

/-- The budget of one category, checked. -/
def normalizeCategory (budgets : Dict String ℤ) (entry : String × ℤ) : Except ActivityError (Dict String ℤ) := do
  let safeCategory ← boundedId entry.1 "categoryBudget category"
  require (.value "categoryBudgets values must be integers between 1 and 20") (1 ≤ entry.2 ∧ entry.2 ≤ 20)
  pure (budgets.set safeCategory entry.2)

def ProactiveSettings.validate (host : Host) (settings : ProactiveSettings) :
    Except ActivityError ProactiveSettings := do
  require (.value "quiet hour values must use HH:MM") (parseHhmm settings.quietHoursStart).isSome
  require (.value "quiet hour values must use HH:MM") (parseHhmm settings.quietHoursEnd).isSome
  require (.value "timezone must be a supported IANA timezone")
    (host.zoneInfo settings.timezone = true ∨ settings.timezone ∈ windowsTzdataFallbacks)
  require (.value "dailyBudget must be between 1 and 20") (1 ≤ settings.dailyBudget ∧ settings.dailyBudget ≤ 20)
  require (.value "cooldownSeconds must be between 0 and 604800")
    (0 ≤ settings.cooldownSeconds ∧ settings.cooldownSeconds ≤ 604800)
  require (.value "retentionDays must be between 1 and 90")
    (1 ≤ settings.retentionDays ∧ settings.retentionDays ≤ 90)
  require (.value "categoryBudgets must contain at most 20 entries") (settings.categoryBudgets.keys.length ≤ 20)
  let normalizedCategories ← settings.categoryBudgets.entries.foldlM normalizeCategory Dict.empty
  pure { settings with categoryBudgets := normalizedCategories }

/-- A change of settings: the fields that are given. -/
structure SettingsPatch where
  enabled : Option Bool := none
  completedTurnFollowupEnabled : Option Bool := none
  paused : Option Bool := none
  dnd : Option Bool := none
  quietHoursEnabled : Option Bool := none
  quietHoursStart : Option String := none
  quietHoursEnd : Option String := none
  timezone : Option String := none
  dailyBudget : Option ℤ := none
  cooldownSeconds : Option ℤ := none
  retentionDays : Option ℤ := none
  categoryBudgets : Option (Dict String ℤ) := none
deriving DecidableEq

/-- `current.update(dict(patch))`. -/
def SettingsPatch.update (patch : SettingsPatch) (current : ProactiveSettings) : ProactiveSettings where
  enabled := patch.enabled.getD current.enabled
  completedTurnFollowupEnabled := patch.completedTurnFollowupEnabled.getD current.completedTurnFollowupEnabled
  paused := patch.paused.getD current.paused
  dnd := patch.dnd.getD current.dnd
  quietHoursEnabled := patch.quietHoursEnabled.getD current.quietHoursEnabled
  quietHoursStart := patch.quietHoursStart.getD current.quietHoursStart
  quietHoursEnd := patch.quietHoursEnd.getD current.quietHoursEnd
  timezone := patch.timezone.getD current.timezone
  dailyBudget := patch.dailyBudget.getD current.dailyBudget
  cooldownSeconds := patch.cooldownSeconds.getD current.cooldownSeconds
  retentionDays := patch.retentionDays.getD current.retentionDays
  categoryBudgets := patch.categoryBudgets.getD current.categoryBudgets

/-! ## Gates -/

/-- `_in_quiet_hours`, of settings that were validated. -/
def inQuietHours (settings : ProactiveSettings) (minute : ℕ) : Bool :=
  if settings.quietHoursEnabled = false then false
  else
    let start := (parseHhmm settings.quietHoursStart).getD 0
    let stop := (parseHhmm settings.quietHoursEnd).getD 0
    if start = stop then true
    else if start < stop then start ≤ minute ∧ minute < stop
    else start ≤ minute ∨ minute < stop

/-- The settings allow no opportunity at this minute: they are off, paused, on do not disturb,
or it is within the quiet hours. -/
def authorityBlocked (settings : ProactiveSettings) (minute : ℕ) : Bool :=
  !settings.enabled || !settings.completedTurnFollowupEnabled || settings.paused || settings.dnd ||
    inQuietHours settings minute

def activityCategory (host : Host) (signals : Json) : String :=
  let value := PyStr.strip (host.str ((signals.get "activityCategory").or (.str defaultActivityCategory)))
  if isSafeId value then value else defaultActivityCategory

/-- `_category_budget`: a category without an entry inherits the daily budget. -/
def categoryBudget (settings : ProactiveSettings) (category : String) : ℤ :=
  (settings.categoryBudgets.get category).getD settings.dailyBudget

/-- `_context_gate_reason`, as whether there is a reason. -/
def contextNotInterruptible (host : Host) (signals : Json) : Bool :=
  let confidence := (host.toFloat ((signals.get "scene_confidence").or (.num 0))).getD 0
  let state := host.str ((signals.get "user_work_state").or (.str "unknown"))
  let interruptCost := host.str ((signals.get "interrupt_cost").or (.str "low"))
  (7 / 10 ≤ confidence : Bool) && state ∈ ["working", "focus", "meeting"] && interruptCost ∈ ["medium", "high"]

/-- `FEEDBACK_KINDS`. -/
inductive FeedbackKind where
  | useful
  | notUseful
  | tooFrequent
  | wrongTime
  | neverSource
  | accepted
  | ignored
  | cancelled
  | snoozed
deriving DecidableEq

/-- How long `_feedback_gate` keeps a source back after feedback of a kind: the least time, or
the cooldown where that is longer and counts. -/
def gateSeconds (settings : ProactiveSettings) : FeedbackKind → Option ℚ
  | .tooFrequent => some (max settings.cooldownSeconds 3600)
  | .wrongTime => some 86400
  | .notUseful => some (max settings.cooldownSeconds 3600)
  | .ignored => some (max settings.cooldownSeconds 900)
  | .snoozed => some (max settings.cooldownSeconds 1800)
  | _ => none

/-- `_feedback_gate`, as whether there is a gate. -/
def feedbackGate (kind : FeedbackKind) (createdAt now : ℚ) (settings : ProactiveSettings) : Bool :=
  match gateSeconds settings kind with
  | some seconds => max 0 (now - createdAt) < seconds
  | none => false

/-- `_FEEDBACK_SCORE_WEIGHTS.get(kind, 0)`. -/
def feedbackScoreWeight : FeedbackKind → ℚ
  | .accepted => 1
  | .ignored => -1
  | .cancelled => -1
  | .snoozed => -2
  | _ => 0

def feedbackLearningWindowSeconds : ℚ := 30 * 86400

def feedbackHalfLifeSeconds : ℚ := 7 * 86400

def feedbackRetentionSeconds : ℚ := 90 * 86400

/-- `round(value)`: a half goes to the even neighbour. -/
def roundHalfEven (value : ℚ) : ℤ :=
  let below := ⌊value⌋
  if value - below < 1 / 2 then below
  else if 1 / 2 < value - below then below + 1
  else if below % 2 = 0 then below else below + 1

/-- The score of recent behaviour: what each feedback weighs, halved every week, within ±20
and to two places. -/
def preferenceScore (host : Host) (now : ℚ) (feedback : List (FeedbackKind × ℚ)) : ℚ :=
  let score := (feedback.map fun entry =>
    feedbackScoreWeight entry.1 * host.halved (max 0 (now - entry.2) / feedbackHalfLifeSeconds)).sum
  roundHalfEven (max (-20) (min 20 score) * 100) / 100

end Activity
