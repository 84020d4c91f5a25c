import Yuizaki.Activity.Deleted

/- The two gates of a proactive opportunity (`evaluate` and `reserve_opportunity` in
   `modules/agent/activity_frames.py`).

   Both check the settings, the frame, the context, the feedback, the cooldown, the budgets and
   the preference, each with its own queries. They part at the retention: the reservation
   looks at it as the settings are now, beside the expiry of the frame, and the evaluation at
   the expiry alone, so that a frame that was projected before the retention was shortened and
   stored after it is allowed and refused (`stale_frame_refused`). Nothing else parts them
   (`gates_agree`). -/
namespace Activity

open Transition Fallible

/-! ## The evaluation -/

/-- The reason that `_feedback_gate` gives for a kind. -/
def FeedbackKind.gateReason : FeedbackKind → Option String
  | .tooFrequent => some "feedback_too_frequent"
  | .wrongTime => some "feedback_wrong_time"
  | .notUseful => some "feedback_not_useful"
  | .ignored => some "feedback_ignored"
  | .snoozed => some "feedback_snoozed"
  | _ => none

structure PolicyDecision where
  allowed : Bool
  reason : String
  evaluatedAt : ℚ
  localDate : String
  remainingBudget : ℤ
  category : String
  remainingCategoryBudget : ℤ
  preferenceScore : ℚ
deriving DecidableEq

namespace ActivityFrameStore

variable (host : Host) (s : ActivityFrameStore) (now : ℚ)

/-- The opportunities of a workspace and a day with a status. -/
def countOn (workspace localDate : String) (status : OpportunityStatus) : ℕ :=
  s.opportunities.count fun key row => key.1 = workspace && row.localDate = localDate && row.status = status

/-- `_category_usage_locked`, of all jobs. -/
def categoryUsed (workspace localDate category : String) : ℕ :=
  s.opportunities.count fun key row =>
    key.1 = workspace && row.localDate = localDate && row.usesBudget &&
      s.categoryOf host workspace row.frameId = category

def getFrame (workspaceId frameId : String) : Except ActivityError (Option ActivityFrame) := do
  let workspace ← boundedId workspaceId "workspaceId"
  let frame ← boundedId frameId "frameId"
  pure (s.frames.find workspace frame)

/-- The reason of the latest feedback on a source, where it opens a gate. -/
def feedbackReason (workspace kind : String) (settings : ProactiveSettings) : Option String :=
  match s.latestFeedback workspace kind with
  | some row => if feedbackGate row.kind row.createdAt now settings then row.kind.gateReason else none
  | none => none

def hasOpportunity (workspace frameId : String) : Bool :=
  s.opportunities.entries.any fun e => e.1.1 = workspace && e.2.frameId = frameId

/-- The budgets, the preference and the duplicates. -/
def budgetReason (workspace localDate : String) (settings : ProactiveSettings) (frame : ActivityFrame) : String :=
  let category := activityCategory host frame.signals
  if settings.dailyBudget ≤ s.countOn workspace localDate .delivered + s.countOn workspace localDate .pending then
    "daily_budget"
  else if categoryBudget settings category ≤ s.categoryUsed host workspace localDate category then "category_budget"
  else if s.categoryPreference host now workspace category ≤ -2 then "feedback_category_disfavored"
  else if s.hasOpportunity workspace frame.frameId then "duplicate"
  else "allowed"

/-- The gates behind the one of the frame. -/
def gateReason (workspace : String) (settings : ProactiveSettings) (frame : ActivityFrame) (interruptible : Bool) :
    String :=
  let clock := host.localClock now settings.timezone
  if settings.dnd then "dnd"
  else if inQuietHours settings clock.2 then "quiet_hours"
  else if !interruptible then "not_interruptible"
  else if contextNotInterruptible host frame.signals then "context_not_interruptible"
  else match s.feedbackReason now workspace frame.sourceKind settings with
    | some reason => reason
    | none =>
      if !s.cooledDown now workspace frame.sourceKind settings then "cooldown"
      else s.budgetReason host now workspace clock.1 settings frame

/-- The reason of a decision. The frame is looked for only where it has not expired. -/
def policyReason (workspace : String) (settings : ProactiveSettings) (frame : ActivityFrame) (interruptible : Bool) :
    Except ActivityError String :=
  if !settings.enabled then pure "global_disabled"
  else if !settings.completedTurnFollowupEnabled then pure "source_disabled"
  else if settings.paused then pure "user_paused"
  else if frame.expiresAt ≤ now then pure "frame_inactive"
  else do
    let found ← s.getFrame workspace frame.frameId
    pure (if found.isNone then "frame_inactive" else s.gateReason host now workspace settings frame interruptible)

def evaluate (workspaceId : String) (frame : ActivityFrame) (interruptible : Bool) :
    Except ActivityError PolicyDecision := do
  let workspace ← boundedId workspaceId "workspaceId"
  let settings ← s.settingsOf host workspace
  let localDate := (host.localClock now settings.timezone).1
  let category := activityCategory host frame.signals
  let reason ← s.policyReason host now workspace settings frame interruptible
  pure {
    allowed := reason = "allowed"
    reason
    evaluatedAt := now
    localDate
    remainingBudget := max 0 (settings.dailyBudget - s.countOn workspace localDate .delivered)
    category
    remainingCategoryBudget :=
      max 0 (categoryBudget settings category - s.categoryUsed host workspace localDate category)
    preferenceScore := s.categoryPreference host now workspace category }

end ActivityFrameStore

/-! ## The two verdicts -/

/-- `_emit_opportunity`: the job of a frame. -/
def ActivityFrame.jobId (host : Host) (frame : ActivityFrame) : String :=
  "activityframejob_" ++ String.ofList
    ((host.sha256 (frame.workspaceId ++ "\x00" ++ frame.frameId ++ "\x00" ++ frame.sourceKind)).toList.take 20)

/-- `evaluate` allows a frame. -/
def Allows (host : Host) (s : ActivityFrameStore) (now : ℚ) (workspaceId : String) (frame : ActivityFrame)
    (interruptible : Bool) : Prop :=
  ∃ decision, s.evaluate host now workspaceId frame interruptible = .ok decision ∧ decision.allowed = true

/-- `reserve_opportunity` succeeds. -/
def Reserves (host : Host) (s : ActivityFrameStore) (now : ℚ) (r : Reservation) : Prop :=
  ∃ s', s.reserveOpportunity host now r = .ok (s', true)

/-- The reservation of a frame, as `_emit_opportunity` asks for it. -/
def ActivityFrame.reservation (host : Host) (frame : ActivityFrame) (workspaceId requestId : String) (interruptible : Bool)
    (expiresAt : Option ℚ) : Reservation :=
  ⟨workspaceId, frame.jobId host, requestId, frame.frameId, frame.sourceKind, interruptible, expiresAt⟩

/-- There is no opportunity of a frame, nor one under its job. -/
def Unclaimed (host : Host) (s : ActivityFrameStore) (frame : ActivityFrame) : Prop :=
  s.opportunities.get (frame.workspaceId, frame.jobId host) = none ∧
    ∀ k row, s.opportunities.get k = some row → k.1 = frame.workspaceId → row.frameId ≠ frame.frameId

/-- The gates that both verdicts check alike are open for a frame. -/
structure Clear (host : Host) (s : ActivityFrameStore) (now : ℚ) (settings : ProactiveSettings) (frame : ActivityFrame)
    (interruptible : Bool) : Prop where
  authority : authorityBlocked settings (host.localClock now settings.timezone).2 = false
  interruptible : interruptible = true
  context : contextNotInterruptible host frame.signals = false
  feedback : s.feedbackClear now frame.workspaceId frame.sourceKind settings = true
  cooled : s.cooledDown now frame.workspaceId frame.sourceKind settings = true
  daily : (s.opportunities.count (fun key row => key.1 = frame.workspaceId &&
    row.localDate = (host.localClock now settings.timezone).1 && row.usesBudget) : ℤ) < settings.dailyBudget
  category : (s.categoryUsed host frame.workspaceId (host.localClock now settings.timezone).1
    (activityCategory host frame.signals) : ℤ) < categoryBudget settings (activityCategory host frame.signals)
  preference : -2 < s.categoryPreference host now frame.workspaceId (activityCategory host frame.signals)

section Verdicts

variable {host : Host} {s : ActivityFrameStore} {now : ℚ} {settings : ProactiveSettings} {frame : ActivityFrame}
  {interruptible : Bool} {workspace localDate : String}

theorem reason_if {c : Prop} [Decidable c] {reason rest : String} (h : reason ≠ "allowed") :
    (if c then reason else rest) = "allowed" ↔ ¬ c ∧ rest = "allowed" := by
  split
  · rename_i hc
    exact ⟨fun heq => absurd heq h, fun hrest => absurd hc hrest.1⟩
  · rename_i hc
    exact ⟨fun hrest => ⟨hc, hrest⟩, fun hrest => hrest.2⟩

theorem feedbackGate_reason {kind : FeedbackKind} {t : ℚ} (h : feedbackGate kind t now settings = true) :
    ∃ reason, kind.gateReason = some reason ∧ reason ≠ "allowed" := by
  cases kind with
  | tooFrequent => exact ⟨_, rfl, by decide⟩
  | wrongTime => exact ⟨_, rfl, by decide⟩
  | notUseful => exact ⟨_, rfl, by decide⟩
  | ignored => exact ⟨_, rfl, by decide⟩
  | snoozed => exact ⟨_, rfl, by decide⟩
  | useful => exact absurd h Bool.false_ne_true
  | neverSource => exact absurd h Bool.false_ne_true
  | accepted => exact absurd h Bool.false_ne_true
  | cancelled => exact absurd h Bool.false_ne_true

theorem feedbackReason_cases {kind : String} :
    s.feedbackReason now workspace kind settings = none ∧ s.feedbackClear now workspace kind settings = true ∨
      ∃ reason, s.feedbackReason now workspace kind settings = some reason ∧ reason ≠ "allowed" ∧
        s.feedbackClear now workspace kind settings = false := by
  unfold ActivityFrameStore.feedbackReason ActivityFrameStore.feedbackClear
  cases s.latestFeedback workspace kind with
  | none => exact Or.inl ⟨rfl, rfl⟩
  | some row =>
    dsimp only
    cases hgate : feedbackGate row.kind row.createdAt now settings with
    | false =>
      rw [if_neg Bool.false_ne_true]
      exact Or.inl ⟨rfl, rfl⟩
    | true =>
      obtain ⟨reason, hreason, hne⟩ := feedbackGate_reason hgate
      rw [if_pos rfl, hreason]
      exact Or.inr ⟨reason, rfl, hne, rfl⟩

theorem countOn_used : s.countOn workspace localDate .delivered + s.countOn workspace localDate .pending =
    s.opportunities.count fun key row => key.1 = workspace && row.localDate = localDate && row.usesBudget := by
  unfold ActivityFrameStore.countOn
  rw [← Dict.count_or]
  · refine Dict.count_congr fun key row _ => ?_
    unfold Opportunity.usesBudget
    cases row.status with
    | pending => simp
    | delivered => simp
    | suppressed => simp
    | expired => simp
    | cancelled => simp
    | failed => simp
  · intro key row hdelivered
    simp only [Bool.and_eq_true, decide_eq_true_eq] at hdelivered
    rw [hdelivered.2]
    exact Bool.and_false _

theorem boundedId_again {value field id : String} (h : boundedId value field = .ok id) : boundedId id field = .ok id := by
  obtain ⟨u, hsafe, hid⟩ := bind_ok.mp h
  have hstrip : PyStr.strip value = id := pure_ok.mp hid
  have hsafe' : isSafeId (PyStr.strip value) = true := require_ok.mp hsafe
  unfold boundedId
  rw [← hstrip, PyStr.strip_strip]
  exact bind_ok.mpr ⟨(), require_ok.mpr hsafe', rfl⟩

theorem count_others {key : String × String} {p : String × String → Opportunity → Bool}
    (hnone : s.opportunities.get key = none) (hp : ∀ k row, p k row = true → k.1 = key.1) :
    (s.opportunities.count fun k row => p k row && k.2 ≠ key.2) = s.opportunities.count p := by
  refine Dict.count_congr fun k row hrow => ?_
  cases hk : p k row with
  | false => rfl
  | true =>
    have hother : k.2 ≠ key.2 := by
      intro heq
      have hkey : k = key := Prod.ext (hp k row hk) heq
      rw [hkey, hnone] at hrow
      cases hrow
    rw [Bool.true_and]
    exact decide_eq_true hother

theorem gateReason_allowed (hworkspace : frame.workspaceId = workspace) (hduplicate : s.hasOpportunity workspace frame.frameId = false)
    (hon : settings.enabled = true ∧ settings.completedTurnFollowupEnabled = true ∧ settings.paused = false) :
    s.gateReason host now workspace settings frame interruptible = "allowed" ↔
      Clear host s now settings frame interruptible := by
  subst hworkspace
  have hauthority : authorityBlocked settings (host.localClock now settings.timezone).2 = false ↔
      ¬ settings.dnd = true ∧ ¬ inQuietHours settings (host.localClock now settings.timezone).2 = true := by
    unfold authorityBlocked
    rw [hon.1, hon.2.1, hon.2.2]
    simp only [Bool.not_true, Bool.false_or, Bool.or_eq_false_iff, Bool.not_eq_true]
  have hbudget : s.budgetReason host now frame.workspaceId (host.localClock now settings.timezone).1 settings frame = "allowed" ↔
      ((s.opportunities.count (fun key row => key.1 = frame.workspaceId &&
        row.localDate = (host.localClock now settings.timezone).1 && row.usesBudget) : ℤ) < settings.dailyBudget) ∧
      ((s.categoryUsed host frame.workspaceId (host.localClock now settings.timezone).1
        (activityCategory host frame.signals) : ℤ) < categoryBudget settings (activityCategory host frame.signals)) ∧
      -2 < s.categoryPreference host now frame.workspaceId (activityCategory host frame.signals) := by
    unfold ActivityFrameStore.budgetReason
    dsimp only
    rw [reason_if (by decide), reason_if (by decide), reason_if (by decide), reason_if (by decide), ← Nat.cast_add, countOn_used,
      hduplicate, not_le, not_le, not_le]
    simp only [Bool.false_eq_true, not_false_eq_true, and_true]
  unfold ActivityFrameStore.gateReason
  dsimp only
  rw [reason_if (by decide), reason_if (by decide), reason_if (by decide), reason_if (by decide)]
  obtain ⟨hnone, hclear⟩ | ⟨reason, hsome, hne, hblocked⟩ :=
    @feedbackReason_cases s now settings frame.workspaceId frame.sourceKind
  · rw [hnone]
    dsimp only
    rw [reason_if (by decide), hbudget]
    simp only [Bool.not_eq_true', Bool.not_eq_false, Bool.not_eq_true]
    constructor
    · rintro ⟨hdnd, hquiet, hinterruptible, hcontext, hcooled, hdaily, hcategory, hpreference⟩
      exact ⟨hauthority.mpr ⟨Bool.eq_false_iff.mp hdnd, Bool.eq_false_iff.mp hquiet⟩, hinterruptible, hcontext, hclear, hcooled,
        hdaily, hcategory, hpreference⟩
    · intro h
      obtain ⟨hdnd, hquiet⟩ := hauthority.mp h.authority
      exact ⟨Bool.eq_false_iff.mpr hdnd, Bool.eq_false_iff.mpr hquiet, h.interruptible, h.context, h.cooled, h.daily, h.category,
        h.preference⟩
  · rw [hsome]
    dsimp only
    refine ⟨fun h => absurd h.2.2.2.2 hne, fun h => ?_⟩
    have hclear := h.feedback
    rw [hblocked] at hclear
    cases hclear

theorem hasOpportunity_none (h : Unclaimed host s frame) : s.hasOpportunity frame.workspaceId frame.frameId = false := by
  refine List.any_eq_false.mpr fun e he hsame => ?_
  simp only [Bool.and_eq_true, decide_eq_true_eq] at hsame
  exact h.2 e.1 e.2 (Dict.get_eq_some.mpr he) hsame.1 hsame.2

theorem allows_iff {workspaceId : String} (hworkspace : boundedId workspaceId "workspaceId" = .ok frame.workspaceId)
    (hframe : boundedId frame.frameId "frameId" = .ok frame.frameId) (hstored : frame ∈ s.frames.rows)
    (hunclaimed : Unclaimed host s frame) (hsettings : s.settingsOf host frame.workspaceId = .ok settings) :
    Allows host s now workspaceId frame interruptible ↔ now < frame.expiresAt ∧ Clear host s now settings frame interruptible := by
  have hdecision : Allows host s now workspaceId frame interruptible ↔
      s.policyReason host now frame.workspaceId settings frame interruptible = .ok "allowed" := by
    unfold Allows ActivityFrameStore.evaluate
    rw [hworkspace]
    constructor
    · rintro ⟨decision, hdecision, hallowed⟩
      obtain ⟨_, hid, hdecision⟩ := bind_ok.mp hdecision
      rw [← Except.ok.inj hid] at hdecision
      obtain ⟨settings', hsettings', hdecision⟩ := bind_ok.mp hdecision
      rw [hsettings] at hsettings'
      rw [← Except.ok.inj hsettings'] at hdecision
      obtain ⟨reason, hreason, hdecision⟩ := bind_ok.mp hdecision
      rw [← pure_ok.mp hdecision] at hallowed
      rw [hreason, of_decide_eq_true hallowed]
    · intro hreason
      exact ⟨_, bind_ok.mpr ⟨_, rfl, bind_ok.mpr ⟨settings, hsettings, bind_ok.mpr ⟨_, hreason, rfl⟩⟩⟩, rfl⟩
  have hfound : s.getFrame frame.workspaceId frame.frameId = .ok (some frame) := by
    unfold ActivityFrameStore.getFrame
    rw [boundedId_again hworkspace, hframe]
    exact congrArg Except.ok (FrameTable.find_of_mem hstored rfl)
  have hother {reason : String} (hne : reason ≠ "allowed") : (pure reason : Except ActivityError String) ≠ .ok "allowed" :=
    fun heq => hne (Except.ok.inj heq)
  rw [hdecision]
  unfold ActivityFrameStore.policyReason
  by_cases hon : settings.enabled = true ∧ settings.completedTurnFollowupEnabled = true ∧ settings.paused = false
  · rw [hon.1, hon.2.1, hon.2.2, if_neg (by decide), if_neg (by decide), if_neg (by decide)]
    by_cases hexpired : frame.expiresAt ≤ now
    · rw [if_pos hexpired]
      exact ⟨fun h => absurd h (hother (by decide)), fun h => absurd h.1 (not_lt.mpr hexpired)⟩
    · rw [if_neg hexpired, hfound]
      rw [← gateReason_allowed rfl (hasOpportunity_none hunclaimed) hon, and_iff_right (not_le.mp hexpired)]
      exact ⟨fun h => Except.ok.inj h, fun h => congrArg Except.ok h⟩
  · have hblocked : authorityBlocked settings (host.localClock now settings.timezone).2 = true := by
      unfold authorityBlocked
      cases henabled : settings.enabled with
      | false => rfl
      | true =>
        cases hsource : settings.completedTurnFollowupEnabled with
        | false => rfl
        | true =>
          cases hpaused : settings.paused with
          | true => rfl
          | false => exact absurd ⟨henabled, hsource, hpaused⟩ hon
    refine ⟨fun h => ?_, fun h => absurd h.2.authority (by rw [hblocked]; decide)⟩
    split at h
    · exact absurd h (hother (by decide))
    · rename_i henabled
      split at h
      · exact absurd h (hother (by decide))
      · rename_i hsource
        split at h
        · exact absurd h (hother (by decide))
        · rename_i hpaused
          refine absurd ⟨?_, ?_, Bool.eq_false_iff.mpr hpaused⟩ hon
          · simpa using henabled
          · simpa using hsource

theorem find_live (hstored : frame ∈ s.frames.rows) (hlive : now < frame.expiresAt) :
    s.frames.rows.find? (fun row => row.key = frame.key && row.sourceKind = frame.sourceKind && now < row.expiresAt) =
      some frame := by
  cases hfind : s.frames.rows.find? fun row =>
      row.key = frame.key && row.sourceKind = frame.sourceKind && now < row.expiresAt with
  | some found =>
    have hmatch := List.find?_some hfind
    simp only [Bool.and_eq_true, decide_eq_true_eq] at hmatch
    rw [FrameTable.key_inj (List.mem_of_find?_eq_some hfind) hstored hmatch.1.1]
  | none =>
    have hmiss := List.find?_eq_none.mp hfind frame hstored
    simp only [decide_true, Bool.true_and, decide_eq_true_eq] at hmiss
    exact absurd hlive hmiss

theorem alone_unclaimed (h : Unclaimed host s frame) {jobId : String} : s.opportunities.count (fun key row =>
    key.1 = frame.workspaceId && row.frameId = frame.frameId && key.2 ≠ jobId) = 0 := by
  refine List.countP_eq_zero.mpr fun e he hsame => ?_
  simp only [Bool.and_eq_true, decide_eq_true_eq] at hsame
  exact h.2 e.1 e.2 (Dict.get_eq_some.mpr he) hsame.1.1 hsame.1.2

theorem reservable_iff {workspaceId requestId : String} {expiresAt : Option ℚ} (hstored : frame ∈ s.frames.rows)
    (hburied : Buried s) (hunclaimed : Unclaimed host s frame) (hexpires : ∀ t, expiresAt = some t → now < t) :
    (∃ reserved, s.reservable host now frame.workspaceId settings
        (frame.reservation host workspaceId requestId interruptible expiresAt) = some reserved) ↔
      now < frame.expiresAt ∧ now < frame.sourceCreatedAt + settings.retentionDays * 86400 ∧
        Clear host s now settings frame interruptible := by
  have hdaily := @count_others s (frame.workspaceId, frame.jobId host) (fun key row => key.1 = frame.workspaceId &&
    row.localDate = (host.localClock now settings.timezone).1 && row.usesBudget) hunclaimed.1 fun k row hk => by
      simp only [Bool.and_eq_true, decide_eq_true_eq] at hk
      exact hk.1.1
  have hcategory : s.categoryUsage host frame.workspaceId (host.localClock now settings.timezone).1
      (activityCategory host frame.signals) (frame.jobId host) =
      s.categoryUsed host frame.workspaceId (host.localClock now settings.timezone).1
        (activityCategory host frame.signals) := by
    unfold ActivityFrameStore.categoryUsage ActivityFrameStore.categoryUsed
    refine Dict.count_congr fun k row hrow => ?_
    by_cases hk : k.1 = frame.workspaceId
    · have hother : k.2 ≠ frame.jobId host := by
        intro heq
        have hkey : k = (frame.workspaceId, frame.jobId host) := Prod.ext hk heq
        rw [hkey, hunclaimed.1] at hrow
        cases hrow
      simp only [hother, ne_eq, not_false_eq_true, decide_true, Bool.and_true]
    · simp only [hk, decide_false, Bool.false_and]
  have htombstone : s.tombstones.get (frame.workspaceId, frame.sourceKind, frame.sourceId) = none := by
    cases htombstone : s.tombstones.get (frame.workspaceId, frame.sourceKind, frame.sourceId) with
    | none => rfl
    | some tombstone =>
      have hthere : (s.tombstones.get frame.source).isSome = true := by
        show (s.tombstones.get (frame.workspaceId, frame.sourceKind, frame.sourceId)).isSome = true
        rw [htombstone]
        rfl
      exact absurd rfl (hburied _ hthere frame hstored)
  unfold ActivityFrameStore.reservable ActivityFrame.reservation
  simp only [Option.bind_eq_bind, Option.bind_eq_some_iff, guard_some]
  constructor
  · rintro ⟨reserved, _, ⟨hauthority, hinterruptible⟩, row, hfind, _, hcontext, _, -, _, hlive, _, hfeedback, _, hcooled, _, -,
      _, -, _, hbudget, _, hshare, _, hpreference, -⟩
    have hmatch := List.find?_some hfind
    simp only [Bool.and_eq_true, decide_eq_true_eq] at hmatch
    obtain rfl : row = frame := FrameTable.key_inj (List.mem_of_find?_eq_some hfind) hstored hmatch.1.1
    have hboth := lt_min_iff.mp hlive
    refine ⟨hboth.1, hboth.2, hauthority, hinterruptible, hcontext, hfeedback, hcooled, ?_, ?_, hpreference⟩
    · rw [← hdaily]
      exact hbudget
    · rw [← hcategory]
      exact hshare
  · rintro ⟨hlive, hretained, hclear⟩
    have hexpiry : now < min frame.expiresAt (frame.sourceCreatedAt + settings.retentionDays * 86400) :=
      lt_min hlive hretained
    refine ⟨_, (), ⟨hclear.authority, hclear.interruptible⟩, frame, find_live hstored hlive, (), hclear.context, (), htombstone,
      (), hexpiry, (), hclear.feedback, (), hclear.cooled, (), Or.inl hunclaimed.1, (), alone_unclaimed hunclaimed, (), ?_, (), ?_,
      (), hclear.preference, (), ?_, rfl⟩
    · have hbudget := hclear.daily
      rw [← hdaily] at hbudget
      exact hbudget
    · rw [hcategory]
      exact hclear.category
    · refine lt_min ?_ hexpiry
      cases hgiven : expiresAt with
      | none => exact hexpiry
      | some t => exact hexpires t hgiven

/-- `reserve_opportunity` succeeds for a frame that is stored and has no opportunity exactly
where it has not expired, its retention has not run out and the gates are open. -/
theorem reserves_iff {workspaceId requestId : String} {expiresAt : Option ℚ}
    (hworkspace : boundedId workspaceId "workspaceId" = .ok frame.workspaceId) (hstored : frame ∈ s.frames.rows)
    (hburied : Buried s) (hunclaimed : Unclaimed host s frame)
    (hsettings : s.settingsOf host frame.workspaceId = .ok settings) (hexpires : ∀ t, expiresAt = some t → now < t) :
    Reserves host s now (frame.reservation host workspaceId requestId interruptible expiresAt) ↔
      now < frame.expiresAt ∧ now < frame.sourceCreatedAt + settings.retentionDays * 86400 ∧
        Clear host s now settings frame interruptible := by
  rw [← reservable_iff hstored hburied hunclaimed hexpires]
  unfold Reserves ActivityFrameStore.reserveOpportunity
  constructor
  · rintro ⟨s', h⟩
    obtain ⟨workspace, hid, h⟩ := bind_ok.mp h
    obtain rfl : workspace = frame.workspaceId := Except.ok.inj (hid.symm.trans hworkspace)
    obtain ⟨settings', hsettings', h⟩ := bind_ok.mp h
    rw [hsettings] at hsettings'
    rw [← Except.ok.inj hsettings'] at h
    split at h
    · have hrefused := (Prod.mk.inj (pure_ok.mp h)).2
      cases hrefused
    · exact ⟨_, ‹_›⟩
  · rintro ⟨reserved, hreserved⟩
    have hnew : reserved.renews = false := by
      obtain ⟨row, hchecked⟩ := reservable_checked hreserved
      obtain ⟨-, existing, hexisting, -⟩ | hnew := hchecked.row
      · have hnone : s.opportunities.get (frame.workspaceId, frame.jobId host) = some existing := hexisting
        rw [hunclaimed.1] at hnone
        cases hnone
      · exact hnew.1
    have hfree : (s.opportunities.get (frame.workspaceId,
        (frame.reservation host workspaceId requestId interruptible expiresAt).jobId)).isNone = true := by
      show (s.opportunities.get (frame.workspaceId, frame.jobId host)).isNone = true
      rw [hunclaimed.1]
      rfl
    rw [show boundedId (frame.reservation host workspaceId requestId interruptible expiresAt).workspaceId "workspaceId" =
      .ok frame.workspaceId from hworkspace]
    show ∃ s', (s.settingsOf host frame.workspaceId >>= fun settings => _) = Except.ok (s', true)
    rw [hsettings]
    dsimp only [bind, Except.bind]
    rw [hreserved]
    dsimp only
    rw [hnew, if_neg Bool.false_ne_true, hfree]
    exact ⟨_, rfl⟩

end Verdicts

/-! ## Agreement -/

/-- In every state that is reached, the two verdicts on a stored frame without an opportunity
agree exactly where its retention, as the settings are now, has not run out, unless the frame has
expired itself or another gate is closed. -/
theorem gates_agree {host : Host} {t₀ now : ℚ} {hist : List (Op × ℚ)} {s : System} {frame : ActivityFrame}
    {settings : ProactiveSettings} {workspaceId requestId : String} {interruptible : Bool} {expiresAt : Option ℚ}
    (hrun : Run (System.Step host) (System.start t₀) hist s) (hstored : frame ∈ s.store.frames.rows)
    (hworkspace : boundedId workspaceId "workspaceId" = .ok frame.workspaceId)
    (hframe : boundedId frame.frameId "frameId" = .ok frame.frameId) (hunclaimed : Unclaimed host s.store frame)
    (hsettings : s.store.settingsOf host frame.workspaceId = .ok settings) (hexpires : ∀ t, expiresAt = some t → now < t) :
    (Allows host s.store now workspaceId frame interruptible ↔
        Reserves host s.store now (frame.reservation host workspaceId requestId interruptible expiresAt)) ↔
      now < frame.sourceCreatedAt + settings.retentionDays * 86400 ∨ frame.expiresAt ≤ now ∨
        ¬ Clear host s.store now settings frame interruptible := by
  rw [allows_iff hworkspace hframe hstored hunclaimed hsettings,
    reserves_iff hworkspace hstored (run_buried hrun) hunclaimed hsettings hexpires]
  constructor
  · intro hagree
    by_cases hlive : now < frame.expiresAt
    · by_cases hclear : Clear host s.store now settings frame interruptible
      · exact Or.inl (hagree.mp ⟨hlive, hclear⟩).2.1
      · exact Or.inr (Or.inr hclear)
    · exact Or.inr (Or.inl (not_lt.mp hlive))
  · rintro (hretained | hexpired | hclosed)
    · exact ⟨fun h => ⟨h.1, hretained, h.2⟩, fun h => ⟨h.1, h.2.2⟩⟩
    · exact ⟨fun h => absurd h.1 (not_lt.mpr hexpired), fun h => absurd h.1 (not_lt.mpr hexpired)⟩
    · exact ⟨fun h => absurd h.2 hclosed, fun h => absurd h.2.2 hclosed⟩

section Runs

def teaSeen : System := (Run.exec (System.next plainHost) (System.start 0) (teaMorning.take 2)).get (by decide +kernel)

theorem teaSeen_run : Run (System.Step plainHost) (System.start 0) (teaMorning.take 2).reverse teaSeen :=
  Run.of_exec (Option.some_get _).symm

/-- The retention is shortened before the frame comes in, which was projected for a week. -/
def teaStale : System :=
  (Run.exec (System.next plainHost) (System.start 0)
    [(.patchSettings "home" { enabled := some true } 0, 10), (.patchSettings "home" { retentionDays := some 1 } 1, 15),
      (.upsertFrame (sampleFrame "tea" "conversation"), 20)]).get (by decide +kernel)

theorem teaStale_run : ∃ hist, Run (System.Step plainHost) (System.start 0) hist teaStale :=
  ⟨_, Run.of_exec (Option.some_get _).symm⟩

theorem tea_unclaimed {s : System} (h : s.store.opportunities = Dict.empty) :
    Unclaimed plainHost s.store (sampleFrame "tea" "conversation") := by
  unfold Unclaimed
  rw [h]
  exact ⟨rfl, fun k row hrow => by cases hrow⟩

def seenSettings : ProactiveSettings :=
  { ({} : ProactiveSettings) with enabled := true }

theorem teaSeen_settings : teaSeen.store.settingsOf plainHost "home" = .ok seenSettings := by decide +kernel

theorem teaSeen_stored : sampleFrame "tea" "conversation" ∈ teaSeen.store.frames.rows := by decide +kernel

theorem gates_agree_tea :
    (Allows plainHost teaSeen.store 30 "home" (sampleFrame "tea" "conversation") true ↔
        Reserves plainHost teaSeen.store 30 ((sampleFrame "tea" "conversation").reservation plainHost "home" "ask" true none)) ↔
      30 < (sampleFrame "tea" "conversation").sourceCreatedAt + seenSettings.retentionDays * 86400 ∨
        (sampleFrame "tea" "conversation").expiresAt ≤ 30 ∨
          ¬ Clear plainHost teaSeen.store 30 seenSettings (sampleFrame "tea" "conversation") true :=
  gates_agree teaSeen_run teaSeen_stored (by decide +kernel) (by decide +kernel) (tea_unclaimed (by decide +kernel))
    teaSeen_settings (fun _ h => by cases h)

/-- A frame that outlives its retention is allowed, and its reservation is refused. -/
theorem stale_frame_refused : ¬ ∀ (host : Host) (t₀ now : ℚ) (hist : List (Op × ℚ)) (s : System) (frame : ActivityFrame)
    (requestId : String) (interruptible : Bool) (expiresAt : Option ℚ),
    Run (System.Step host) (System.start t₀) hist s → frame ∈ s.store.frames.rows → now < frame.expiresAt →
      Unclaimed host s.store frame → (∀ t, expiresAt = some t → now < t) →
        (Allows host s.store now frame.workspaceId frame interruptible ↔
          Reserves host s.store now (frame.reservation host frame.workspaceId requestId interruptible expiresAt)) := by
  intro hagree
  obtain ⟨hist, hrun⟩ := teaStale_run
  have hverdicts := hagree plainHost 0 100000 hist teaStale (sampleFrame "tea" "conversation") "ask" true none hrun
    (by decide +kernel) (by decide +kernel) (tea_unclaimed (by decide +kernel)) (fun _ h => by cases h)
  have hallowed : (teaStale.store.evaluate plainHost 100000 "home" (sampleFrame "tea" "conversation") true).toOption.map
      (fun decision => decision.allowed) = some true := by decide +kernel
  have hrefused : (teaStale.store.reserveOpportunity plainHost 100000
      ((sampleFrame "tea" "conversation").reservation plainHost "home" "ask" true none)).toOption.map
      (fun answer => answer.2) = some false := by decide +kernel
  have hallows : Allows plainHost teaStale.store 100000 "home" (sampleFrame "tea" "conversation") true := by
    unfold Allows
    cases hdecision : teaStale.store.evaluate plainHost 100000 "home" (sampleFrame "tea" "conversation") true with
    | error e =>
      rw [hdecision] at hallowed
      exact nomatch hallowed
    | ok decision =>
      rw [hdecision] at hallowed
      exact ⟨decision, rfl, Option.some.inj hallowed⟩
  obtain ⟨s', hs'⟩ := hverdicts.mp hallows
  rw [show (sampleFrame "tea" "conversation").workspaceId = "home" from rfl] at hs'
  rw [hs'] at hrefused
  exact absurd (Option.some.inj hrefused) Bool.noConfusion

end Runs

end Activity
