import Yuizaki.Activity.Deleted

/- The budget of one activity category.

   The store does not keep the category of an opportunity: it looks it up through the frame, at
   the time it counts, and it counts when it reserves but not when it delivers. `Ledger` is the
   record that is missing, the category each opportunity was granted under. As long as the frames
   behind the used opportunities of a day still say that category when one more of it is granted,
   and an opportunity is delivered on the day it was granted for, the used opportunities of a
   category never exceed its budget (`Turn.used`); a deleted frame lets one more in. -/
namespace Activity

open Transition Fallible

/-- The store with the category that each opportunity was granted under. -/
structure Ledger where
  system : System
  category : String × String → String

/-- A step, with the record of what it grants. -/
def Ledger.Step (host : Host) (s : Ledger) (l : Op × ℚ) (s' : Ledger) : Prop :=
  System.Step host s.system l s'.system ∧
    s'.category = match l.1.grants host l.2 s.system.store with
      | some (key, category) => fun k => if k = key then category else s.category k
      | none => s.category

/-- A store with settings and nothing else. -/
def Ledger.fresh (settings : Dict String SettingsRow) (clock : ℚ) : Ledger :=
  ⟨⟨{ ActivityFrameStore.empty with settings }, clock⟩, fun _ => defaultActivityCategory⟩

/-- The budget of a category in a workspace, whatever else its settings say. -/
def FixedBudget (host : Host) (workspace category : String) (budget : ℕ) (s : Ledger) : Prop :=
  ∀ settings, s.system.store.settingsOf host workspace = .ok settings → categoryBudget settings category = budget

/-- The used opportunities of a workspace and a local date that were granted under a category. -/
def used (d : Dict (String × String) Opportunity) (recorded : String × String → String)
    (workspace localDate category : String) : ℕ :=
  d.count fun key row => key.1 = workspace && row.localDate = localDate && row.usesBudget && recorded key = category

def deliveredIn (s : Ledger) (workspace localDate category : String) : ℕ :=
  s.system.store.opportunities.count fun key row =>
    key.1 = workspace && row.localDate = localDate && row.status = .delivered && s.category key = category

/-- A step finds the categories as they were: where it grants an opportunity of a category, the
frames behind the used opportunities of that day and category still say so, and where it
delivers an opportunity, it does so on the local date that was reserved. -/
def FindsCategories (host : Host) (s : Ledger) (l : Op × ℚ) : Prop :=
  (∀ key category, l.1.grants host l.2 s.system.store = some (key, category) →
    ∀ settings, s.system.store.settingsOf host key.1 = .ok settings →
    ∀ k row, s.system.store.opportunities.get k = some row → k.1 = key.1 → k ≠ key →
      row.localDate = (host.localClock l.2 settings.timezone).1 → row.usesBudget = true →
      s.category k = category → s.system.store.categoryOf host k.1 row.frameId = category) ∧
  ∀ r settings row, l.1 = .resolveOpportunity r → r.outcome = .delivered →
    s.system.store.settingsOf host r.workspaceId = .ok settings →
    s.system.store.opportunities.get (r.workspaceId, r.jobId) = some row → row.status = .pending →
    row.localDate = (host.localClock l.2 settings.timezone).1

/-- The steps under a fixed budget of a category. -/
def Ledger.FixedStep (host : Host) (workspace category : String) (budget : ℕ) (s : Ledger) (l : Op × ℚ)
    (s' : Ledger) : Prop :=
  s.Step host l s' ∧ FixedBudget host workspace category budget s

/-- Those that find the categories as they were. -/
def Ledger.FaithfulStep (host : Host) (workspace category : String) (budget : ℕ) (s : Ledger) (l : Op × ℚ)
    (s' : Ledger) : Prop :=
  s.FixedStep host workspace category budget l s' ∧ FindsCategories host s l

section Turns

variable {host : Host} {now : ℚ} {s : ActivityFrameStore} {op : Op} {d : Dict (String × String) Opportunity}
  {recorded : String × String → String} {workspace localDate category : String} {budget : ℕ}
  {key : String × String} {row : Opportunity}

theorem used_set {newCategory : String} :
    used (d.set key row) (fun k => if k = key then newCategory else recorded k) workspace localDate category =
      d.count (fun k v => decide (k ≠ key) && (decide (k.1 = workspace) && decide (v.localDate = localDate) &&
        v.usesBudget && decide (recorded k = category))) +
      if key.1 = workspace ∧ row.localDate = localDate ∧ row.usesBudget = true ∧ newCategory = category then 1
      else 0 := by
  unfold used
  rw [Dict.count_set]
  congr 1
  · apply Dict.count_congr
    intro k v _
    by_cases hk : k = key
    · simp [hk]
    · simp [hk]
  · simp [and_assoc]

variable (key) in
theorem others_le_used : d.count (fun k v => decide (k ≠ key) && (decide (k.1 = workspace) &&
      decide (v.localDate = localDate) && v.usesBudget && decide (recorded k = category))) ≤
    used d recorded workspace localDate category := by
  apply Dict.count_le
  intro k v _ hcounts
  rw [Bool.and_eq_true] at hcounts
  exact hcounts.2

/-- Putting an opportunity that is granted under a key keeps the budget, where the others of its
date and category are within it. -/
theorem used_granted {newCategory : String} (hkept : ∀ date, used d recorded workspace date category ≤ budget)
    (hroom : key.1 = workspace → newCategory = category →
      d.count (fun k v => decide (k ≠ key) && (decide (k.1 = workspace) && decide (v.localDate = row.localDate) &&
        v.usesBudget && decide (recorded k = category))) < budget) :
    ∀ date, used (d.set key row) (fun k => if k = key then newCategory else recorded k) workspace date category ≤
      budget := by
  intro date
  rw [used_set]
  have hothers : _ ≤ used d recorded workspace date category := others_le_used key
  have hold := hkept date
  split
  · rename_i hnew
    obtain ⟨hworkspace, rfl, -, hcategory⟩ := hnew
    have := hroom hworkspace hcategory
    omega
  · omega

/-- The budget of a category leaves room for one more where the others of the day are looked up
under the category they were granted under. -/
theorem Checked.room {settings : ProactiveSettings} {r : Reservation} {frame : ActivityFrame} {reserved : Reserved}
    (h : Checked host s now workspace settings r frame reserved)
    (hbudget : categoryBudget settings (s.categoryOf host workspace r.frameId) = budget)
    (hfinds : ∀ k row, s.opportunities.get k = some row → k.1 = workspace → k ≠ (workspace, r.jobId) →
      row.localDate = reserved.localDate → row.usesBudget = true →
      recorded k = s.categoryOf host workspace r.frameId →
      s.categoryOf host k.1 row.frameId = s.categoryOf host workspace r.frameId) :
    s.opportunities.count (fun k v => decide (k ≠ (workspace, r.jobId)) && (decide (k.1 = workspace) &&
      decide (v.localDate = reserved.localDate) && v.usesBudget &&
      decide (recorded k = s.categoryOf host workspace r.frameId))) < budget := by
  have hcategory : s.categoryOf host workspace r.frameId = activityCategory host frame.signals := by
    unfold ActivityFrameStore.categoryOf
    rw [FrameTable.find_of_mem h.found h.key]
    rfl
  have husage := h.category
  rw [← hcategory, hbudget] at husage
  -- what the ledger counts is counted by the query
  have hle : s.opportunities.count (fun k v => decide (k ≠ (workspace, r.jobId)) && (decide (k.1 = workspace) &&
      decide (v.localDate = reserved.localDate) && v.usesBudget &&
      decide (recorded k = s.categoryOf host workspace r.frameId))) ≤
      s.categoryUsage host workspace reserved.localDate (s.categoryOf host workspace r.frameId) r.jobId := by
    apply Dict.count_le
    intro k v hv hcounts
    simp only [Bool.and_eq_true, decide_eq_true_eq] at hcounts ⊢
    obtain ⟨hne, ⟨⟨hworkspace, hdate⟩, huses⟩, hrecorded⟩ := hcounts
    have hjob : k.2 ≠ r.jobId := fun heq => hne (Prod.ext hworkspace heq)
    have hfound := hfinds k v hv hworkspace hne hdate huses hrecorded
    rw [hworkspace] at hfound
    exact ⟨⟨⟨⟨hworkspace, hdate⟩, huses⟩, hjob⟩, hfound⟩
  have hcast : (s.categoryUsage host workspace reserved.localDate (s.categoryOf host workspace r.frameId) r.jobId : ℤ) <
    budget := husage
  omega

theorem used_cancelled {p : String × String → Opportunity → Bool} :
    used (d.mapValues (cancelledIf now p)) recorded workspace localDate category ≤
      used d recorded workspace localDate category := by
  unfold used
  rw [Dict.count_mapValues]
  apply Dict.count_le
  intro k v _ hcounts
  unfold cancelledIf at hcounts
  split at hcounts
  · simp [Opportunity.usesBudget] at hcounts
  · exact hcounts

theorem used_settled {new : Opportunity} (hrow : d.get key = some row) (hpending : row.status = .pending)
    (hdate : new.usesBudget = true → new.localDate = row.localDate) :
    used (d.set key new) recorded workspace localDate category ≤ used d recorded workspace localDate category := by
  have hcount := Dict.count_set_old (fun key row => key.1 = workspace && row.localDate = localDate &&
    row.usesBudget && recorded key = category) new hrow
  have huses : row.usesBudget = true := by
    unfold Opportunity.usesBudget
    rw [hpending]
    rfl
  unfold used
  cases hnew : new.usesBudget with
  | false =>
    simp only [hnew, Bool.and_false, Bool.false_and, Bool.false_eq_true, if_false, add_zero] at hcount
    omega
  | true =>
    simp only [hnew, huses, hdate hnew] at hcount
    omega

end Turns

/-! ## Every run -/

section Runs

variable {host : Host} {l : Op × ℚ} {s s' : Ledger} {workspace category : String} {budget : ℕ}

theorem Ledger.FaithfulStep.used (h : s.FaithfulStep host workspace category budget l s')
    (hkept : ∀ date, used s.system.store.opportunities s.category workspace date category ≤ budget) :
    ∀ date, used s'.system.store.opportunities s'.category workspace date category ≤ budget := by
  obtain ⟨⟨⟨hstep, hcategory⟩, hfixed⟩, hgrant, hdeliver⟩ := h
  have hgranted : ∀ {r : Reservation} {reserved : Reserved} {key : String} {settings : ProactiveSettings}
      {row : Opportunity}, s.system.store.settingsOf host key = .ok settings →
      s.system.store.reservable host l.2 key settings r = some reserved → row.localDate = reserved.localDate →
      l.1.grants host l.2 s.system.store = some ((key, r.jobId), s.system.store.categoryOf host key r.frameId) →
      ∀ date, Activity.used (s.system.store.opportunities.set (key, r.jobId) row) s'.category workspace date category ≤
        budget := by
    intro r reserved key settings row hsettings hreserve hrowDate hgrants
    obtain ⟨frame, hchecked⟩ := reservable_checked hreserve
    rw [hgrants] at hcategory
    rw [hcategory]
    refine used_granted hkept fun hworkspace hsame => ?_
    obtain rfl : key = workspace := hworkspace
    rw [hrowDate, ← hsame]
    refine hchecked.room ?_ fun k v hv hk hne hdate huses hrecorded => ?_
    · rw [hsame]
      exact hfixed settings hsettings
    · exact hgrant _ _ hgrants settings hsettings k v hv hk hne (hdate.trans hchecked.date) huses hrecorded
  have hturn := hstep.turn
  generalize s'.system.store.opportunities = d' at hturn ⊢
  cases hturn with
  | cancels hgrants p =>
    rw [hgrants] at hcategory
    rw [hcategory]
    intro date
    exact used_cancelled.trans (hkept date)
  | reserves hsettings hreserve hfree hgrants => exact hgranted hsettings hreserve rfl hgrants
  | renews hsettings hreserve hrow hpending hframe hkind hgrants => exact hgranted hsettings hreserve rfl hgrants
  | @settles r row localDate hop hrow hpending hkind houtcome hdelivered =>
    rw [hop] at hcategory
    rw [show s'.category = s.category from hcategory]
    intro date
    refine (used_settled hrow hpending fun huses => ?_).trans (hkept date)
    by_cases hdone : r.outcome = .delivered
    · obtain ⟨settings, day, hsettings, hday, rfl⟩ := hdelivered hdone
      rw [hdeliver r settings row hop hdone hsettings hrow hpending]
      exact (deliverable_checked hday).1
    · simp [Opportunity.usesBudget, hdone, houtcome] at huses

theorem deliveredIn_le_used {date : String} :
    deliveredIn s workspace date category ≤ used s.system.store.opportunities s.category workspace date category := by
  apply Dict.count_le
  intro k row _ hcounts
  simp only [Bool.and_eq_true, decide_eq_true_eq] at hcounts ⊢
  obtain ⟨⟨hplace, hdelivered⟩, hcategory⟩ := hcounts
  refine ⟨⟨hplace, ?_⟩, hcategory⟩
  unfold Opportunity.usesBudget
  rw [hdelivered]
  rfl

/-- In every run under a fixed budget of a category, each step of which finds the categories as
they were, no local date has more opportunities of the category delivered than its budget. -/
theorem category_budget {settings : Dict String SettingsRow} {t₀ : ℚ} {hist : List (Op × ℚ)}
    (hrun : Run (Ledger.FaithfulStep host workspace category budget) (Ledger.fresh settings t₀) hist s) :
    ∀ date, deliveredIn s workspace date category ≤ budget := by
  have hused : ∀ date, used s.system.store.opportunities s.category workspace date category ≤ budget := by
    refine hrun.invariant (I := fun s : Ledger => ∀ date,
      used s.system.store.opportunities s.category workspace date category ≤ budget) ?_ ?_
    · intro date
      exact Nat.zero_le _
    · intro s l s' hkept hstep
      exact hstep.used hkept
  intro date
  exact deliveredIn_le_used.trans (hused date)

/-! ## A deleted frame -/

/-- The steps under a fixed budget, computed. -/
def Ledger.next (host : Host) (workspace category : String) (budget : ℕ) (s : Ledger) (l : Op × ℚ) : Option Ledger :=
  match s.system.store.settingsOf host workspace with
  | .error _ => none
  | .ok settings =>
    if categoryBudget settings category = budget then
      (s.system.next host l).map fun system => ⟨system, match l.1.grants host l.2 s.system.store with
        | some (key, category) => fun k => if k = key then category else s.category k
        | none => s.category⟩
    else none

theorem Ledger.next_step (h : s.next host workspace category budget l = some s') :
    s.FixedStep host workspace category budget l s' := by
  unfold Ledger.next at h
  cases hsettings : s.system.store.settingsOf host workspace with
  | error e =>
    rw [hsettings] at h
    cases h
  | ok settings =>
    rw [hsettings] at h
    dsimp only at h
    split at h
    · rename_i hbudget
      obtain ⟨system, hsystem, rfl⟩ := Option.map_eq_some_iff.mp h
      refine ⟨⟨hsystem, rfl⟩, fun settings' hsettings' => ?_⟩
      obtain rfl := Except.ok.inj (hsettings.symm.trans hsettings')
      exact hbudget
    · cases h

end Runs

/-- One conversation a day, without a cooldown. -/
def talkSettings : Dict String SettingsRow :=
  Dict.empty.set "home" ⟨{
    enabled := true
    cooldownSeconds := 0
    categoryBudgets := Dict.empty.set "conversation" 1 }, 1, 0⟩

def talkStart : Ledger := Ledger.fresh talkSettings 0

/-- A frame comes in, its opportunity is reserved and delivered. -/
def talkSeen : Ledger :=
  (talkStart.next plainHost "home" "conversation" 1 (.upsertFrame (sampleFrame "tea" "conversation"), 10)).get
    (by decide +kernel)

def talkReserved : Ledger :=
  (talkSeen.next plainHost "home" "conversation" 1 (reserveSample "tea", 20)).get (by decide +kernel)

def talkDelivered : Ledger :=
  (talkReserved.next plainHost "home" "conversation" 1 (deliverSample "tea", 30)).get (by decide +kernel)

/-- The delivered frame is deleted; another frame of the category is delivered the same day. -/
def talkRepeated : Ledger :=
  (Run.exec (Ledger.next plainHost "home" "conversation" 1) talkDelivered
    [(.deleteFrame "home" "af_tea" "user_deleted", 40), (.upsertFrame (sampleFrame "cake" "conversation"), 50),
      (reserveSample "cake", 60), (deliverSample "cake", 70)]).get (by decide +kernel)

theorem talkSeen_step : talkStart.FixedStep plainHost "home" "conversation" 1
    (.upsertFrame (sampleFrame "tea" "conversation"), 10) talkSeen := Ledger.next_step (Option.some_get _).symm

theorem talkReserved_step : talkSeen.FixedStep plainHost "home" "conversation" 1 (reserveSample "tea", 20)
    talkReserved := Ledger.next_step (Option.some_get _).symm

theorem talkDelivered_step : talkReserved.FixedStep plainHost "home" "conversation" 1 (deliverSample "tea", 30)
    talkDelivered := Ledger.next_step (Option.some_get _).symm

/-- The first delivery of the day is within the budget. -/
theorem category_budget_tea : deliveredIn talkDelivered "home" "1970-01-01" "conversation" ≤ 1 := by
  have hnone : talkSeen.system.store.opportunities = Dict.empty := by decide +kernel
  have hrow : talkReserved.system.store.opportunities.get ("home", "job_tea") =
      some ⟨"req_tea", "af_tea", sourceKind, "1970-01-01", .pending, 20, none, some 604800⟩ := by decide +kernel
  have hseen : talkStart.FaithfulStep plainHost "home" "conversation" 1
      (.upsertFrame (sampleFrame "tea" "conversation"), 10) talkSeen := by
    refine ⟨talkSeen_step, fun key category hgrants => (by cases hgrants), fun r settings row hop => ?_⟩
    cases hop
  have hreserved : talkSeen.FaithfulStep plainHost "home" "conversation" 1 (reserveSample "tea", 20) talkReserved := by
    refine ⟨talkReserved_step, fun key category _ settings _ k row hold => ?_, fun r settings row hop => ?_⟩
    · rw [hnone] at hold
      cases hold
    · cases hop
  have hdelivered : talkReserved.FaithfulStep plainHost "home" "conversation" 1 (deliverSample "tea", 30)
      talkDelivered := by
    refine ⟨talkDelivered_step, fun key category hgrants => (by cases hgrants), ?_⟩
    intro r settings row hop _ _ hget _
    obtain rfl := Op.resolveOpportunity.inj hop
    obtain rfl := Option.some.inj (hrow.symm.trans hget)
    rfl
  exact category_budget (Run.next (Run.next (Run.next Run.start hseen) hreserved) hdelivered) "1970-01-01"

/-- A frame that was deleted is counted under no category, so the budget lets one more in. -/
theorem deleted_frame_frees_budget : ∃ hist s,
    Run (Ledger.FixedStep plainHost "home" "conversation" 1) (Ledger.fresh talkSettings 0) hist s ∧
      ¬ deliveredIn s "home" "1970-01-01" "conversation" ≤ 1 := by
  have hrepeated := (Run.of_exec (Option.some_get _).symm : Run _ talkDelivered _ talkRepeated)
  have hfirst : Run (Ledger.FixedStep plainHost "home" "conversation" 1) talkStart _ talkDelivered :=
    Run.next (Run.next (Run.next Run.start talkSeen_step) talkReserved_step) talkDelivered_step
  exact ⟨_, talkRepeated, hfirst.append (hrepeated.mono fun s l s' hnext => Ledger.next_step hnext), by decide +kernel⟩

end Activity
