import Yuizaki.Activity.Store
import Yuizaki.Lib.Run

/- Runs of the activity store, and what one operation does to the opportunities.

   The operations come one after another, each at a time that is not before the last one; an
   operation that raises is no step. `Turn` lists what an operation can do to the table of
   opportunities: cancel pending rows, reserve a row that was not there, renew a pending row, or
   settle one. Every invariant of the opportunities is read off that list (`Op.turn`). -/
namespace Activity

open Transition Fallible

inductive Op where
  | upsertFrame (frame : ActivityFrame)
  | project (event : TurnEvent)
  | rebuildOne (workspaceId : String) (commit : TurnEvent)
  | deleteFrame (workspaceId frameId reason : String)
  | tombstoneSource (workspaceId kind sourceId reason : String)
  | pruneExpired (workspaceId : String)
  | patchSettings (workspaceId : String) (patch : SettingsPatch) (expectedRevision : ℤ)
  | reserveOpportunity (r : Reservation)
  | resolveOpportunity (r : Resolution)
  | cancelPending (workspaceId kind : String) (frameId : Option String)
  | recordFeedback (r : FeedbackRecord)
  | listFeedback (workspaceId : String)

/-- What an operation leaves of the store. -/
def Op.run (host : Host) (s : ActivityFrameStore) (now : ℚ) : Op → Except ActivityError ActivityFrameStore
  | .upsertFrame frame => (·.1) <$> s.upsertFrame frame
  | .project event => s.project host event
  | .rebuildOne workspaceId commit => s.rebuildOne host workspaceId commit
  | .deleteFrame workspaceId frameId reason => (·.1) <$> s.deleteFrame now workspaceId frameId reason
  | .tombstoneSource workspaceId kind sourceId reason => s.tombstoneSource host now workspaceId kind sourceId reason
  | .pruneExpired workspaceId => s.pruneExpired now workspaceId
  | .patchSettings workspaceId patch expectedRevision => s.patchSettings host now workspaceId patch expectedRevision
  | .reserveOpportunity r => (·.1) <$> s.reserveOpportunity host now r
  | .resolveOpportunity r => (·.1) <$> s.resolveOpportunity host now r
  | .cancelPending workspaceId kind frameId => s.cancelPending now workspaceId kind frameId
  | .recordFeedback r => (·.1) <$> s.recordFeedback host now r
  | .listFeedback workspaceId => s.listFeedback now workspaceId

/-- The store and the time of the last operation. -/
structure System where
  store : ActivityFrameStore
  clock : ℚ
deriving DecidableEq

def System.start (clock : ℚ) : System := ⟨ActivityFrameStore.empty, clock⟩

def System.next (host : Host) (s : System) (l : Op × ℚ) : Option System :=
  if s.clock ≤ l.2 then
    match l.1.run host s.store l.2 with
    | .ok store => some ⟨store, l.2⟩
    | .error _ => none
  else none

def System.Step (host : Host) (s : System) (l : Op × ℚ) (s' : System) : Prop := s.next host l = some s'

/-! ## What an operation does to the opportunities -/

/-- The opportunity that an operation is granted, new or once more, and the category of its frame. -/
def Op.grants (host : Host) (now : ℚ) (s : ActivityFrameStore) : Op → Option ((String × String) × String)
  | .reserveOpportunity r =>
    match s.reserveOpportunity host now r with
    | .ok (_, true) =>
      some ((PyStr.strip r.workspaceId, r.jobId), s.categoryOf host (PyStr.strip r.workspaceId) r.frameId)
    | _ => none
  | _ => none

/-- What an operation can make of the opportunities. -/
inductive Turn (host : Host) (now : ℚ) (s : ActivityFrameStore) (op : Op) :
    Dict (String × String) Opportunity → Prop
  | cancels (hgrants : op.grants host now s = none) (p : String × String → Opportunity → Bool) :
      Turn host now s op (s.opportunities.mapValues (cancelledIf now p))
  | reserves {workspace : String} {settings : ProactiveSettings} {r : Reservation} {reserved : Reserved}
      (hsettings : s.settingsOf host workspace = .ok settings)
      (hreserve : s.reservable host now workspace settings r = some reserved)
      (hfree : s.opportunities.get (workspace, r.jobId) = none)
      (hgrants : op.grants host now s = some ((workspace, r.jobId), s.categoryOf host workspace r.frameId)) :
      Turn host now s op (s.opportunities.set (workspace, r.jobId)
        ⟨r.requestId, r.frameId, r.sourceKind, reserved.localDate, .pending, now, none, some reserved.expiresAt⟩)
  | renews {workspace : String} {settings : ProactiveSettings} {r : Reservation} {reserved : Reserved}
      {row : Opportunity}
      (hsettings : s.settingsOf host workspace = .ok settings)
      (hreserve : s.reservable host now workspace settings r = some reserved)
      (hrow : s.opportunities.get (workspace, r.jobId) = some row)
      (hpending : row.status = .pending) (hframe : row.frameId = r.frameId)
      (hkind : row.sourceKind = r.sourceKind)
      (hgrants : op.grants host now s = some ((workspace, r.jobId), s.categoryOf host workspace r.frameId)) :
      Turn host now s op (s.opportunities.set (workspace, r.jobId)
        { row with localDate := reserved.localDate, expiresAt := some reserved.expiresAt })
  | settles {r : Resolution} {row : Opportunity} {localDate : Option String} (hop : op = .resolveOpportunity r)
      (hrow : s.opportunities.get (r.workspaceId, r.jobId) = some row)
      (hpending : row.status = .pending) (hkind : row.sourceKind = r.sourceKind)
      (houtcome : r.outcome ≠ .pending)
      (hdelivered : r.outcome = .delivered → ∃ settings date, s.settingsOf host r.workspaceId = .ok settings ∧
        s.deliverable host now settings r row = some date ∧ localDate = some date) :
      Turn host now s op (s.opportunities.set (r.workspaceId, r.jobId)
        { row with status := r.outcome, resolvedAt := some now, localDate := localDate.getD row.localDate })

section Rules

variable {host : Host} {s s' : ActivityFrameStore} {now : ℚ} {workspace : String}
  {p q : String × String → Opportunity → Bool} {d : Dict (String × String) Opportunity}

theorem cancelledIf_never : d.mapValues (cancelledIf now fun _ _ => false) = d := by
  have hsame : cancelledIf now (fun _ _ => false) = fun _ row => row := by
    funext key row
    exact if_neg fun h => Bool.false_ne_true h.1
  have hmap : d.entries.map (fun e => (e.1, e.2)) = d.entries := List.map_id _
  rw [hsame]
  unfold Dict.mapValues
  simp only [hmap]

theorem cancelledIf_cancelledIf : (d.mapValues (cancelledIf now p)).mapValues (cancelledIf now q) =
    d.mapValues (cancelledIf now fun key row => p key row || q key row) := by
  have hsame : ∀ key row, cancelledIf now q key (cancelledIf now p key row) =
      cancelledIf now (fun key row => p key row || q key row) key row := by
    intro key row
    unfold cancelledIf
    by_cases hpending : row.status = .pending
    · cases hp : p key row with
      | false => simp [hpending, hp]
      | true => simp [hpending, hp]
    · simp only [hpending, and_false, if_false]
  unfold Dict.mapValues
  simp only [List.map_map]
  congr 1
  apply List.map_congr_left
  intro e _
  exact congrArg (Prod.mk e.1) (hsame e.1 e.2)

/-- Pending rows are cancelled and nothing else happens to the opportunities. -/
def Cancels (now : ℚ) (d d' : Dict (String × String) Opportunity) : Prop :=
  ∃ p, d' = d.mapValues (cancelledIf now p)

theorem Cancels.refl (d : Dict (String × String) Opportunity) : Cancels now d d :=
  ⟨fun _ _ => false, cancelledIf_never.symm⟩

theorem Cancels.trans {d d' d'' : Dict (String × String) Opportunity} (h : Cancels now d d')
    (h' : Cancels now d' d'') : Cancels now d d'' := by
  obtain ⟨p, rfl⟩ := h
  obtain ⟨q, rfl⟩ := h'
  exact ⟨_, cancelledIf_cancelledIf⟩

theorem cancels_cancelWhere : Cancels now s.opportunities (s.cancelWhere now p).opportunities := ⟨p, rfl⟩

theorem Cancels.turn {op : Op} {d' : Dict (String × String) Opportunity} (h : Cancels now s.opportunities d')
    (hgrants : op.grants host now s = none) : Turn host now s op d' := by
  obtain ⟨p, rfl⟩ := h
  exact Turn.cancels hgrants p

theorem cancels_pruneFrames (frames : List ActivityFrame) (s : ActivityFrameStore) :
    Cancels now s.opportunities
      (frames.foldl (fun s frame => s.pruneFrame now workspace frame) s).opportunities := by
  induction frames generalizing s with
  | nil => exact Cancels.refl _
  | cons frame rest ih =>
    have hfirst : Cancels now s.opportunities (s.pruneFrame now workspace frame).opportunities :=
      cancels_cancelWhere
    exact hfirst.trans (ih _)

theorem cancels_pruneExpiredLocked :
    Cancels now s.opportunities (s.pruneExpiredLocked now workspace).opportunities :=
  cancels_pruneFrames _ s

theorem guard_some {P : Prop} [Decidable P] {u : Unit} : (guard P : Option Unit) = some u ↔ P := by
  by_cases hP : P
  · simp [guard, hP]
  · simp [guard, hP]

theorem boundedId_eq {value field id : String} (h : boundedId value field = .ok id) : id = PyStr.strip value := by
  unfold boundedId at h
  obtain ⟨u, -, h⟩ := bind_ok.mp h
  exact (pure_ok.mp h).symm

/-- What a reservation has checked when it is granted: the frame and its source, the gates, and
the counts of the other opportunities of the frame, of the day and of the category. -/
structure Checked (host : Host) (s : ActivityFrameStore) (now : ℚ) (workspace : String)
    (settings : ProactiveSettings) (r : Reservation) (frame : ActivityFrame) (reserved : Reserved) : Prop where
  found : frame ∈ s.frames.rows
  key : frame.key = (workspace, r.frameId)
  kind : frame.sourceKind = r.sourceKind
  authority : authorityBlocked settings (host.localClock now settings.timezone).2 = false
  feedback : s.feedbackClear now workspace r.sourceKind settings = true
  cooled : s.cooledDown now workspace r.sourceKind settings = true
  row : (reserved.renews = true ∧ ∃ row, s.opportunities.get (workspace, r.jobId) = some row ∧
      row.status = .pending ∧ row.frameId = r.frameId ∧ row.sourceKind = r.sourceKind) ∨
    reserved.renews = false ∧ s.opportunities.get (workspace, r.jobId) = none
  alone : s.opportunities.count (fun key row =>
    key.1 = workspace && row.frameId = r.frameId && key.2 ≠ r.jobId) = 0
  category : (s.categoryUsage host workspace reserved.localDate (activityCategory host frame.signals) r.jobId : ℤ) <
    categoryBudget settings (activityCategory host frame.signals)
  date : reserved.localDate = (host.localClock now settings.timezone).1

theorem reservable_checked {settings : ProactiveSettings} {r : Reservation} {reserved : Reserved}
    (h : s.reservable host now workspace settings r = some reserved) :
    ∃ frame, Checked host s now workspace settings r frame reserved := by
  unfold ActivityFrameStore.reservable at h
  simp only [Option.bind_eq_bind, Option.bind_eq_some_iff, guard_some] at h
  obtain ⟨_, ⟨hauthority, -⟩, frame, hfind, _, -, _, -, _, -, _, hfeedback, _, hcooled, _, hrow, _, halone, _, -,
    _, hcategory, _, -, _, -, hreserved⟩ := h
  obtain rfl := Option.some.inj hreserved
  have hmatch := List.find?_some hfind
  simp only [Bool.and_eq_true, decide_eq_true_eq] at hmatch
  obtain ⟨⟨hkey, hkind⟩, -⟩ := hmatch
  refine ⟨frame, List.mem_of_find?_eq_some hfind, hkey, hkind, hauthority, hfeedback, hcooled, ?_, halone,
    hcategory, rfl⟩
  cases hget : s.opportunities.get (workspace, r.jobId) with
  | none => exact Or.inr ⟨rfl, rfl⟩
  | some row =>
    rw [hget] at hrow
    obtain hnone | hsame := hrow
    · cases hnone
    · refine Or.inl ⟨hsame, row, rfl, ?_⟩
      simp only [Option.any_some, Bool.and_eq_true, decide_eq_true_eq] at hsame
      obtain ⟨⟨⟨⟨-, hframe⟩, hkind⟩, hpending⟩, -⟩ := hsame
      exact ⟨hpending, hframe, hkind⟩

theorem upsertFrame_opportunities {frame : ActivityFrame} {b : Bool} (h : s.upsertFrame frame = .ok (s', b)) :
    s'.opportunities = s.opportunities := by
  unfold ActivityFrameStore.upsertFrame at h
  split at h
  · rw [← (Prod.mk.inj (pure_ok.mp h)).1]
  · obtain ⟨frames, -, h⟩ := bind_ok.mp h
    rw [← (Prod.mk.inj (pure_ok.mp h)).1]

theorem first_ok {α : Type} {x : Except ActivityError (α × Bool)} {a : α} (h : (·.1) <$> x = .ok a) :
    ∃ b, x = .ok (a, b) := by
  obtain ⟨v, hv, rfl⟩ := map_ok.mp h
  exact ⟨v.2, hv⟩

theorem upsertProjected_opportunities {frame : Option ActivityFrame} (h : s.upsertProjected frame = .ok s') :
    s'.opportunities = s.opportunities := by
  cases frame with
  | none => rw [pure_ok.mp h]
  | some frame =>
    obtain ⟨b, h⟩ := first_ok h
    exact upsertFrame_opportunities h

theorem insertOrIgnore_new {κ ρ : Type} [DecidableEq κ] {d : Dict κ ρ} {k : κ} {v : ρ} (h : d.get k = none) :
    insertOrIgnore d k v = d.set k v := by
  unfold insertOrIgnore
  rw [h]
  exact if_neg Bool.false_ne_true

theorem update_row {key : String × String} {row : Opportunity} {P : Opportunity → Prop} [DecidablePred P]
    {g : Opportunity → Opportunity} (hrow : s.opportunities.get key = some row) (hP : P row) :
    s.opportunities.mapValues (fun k v => if k = key ∧ P v then g v else v) = s.opportunities.set key (g row) := by
  have hset := Dict.mapValues_at (f := fun k v => if k = key ∧ P v then g v else v) hrow
    fun k' v' _ hne => if_neg fun h => hne h.1
  rw [hset]
  congr 1
  exact if_pos ⟨rfl, hP⟩

theorem cancels_fence {r : FeedbackRecord} (hsame : s.opportunities = d) :
    Cancels now d (s.fence now workspace r).opportunities := by
  rw [← hsame]
  unfold ActivityFrameStore.fence
  split
  · exact cancels_cancelWhere
  · exact Cancels.refl _

theorem disableSource_opportunities {kind : String} (h : s.disableSource host now workspace kind = .ok s') :
    Cancels now s.opportunities s'.opportunities := by
  unfold ActivityFrameStore.disableSource at h
  obtain ⟨settings, -, h⟩ := bind_ok.mp h
  obtain ⟨disabled, -, h⟩ := bind_ok.mp h
  obtain rfl := pure_ok.mp h
  exact ⟨_, rfl⟩

theorem reserveOpportunity_turn {r : Reservation} {b : Bool} (h : s.reserveOpportunity host now r = .ok (s', b)) :
    Turn host now s (.reserveOpportunity r) s'.opportunities := by
  have hrun := h
  obtain ⟨workspace, hworkspace, h⟩ := bind_ok.mp h
  obtain ⟨settings, hsettings, h⟩ := bind_ok.mp h
  have hgranted : b = true → (Op.reserveOpportunity r).grants host now s =
      some ((workspace, r.jobId), s.categoryOf host workspace r.frameId) := fun hb => by
    unfold Op.grants
    dsimp only
    rw [hrun, hb, boundedId_eq hworkspace]
  split at h
  · obtain ⟨rfl, rfl⟩ := Prod.mk.inj (pure_ok.mp h)
    refine (Cancels.refl _).turn ?_
    unfold Op.grants
    dsimp only
    rw [hrun]
  · rename_i reserved hreserve
    obtain ⟨frame, hchecked⟩ := reservable_checked hreserve
    obtain ⟨hrenews, row, hrow, hpending, hframe, hkind⟩ | ⟨hnew, hfree⟩ := hchecked.row
    · rw [if_pos hrenews] at h
      obtain ⟨rfl, rfl⟩ := Prod.mk.inj (pure_ok.mp h)
      have hset : s.opportunities.mapValues _ = _ := update_row (P := fun v => v.status = .pending)
        (g := fun v => { v with localDate := reserved.localDate, expiresAt := some reserved.expiresAt }) hrow hpending
      exact hset ▸ Turn.renews hsettings hreserve hrow hpending hframe hkind (hgranted rfl)
    · rw [if_neg (by rw [hnew]; exact Bool.false_ne_true)] at h
      obtain ⟨rfl, hb⟩ := Prod.mk.inj (pure_ok.mp h)
      have hfresh : b = true := by rw [← hb, hfree]; rfl
      exact insertOrIgnore_new hfree ▸ Turn.reserves hsettings hreserve hfree (hgranted hfresh)

theorem Op.turn {op : Op} (h : op.run host s now = .ok s') : Turn host now s op s'.opportunities := by
  have hsame : s'.opportunities = s.opportunities → op.grants host now s = none →
      Turn host now s op s'.opportunities := fun heq hgrants => heq ▸ (Cancels.refl _).turn hgrants
  cases op with
  | upsertFrame frame =>
    obtain ⟨b, h⟩ := first_ok h
    exact hsame (upsertFrame_opportunities h) rfl
  | project event =>
    obtain ⟨frame, -, h⟩ := bind_ok.mp h
    exact hsame (upsertProjected_opportunities h) rfl
  | rebuildOne workspaceId commit =>
    obtain ⟨frame, -, h⟩ := bind_ok.mp h
    exact hsame (upsertProjected_opportunities h) rfl
  | deleteFrame workspaceId frameId reason =>
    obtain ⟨b, h⟩ := first_ok h
    obtain ⟨workspace, -, h⟩ := bind_ok.mp h
    obtain ⟨frame, -, h⟩ := bind_ok.mp h
    split at h
    · obtain rfl := (Prod.mk.inj (pure_ok.mp h)).1
      exact hsame rfl rfl
    · obtain rfl := (Prod.mk.inj (pure_ok.mp h)).1
      exact Turn.cancels rfl _
  | tombstoneSource workspaceId kind sourceId reason =>
    obtain ⟨workspace, -, h⟩ := bind_ok.mp h
    obtain ⟨source, -, h⟩ := bind_ok.mp h
    obtain ⟨u, -, h⟩ := bind_ok.mp h
    obtain rfl := pure_ok.mp h
    exact hsame rfl rfl
  | pruneExpired workspaceId =>
    obtain ⟨workspace, -, h⟩ := bind_ok.mp h
    obtain rfl := pure_ok.mp h
    exact cancels_pruneExpiredLocked.turn rfl
  | patchSettings workspaceId patch expectedRevision =>
    obtain ⟨workspace, -, h⟩ := bind_ok.mp h
    obtain ⟨u, -, h⟩ := bind_ok.mp h
    obtain ⟨current, -, h⟩ := bind_ok.mp h
    obtain ⟨settings, -, h⟩ := bind_ok.mp h
    obtain rfl := pure_ok.mp h
    refine Cancels.turn (Cancels.trans ?_ cancels_pruneExpiredLocked) rfl
    split
    · exact cancels_cancelWhere
    · exact Cancels.refl _
  | reserveOpportunity r =>
    obtain ⟨b, h⟩ := first_ok h
    exact reserveOpportunity_turn h
  | resolveOpportunity r =>
    obtain ⟨b, h⟩ := first_ok h
    obtain ⟨u, houtcome, h⟩ := bind_ok.mp h
    have houtcome := require_ok.mp houtcome
    split at h
    · obtain rfl := (Prod.mk.inj (pure_ok.mp h)).1
      exact hsame rfl rfl
    · rename_i row hrow
      split at h
      · obtain rfl := (Prod.mk.inj (pure_ok.mp h)).1
        exact hsame rfl rfl
      · rename_i hidentity
        obtain ⟨hrequest, hkind⟩ := not_or.mp hidentity
        split at h
        · obtain rfl := (Prod.mk.inj (pure_ok.mp h)).1
          exact hsame rfl rfl
        · split at h
          · obtain rfl := (Prod.mk.inj (pure_ok.mp h)).1
            exact hsame rfl rfl
          · rename_i hpending
            have hmatches : row.requestId = r.requestId ∧ row.sourceKind = r.sourceKind ∧ row.status = .pending :=
              ⟨not_not.mp hrequest, not_not.mp hkind, not_not.mp hpending⟩
            have hsettle : ∀ localDate : Option String, (s.settle now r localDate).opportunities =
                s.opportunities.set (r.workspaceId, r.jobId)
                  { row with status := r.outcome, resolvedAt := some now, localDate := localDate.getD row.localDate } :=
              fun localDate => update_row
                (P := fun v => v.requestId = r.requestId ∧ v.sourceKind = r.sourceKind ∧ v.status = .pending)
                (g := fun v => { v with
                  status := r.outcome, resolvedAt := some now, localDate := localDate.getD v.localDate })
                hrow hmatches
            split at h
            · obtain ⟨settings, hsettings, h⟩ := bind_ok.mp h
              split at h
              · obtain rfl := (Prod.mk.inj (pure_ok.mp h)).1
                exact hsame rfl rfl
              · rename_i date hdate
                obtain rfl := (Prod.mk.inj (pure_ok.mp h)).1
                rw [hsettle]
                exact Turn.settles rfl hrow hmatches.2.2 hmatches.2.1 houtcome
                  fun _ => ⟨settings, date, hsettings, hdate, rfl⟩
            · rename_i hother
              obtain rfl := (Prod.mk.inj (pure_ok.mp h)).1
              rw [hsettle]
              exact Turn.settles rfl hrow hmatches.2.2 hmatches.2.1 houtcome fun hdelivered => absurd hdelivered hother
  | cancelPending workspaceId kind frameId =>
    obtain ⟨workspace, -, h⟩ := bind_ok.mp h
    obtain rfl := pure_ok.mp h
    exact Turn.cancels rfl _
  | recordFeedback r =>
    obtain ⟨b, h⟩ := first_ok h
    obtain ⟨workspace, -, h⟩ := bind_ok.mp h
    obtain ⟨feedback, -, h⟩ := bind_ok.mp h
    split at h
    · obtain ⟨u, -, h⟩ := bind_ok.mp h
      obtain rfl := (Prod.mk.inj (pure_ok.mp h)).1
      exact hsame rfl rfl
    · obtain ⟨u, -, h⟩ := bind_ok.mp h
      refine Cancels.turn ?_ rfl
      split at h
      · obtain ⟨disabled, hdisabled, heq⟩ := map_ok.mp h
        obtain rfl := (Prod.mk.inj heq).1
        refine Cancels.trans ?_ (disableSource_opportunities hdisabled)
        exact cancels_fence rfl
      · obtain rfl := (Prod.mk.inj (pure_ok.mp h)).1
        exact cancels_fence rfl
  | listFeedback workspaceId =>
    obtain ⟨workspace, -, h⟩ := bind_ok.mp h
    obtain rfl := pure_ok.mp h
    exact hsame rfl rfl

end Rules

end Activity
