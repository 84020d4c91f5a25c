import Yuizaki.Activity.Steps

/- What proactive opportunities keep to, whatever the order of the operations.

   Each turn of the opportunities keeps three things: a frame has one row (`Alone`), a row stays
   and once settled stays as it is (`Stays`), and a delivered row says when it was delivered
   (`Dated`). A delivery is checked in the transaction that writes it, against the settings of
   that transaction: `proactive_budget` puts the parts together for every step of every run. -/
namespace Activity

open Transition

/-- A frame of a workspace has at most one opportunity. -/
def Alone (d : Dict (String × String) Opportunity) : Prop :=
  ∀ k k' row row', d.get k = some row → d.get k' = some row' → k.1 = k'.1 → row.frameId = row'.frameId → k = k'

/-- Opportunities are not taken away, and one that is not pending stays as it is. -/
def Stays (d d' : Dict (String × String) Opportunity) : Prop :=
  ∀ k row, d.get k = some row → ∃ row', d'.get k = some row' ∧ (row.status ≠ .pending → row' = row)

/-- A delivered opportunity says when it was delivered. -/
def Dated (d : Dict (String × String) Opportunity) : Prop :=
  ∀ k row, d.get k = some row → row.status = .delivered → row.resolvedAt.isSome

/-- The delivered opportunities of a workspace and a local date. -/
def deliveredOn (d : Dict (String × String) Opportunity) (workspace localDate : String) : ℕ :=
  d.count fun key row => key.1 = workspace && row.localDate = localDate && row.status = .delivered

def Delivers (d d' : Dict (String × String) Opportunity) (key : String × String) (row' : Opportunity) : Prop :=
  (∀ row, d.get key = some row → row.status ≠ .delivered) ∧ d'.get key = some row' ∧ row'.status = .delivered

/-- A delivery within the settings in force: on its local date no more than the daily budget are
delivered, it among them, and every earlier delivery of the source is a cooldown ago. -/
def WithinBudget (host : Host) (now : ℚ) (s : ActivityFrameStore) (d' : Dict (String × String) Opportunity)
    (key : String × String) (row' : Opportunity) : Prop :=
  ∃ settings, s.settingsOf host key.1 = .ok settings ∧ row'.resolvedAt = some now ∧
    row'.localDate = (host.localClock now settings.timezone).1 ∧
    (deliveredOn d' key.1 row'.localDate : ℤ) ≤ settings.dailyBudget ∧
    ∀ k row, s.opportunities.get k = some row → k.1 = key.1 → row.sourceKind = row'.sourceKind →
      row.status = .delivered → ∃ t, row.resolvedAt = some t ∧ settings.cooldownSeconds ≤ now - t

section Turns

variable {host : Host} {now : ℚ} {s : ActivityFrameStore} {op : Op} {d : Dict (String × String) Opportunity}
  {key : String × String} {row row' : Opportunity} {p : String × String → Opportunity → Bool}

/-! ## Cancelled rows -/

theorem cancelledIf_frameId : (cancelledIf now p key row).frameId = row.frameId := by
  unfold cancelledIf
  split <;> rfl

theorem cancelledIf_settled (h : row.status ≠ .pending) : cancelledIf now p key row = row :=
  if_neg fun hp => h hp.2

theorem cancelledIf_delivered (h : (cancelledIf now p key row).status = .delivered) :
    cancelledIf now p key row = row := by
  unfold cancelledIf at h ⊢
  split at h
  · cases h
  · rename_i hkeep
    exact if_neg hkeep

theorem pending_cancelled (h : (d.mapValues (cancelledIf now p)).get key = some row')
    (hpending : row'.status = .pending) : d.get key = some row' ∧ p key row' = false := by
  rw [Dict.get_mapValues] at h
  obtain ⟨row, hrow, rfl⟩ := Option.map_eq_some_iff.mp h
  unfold cancelledIf at hpending ⊢
  split at hpending
  · cases hpending
  · rename_i hkeep
    rw [if_neg hkeep]
    refine ⟨hrow, ?_⟩
    cases hp : p key row with
    | false => rfl
    | true => exact absurd ⟨hp, hpending⟩ hkeep

theorem get_cancelled (h : (d.mapValues (cancelledIf now p)).get key = some row') :
    ∃ row, d.get key = some row ∧ cancelledIf now p key row = row' := by
  rw [Dict.get_mapValues] at h
  exact Option.map_eq_some_iff.mp h

/-! ## Counts -/

theorem of_count_eq_zero (h : d.count p = 0) (hrow : d.get key = some row) : p key row = false := by
  cases hp : p key row with
  | false => rfl
  | true =>
    have hpos := Dict.count_pos hrow hp
    omega

theorem le_max_of_mem {times : List ℚ} {t : ℚ} (h : t ∈ times) : ∃ m, times.max? = some m ∧ t ≤ m := by
  cases hmax : times.max? with
  | none =>
    rw [List.max?_eq_none_iff] at hmax
    rw [hmax] at h
    cases h
  | some m => exact ⟨m, rfl, (List.max?_le_iff hmax).mp le_rfl t h⟩

theorem cooledDown_of {workspace kind : String} {settings : ProactiveSettings} {t : ℚ}
    (h : s.cooledDown now workspace kind settings = true) (hrow : s.opportunities.get key = some row)
    (hworkspace : key.1 = workspace) (hkind : row.sourceKind = kind) (hdelivered : row.status = .delivered)
    (ht : row.resolvedAt = some t) : settings.cooldownSeconds ≤ now - t := by
  have hmem : t ∈ s.opportunities.entries.filterMap fun e =>
      if e.1.1 = workspace ∧ e.2.sourceKind = kind ∧ e.2.status = .delivered then e.2.resolvedAt else none := by
    refine List.mem_filterMap.mpr ⟨(key, row), Dict.get_eq_some.mp hrow, ?_⟩
    rw [if_pos ⟨hworkspace, hkind, hdelivered⟩]
    exact ht
  obtain ⟨m, hm, hle⟩ := le_max_of_mem hmem
  unfold ActivityFrameStore.cooledDown ActivityFrameStore.lastDelivered at h
  rw [hm] at h
  have hcooled : (settings.cooldownSeconds : ℚ) ≤ now - m := of_decide_eq_true h
  calc (settings.cooldownSeconds : ℚ) ≤ now - m := hcooled
    _ ≤ now - t := by linarith

theorem deliverable_checked {settings : ProactiveSettings} {r : Resolution} {date : String}
    (h : s.deliverable host now settings r row = some date) :
    date = (host.localClock now settings.timezone).1 ∧
      (deliveredOn s.opportunities r.workspaceId date : ℤ) < settings.dailyBudget ∧
      s.cooledDown now r.workspaceId r.sourceKind settings = true := by
  unfold ActivityFrameStore.deliverable at h
  simp only [Option.bind_eq_bind, Option.bind_eq_some_iff, guard_some] at h
  obtain ⟨_, -, _, -, frame, -, _, -, _, hbudget, _, hcooled, hdate⟩ := h
  obtain rfl := Option.some.inj hdate
  exact ⟨rfl, hbudget, hcooled⟩

/-! ## What every turn keeps -/

theorem Turn.alone {d' : Dict (String × String) Opportunity} (h : Turn host now s op d')
    (halone : Alone s.opportunities) : Alone d' := by
  -- a row of the new table was there under its key with its frame, or it is the reserved one
  have hset : ∀ key row, (∃ old, s.opportunities.get key = some old ∧ old.frameId = row.frameId) →
      Alone (s.opportunities.set key row) := by
    intro key row hold k k' r r' hr hr' hworkspace hframe
    have hbefore : ∀ k r, (s.opportunities.set key row).get k = some r →
        ∃ old, s.opportunities.get k = some old ∧ old.frameId = r.frameId := by
      intro k r hr
      rw [Dict.get_set] at hr
      split at hr
      · rename_i heq
        obtain rfl := Option.some.inj hr
        exact heq ▸ hold
      · exact ⟨r, hr, rfl⟩
    obtain ⟨old, hold, hsame⟩ := hbefore k r hr
    obtain ⟨old', hold', hsame'⟩ := hbefore k' r' hr'
    exact halone k k' old old' hold hold' hworkspace (by rw [hsame, hsame', hframe])
  cases h with
  | cancels hgrants p =>
    intro k k' r r' hr hr' hworkspace hframe
    obtain ⟨old, hold, rfl⟩ := get_cancelled hr
    obtain ⟨old', hold', rfl⟩ := get_cancelled hr'
    rw [cancelledIf_frameId, cancelledIf_frameId] at hframe
    exact halone k k' old old' hold hold' hworkspace hframe
  | @reserves workspace settings r reserved hsettings hreserve hfree hgrants =>
    obtain ⟨frame, hchecked⟩ := reservable_checked hreserve
    have hnone : ∀ k row, s.opportunities.get k = some row → k.1 = workspace → row.frameId = r.frameId → False := by
      intro k row hrow hworkspace hframe
      have hfalse := of_count_eq_zero hchecked.alone hrow
      have hkey : k.2 ≠ r.jobId := by
        intro heq
        have hk : k = (workspace, r.jobId) := Prod.ext hworkspace heq
        rw [hk, hfree] at hrow
        cases hrow
      simp [hworkspace, hframe, hkey] at hfalse
    intro k k' a b ha hb hworkspace hframe
    rw [Dict.get_set] at ha hb
    split at ha
    · rename_i hk
      obtain rfl := Option.some.inj ha
      split at hb
      · rename_i hk'
        rw [hk, hk']
      · exact (hnone k' b hb (by rw [← hworkspace, hk]) hframe.symm).elim
    · split at hb
      · rename_i hk'
        obtain rfl := Option.some.inj hb
        exact (hnone k a ha (by rw [hworkspace, hk']) hframe).elim
      · exact halone k k' a b ha hb hworkspace hframe
  | renews hsettings hreserve hrow hpending hframe hkind hgrants => exact hset _ _ ⟨_, hrow, rfl⟩
  | settles hop hrow hpending hkind houtcome hdelivered => exact hset _ _ ⟨_, hrow, rfl⟩

theorem Turn.stays {d' : Dict (String × String) Opportunity} (h : Turn host now s op d') : Stays s.opportunities d' := by
  have hset : ∀ key old row, s.opportunities.get key = some old → old.status = .pending →
      Stays s.opportunities (s.opportunities.set key row) := by
    intro key old row hold hpending k r hr
    by_cases hk : k = key
    · subst hk
      obtain rfl := Option.some.inj (hold.symm.trans hr)
      exact ⟨row, Dict.get_set_self, fun hsettled => absurd hpending hsettled⟩
    · exact ⟨r, by rw [Dict.get_set_of_ne hk, hr], fun _ => rfl⟩
  cases h with
  | cancels hgrants p =>
    intro k r hr
    exact ⟨cancelledIf now p k r, by rw [Dict.get_mapValues, hr]; rfl, cancelledIf_settled⟩
  | reserves hsettings hreserve hfree hgrants =>
    intro k r hr
    refine ⟨r, ?_, fun _ => rfl⟩
    rw [Dict.get_set, if_neg, hr]
    rintro rfl
    rw [hfree] at hr
    cases hr
  | renews hsettings hreserve hrow hpending hframe hkind hgrants => exact hset _ _ _ hrow hpending
  | settles hop hrow hpending hkind houtcome hdelivered => exact hset _ _ _ hrow hpending

theorem Turn.dated {d' : Dict (String × String) Opportunity} (h : Turn host now s op d')
    (hdated : Dated s.opportunities) : Dated d' := by
  have hset : ∀ key row, (row.status = .delivered → row.resolvedAt.isSome) →
      Dated (s.opportunities.set key row) := by
    intro key row hnew k r hr
    rw [Dict.get_set] at hr
    split at hr
    · obtain rfl := Option.some.inj hr
      exact hnew
    · exact hdated k r hr
  cases h with
  | cancels hgrants p =>
    intro k r hr hstatus
    obtain ⟨old, hold, rfl⟩ := get_cancelled hr
    have hsame : cancelledIf now p k old = old := cancelledIf_delivered hstatus
    rw [hsame] at hstatus ⊢
    exact hdated k old hold hstatus
  | reserves hsettings hreserve hfree hgrants => exact hset _ _ fun hstatus => by cases hstatus
  | renews hsettings hreserve hrow hpending hframe hkind hgrants =>
    refine hset _ _ fun hstatus => ?_
    rw [show _ = OpportunityStatus.pending from hpending] at hstatus
    cases hstatus
  | settles hop hrow hpending hkind houtcome hdelivered => exact hset _ _ fun _ => rfl

theorem Turn.delivered {d' : Dict (String × String) Opportunity} (h : Turn host now s op d')
    (hdelivers : Delivers s.opportunities d' key row') :
    ∃ r row settings date, op = .resolveOpportunity r ∧ r.outcome = .delivered ∧ key = (r.workspaceId, r.jobId) ∧
      s.opportunities.get key = some row ∧ row.status = .pending ∧ row.sourceKind = r.sourceKind ∧
      s.settingsOf host r.workspaceId = .ok settings ∧ s.deliverable host now settings r row = some date ∧
      row' = { row with status := .delivered, resolvedAt := some now, localDate := date } ∧
      d' = s.opportunities.set key row' := by
  obtain ⟨hbefore, hafter, hstatus⟩ := hdelivers
  have hset : ∀ k row, row.status ≠ .delivered → (s.opportunities.set k row).get key = some row' → False := by
    intro k row hother hget
    rw [Dict.get_set] at hget
    split at hget
    · obtain rfl := Option.some.inj hget
      exact hother hstatus
    · exact hbefore row' hget hstatus
  cases h with
  | cancels hgrants p =>
    obtain ⟨old, hold, rfl⟩ := get_cancelled hafter
    have hsame : cancelledIf now p key old = old := cancelledIf_delivered hstatus
    rw [hsame] at hstatus
    exact absurd hstatus (hbefore old hold)
  | reserves hsettings hreserve hfree hgrants => exact (hset _ _ (fun h => by cases h) hafter).elim
  | renews hsettings hreserve hrow hpending hframe hkind hgrants =>
    refine (hset _ _ (fun h => ?_) hafter).elim
    rw [show _ = OpportunityStatus.pending from hpending] at h
    cases h
  | @settles r row localDate hop hrow hpending hkind houtcome hdelivered =>
    by_cases hkey : key = (r.workspaceId, r.jobId)
    · rw [hkey, Dict.get_set_self] at hafter
      obtain rfl := Option.some.inj hafter
      have hnow : r.outcome = .delivered := hstatus
      obtain ⟨settings, date, hsettings, hdate, rfl⟩ := hdelivered hnow
      refine ⟨r, row, settings, date, hop, hnow, hkey, hkey ▸ hrow, hpending, hkind, hsettings, hdate, ?_, ?_⟩
      · rw [hnow]
        rfl
      · rw [hkey]
    · rw [Dict.get_set_of_ne hkey] at hafter
      exact absurd hstatus (hbefore row' hafter)

theorem Turn.withinBudget {d' : Dict (String × String) Opportunity} (h : Turn host now s op d')
    (hdated : Dated s.opportunities) (hdelivers : Delivers s.opportunities d' key row') :
    WithinBudget host now s d' key row' := by
  obtain ⟨r, row, settings, date, -, -, rfl, hrow, hpending, hkind, hsettings, hdate, rfl, rfl⟩ := h.delivered hdelivers
  obtain ⟨rfl, hbudget, hcooled⟩ := deliverable_checked hdate
  refine ⟨settings, hsettings, rfl, rfl, ?_, fun k old hold hworkspace hsource hwas => ?_⟩
  · -- the row was pending, so it counts only now
    have hcount := Dict.count_set_old
      (fun key row => key.1 = r.workspaceId && row.localDate = (host.localClock now settings.timezone).1 &&
        row.status = .delivered)
      { row with
        status := .delivered, resolvedAt := some now
        localDate := (host.localClock now settings.timezone).1 } hrow
    have hnotYet : row.status ≠ .delivered := by
      rw [hpending]
      exact fun h => by cases h
    simp only [hnotYet, decide_true, decide_false, Bool.and_true, Bool.and_false, if_true, Bool.false_eq_true,
      if_false, add_zero] at hcount
    unfold deliveredOn at hbudget ⊢
    dsimp only
    omega
  · obtain ⟨t, ht⟩ := Option.isSome_iff_exists.mp (hdated k old hold hwas)
    have hsame : old.sourceKind = r.sourceKind := hsource.trans hkind
    exact ⟨t, ht, cooledDown_of hcooled hold hworkspace hsame hwas ht⟩

end Turns

/-! ## Every run -/

section Runs

variable {host : Host} {t₀ : ℚ} {hist : List (Op × ℚ)} {l : Op × ℚ} {s s' : System}

theorem System.Step.run (h : System.Step host s l s') :
    s.clock ≤ l.2 ∧ l.1.run host s.store l.2 = .ok s'.store ∧ s'.clock = l.2 := by
  unfold System.Step System.next at h
  split at h
  · rename_i hclock
    split at h
    · rename_i store hrun
      obtain rfl := Option.some.inj h
      exact ⟨hclock, hrun, rfl⟩
    · cases h
  · cases h

theorem System.Step.turn (h : System.Step host s l s') : Turn host l.2 s.store l.1 s'.store.opportunities :=
  Op.turn h.run.2.1

theorem run_kept (hrun : Run (System.Step host) (System.start t₀) hist s) :
    Alone s.store.opportunities ∧ Dated s.store.opportunities := by
  refine hrun.invariant (I := fun s => Alone s.store.opportunities ∧ Dated s.store.opportunities) ⟨?_, ?_⟩ ?_
  · intro k k' row row' hrow
    cases hrow
  · intro k row hrow
    cases hrow
  · intro s l s' ⟨halone, hdated⟩ hstep
    exact ⟨hstep.turn.alone halone, hstep.turn.dated hdated⟩

/-- Whatever operations came before, at every step a frame has at most one opportunity, an
opportunity that is not pending stays as it is, and what becomes delivered is within the daily
budget and the cooldown that are in force. -/
theorem proactive_budget (hrun : Run (System.Step host) (System.start t₀) hist s)
    (hstep : System.Step host s l s') :
    Alone s'.store.opportunities ∧ Stays s.store.opportunities s'.store.opportunities ∧
      ∀ key row', Delivers s.store.opportunities s'.store.opportunities key row' →
        WithinBudget host l.2 s.store s'.store.opportunities key row' := by
  obtain ⟨halone, hdated⟩ := run_kept hrun
  have hturn := hstep.turn
  exact ⟨hturn.alone halone, hturn.stays, fun key row' hdelivers => hturn.withinBudget hdated hdelivers⟩

end Runs

/-! ## A run -/

/-- UTC on two days, and nothing else that the operations below ask for. -/
def plainHost : Host where
  localClock now _ := (if now < 86400 then "1970-01-01" else "1970-01-02", (⌊now / 60⌋ % 1440).toNat)
  zoneInfo zone := zone = "UTC"
  halved _ := 1
  text _ := ""
  float _ := none
  sha256 text := text

def sampleFrame (name category : String) : ActivityFrame where
  frameId := "af_" ++ name
  workspaceId := "home"
  sessionId := "evening"
  sourceKind := sourceKind
  sourceId := name
  sourceEventId := name
  sourceCreatedAt := 0
  createdAt := 0
  expiresAt := 604800
  projectionVersion := projectionVersion
  policyVersion := policyVersion
  signals := .obj [("activityCategory", .str category)]

def reserveSample (name : String) : Op :=
  .reserveOpportunity ⟨"home", "job_" ++ name, "req_" ++ name, "af_" ++ name, sourceKind, true, none⟩

def deliverSample (name : String) : Op :=
  .resolveOpportunity ⟨"home", "job_" ++ name, "req_" ++ name, sourceKind, .delivered⟩

/-- The source is turned on, a frame comes in and is reserved. -/
def teaMorning : List (Op × ℚ) :=
  [(.patchSettings "home" { enabled := some true } 0, 10), (.upsertFrame (sampleFrame "tea" "conversation"), 20),
    (reserveSample "tea", 30)]

def teaPending : System := (Run.exec (System.next plainHost) (System.start 0) teaMorning).get (by decide +kernel)

def teaDelivered : System := (teaPending.next plainHost (deliverSample "tea", 40)).get (by decide +kernel)

theorem teaMorning_run : Run (System.Step plainHost) (System.start 0) teaMorning.reverse teaPending :=
  Run.of_exec (Option.some_get _).symm

theorem teaDelivered_step : System.Step plainHost teaPending (deliverSample "tea", 40) teaDelivered :=
  (Option.some_get _).symm

/-- The frame's opportunity is delivered within the budget. -/
theorem proactive_budget_tea : WithinBudget plainHost 40 teaPending.store teaDelivered.store.opportunities
    ("home", "job_tea") ⟨"req_tea", "af_tea", sourceKind, "1970-01-01", .delivered, 30, some 40, some 604800⟩ := by
  have hpending : teaPending.store.opportunities.get ("home", "job_tea") =
      some ⟨"req_tea", "af_tea", sourceKind, "1970-01-01", .pending, 30, none, some 604800⟩ := by decide +kernel
  have hdelivered : teaDelivered.store.opportunities.get ("home", "job_tea") =
      some ⟨"req_tea", "af_tea", sourceKind, "1970-01-01", .delivered, 30, some 40, some 604800⟩ := by decide +kernel
  refine (proactive_budget teaMorning_run teaDelivered_step).2.2 _ _ ⟨fun row hrow => ?_, hdelivered, rfl⟩
  obtain rfl := Option.some.inj (hpending.symm.trans hrow)
  exact fun h => by cases h

end Activity
