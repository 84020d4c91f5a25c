import Yuizaki.Activity.Budget

/- Negative feedback on a source.

   Only the latest feedback on a source is looked at, and only when an opportunity is reserved.
   So a gate is kept to where what is recorded while it is open opens a gate that ends no earlier
   (`Respects.recorded`), and what is delivered finds the latest gate closed
   (`Respects.delivered`): the latest gate then never ends before one that is still open, and the
   retention of feedback is longer than any gate (`Retains`). -/
namespace Activity

open Transition Fallible

/-! ## Statements -/

/-- An operation leaves the settings of a workspace as they are. -/
def Op.KeepsSettings (workspace : String) : Op → Prop
  | .patchSettings workspaceId _ _ => PyStr.strip workspaceId ≠ workspace
  | .recordFeedback r => r.kind = .neverSource → PyStr.strip r.workspaceId ≠ workspace
  | _ => True

/-- The step reserves or delivers an opportunity of a source. -/
def Serves (host : Host) (workspace kind : String) (s : System) (l : Op × ℚ) (s' : System) : Prop :=
  (∃ r store, l.1 = .reserveOpportunity r ∧ s.store.reserveOpportunity host l.2 r = .ok (store, true) ∧
    PyStr.strip r.workspaceId = workspace ∧ r.sourceKind = kind) ∨
  ∃ key row', Delivers s.store.opportunities s'.store.opportunities key row' ∧ key.1 = workspace ∧
    row'.sourceKind = kind

/-- Feedback that is recorded while the latest gate of the source is open opens a gate that ends
no earlier, and a delivery finds the latest gate closed. -/
structure Respects (host : Host) (workspace kind : String) (s : System) (l : Op × ℚ) : Prop where
  recorded : ∀ r settings latest, l.1 = .recordFeedback r → PyStr.strip r.workspaceId = workspace →
    r.sourceKind = kind → s.store.feedback.get (workspace, PyStr.strip r.feedbackId) = none →
    s.store.settingsOf host workspace = .ok settings → s.store.latestFeedback workspace kind = some latest →
    feedbackGate latest.kind latest.createdAt l.2 settings = true →
    ∃ old new, gateSeconds settings latest.kind = some old ∧ gateSeconds settings r.kind = some new ∧
      latest.createdAt + old ≤ l.2 + new
  delivered : ∀ r settings row, l.1 = .resolveOpportunity r → r.outcome = .delivered → r.workspaceId = workspace →
    r.sourceKind = kind → s.store.opportunities.get (workspace, r.jobId) = some row → row.status = .pending →
    s.store.settingsOf host workspace = .ok settings → s.store.feedbackClear l.2 workspace kind settings = true

/-- A step under fixed settings of the workspace. -/
def System.SettledStep (host : Host) (workspace : String) (s : System) (l : Op × ℚ) (s' : System) : Prop :=
  System.Step host s l s' ∧ l.1.KeepsSettings workspace

/-- One that respects the gates of a source. -/
def System.RespectingStep (host : Host) (workspace kind : String) (s : System) (l : Op × ℚ) (s' : System) : Prop :=
  s.SettledStep host workspace l s' ∧ Respects host workspace kind s l

/-! ## The latest feedback -/

section Latest

variable {rows pre post : List Feedback} {g : Feedback}

theorem newestFeedback_append (row : Feedback) : newestFeedback (rows ++ [row]) =
    match newestFeedback rows with
    | none => some row
    | some best => if best.createdAt ≤ row.createdAt then some row else some best := by
  unfold newestFeedback
  rw [List.foldl_append]
  rfl

theorem newestFeedback_none (h : newestFeedback rows = none) : rows = [] := by
  cases rows using List.reverseRecOn with
  | nil => rfl
  | append_singleton rows row =>
    rw [newestFeedback_append] at h
    cases hbest : newestFeedback rows with
    | none => simp [hbest] at h
    | some best =>
      rw [hbest] at h
      dsimp only at h
      split at h <;> cases h

theorem newestFeedback_split (h : newestFeedback rows = some g) : ∃ pre post, rows = pre ++ g :: post ∧
    (∀ row ∈ pre, row.createdAt ≤ g.createdAt) ∧ ∀ row ∈ post, row.createdAt < g.createdAt := by
  induction rows using List.reverseRecOn generalizing g with
  | nil => cases h
  | append_singleton rows row ih =>
    rw [newestFeedback_append] at h
    cases hbest : newestFeedback rows with
    | none =>
      rw [hbest] at h
      obtain rfl := Option.some.inj h
      rw [newestFeedback_none hbest]
      exact ⟨[], [], rfl, fun _ hnone => (by cases hnone), fun _ hnone => by cases hnone⟩
    | some best =>
      obtain ⟨pre, post, rfl, hpre, hpost⟩ := ih hbest
      rw [hbest] at h
      dsimp only at h
      split at h
      · rename_i hle
        obtain rfl := Option.some.inj h
        refine ⟨pre ++ best :: post, [], rfl, fun old hold => ?_, fun _ hnone => by cases hnone⟩
        obtain hold | hold := List.mem_append.mp hold
        · exact (hpre old hold).trans hle
        · obtain rfl | hold := List.mem_cons.mp hold
          · exact hle
          · exact (hpost old hold).le.trans hle
      · rename_i hlt
        obtain rfl := Option.some.inj h
        refine ⟨pre, post ++ [row], by simp, hpre, fun old hold => ?_⟩
        obtain hold | hold := List.mem_append.mp hold
        · exact hpost old hold
        · rw [List.mem_singleton.mp hold]
          exact not_le.mp hlt

theorem newestFeedback_of_split (hpre : ∀ row ∈ pre, row.createdAt ≤ g.createdAt)
    (hpost : ∀ row ∈ post, row.createdAt < g.createdAt) : newestFeedback (pre ++ g :: post) = some g := by
  induction post using List.reverseRecOn with
  | nil =>
    rw [newestFeedback_append]
    cases hbest : newestFeedback pre with
    | none => rfl
    | some best =>
      obtain ⟨before, after, hsplit, -⟩ := newestFeedback_split hbest
      have hmem : best ∈ pre := hsplit ▸ List.mem_append_right before List.mem_cons_self
      exact if_pos (hpre best hmem)
  | append_singleton post row ih =>
    have hlater : row.createdAt < g.createdAt := hpost row (List.mem_append_right post List.mem_cons_self)
    have hassoc : pre ++ g :: (post ++ [row]) = pre ++ g :: post ++ [row] := by simp
    rw [hassoc, newestFeedback_append, ih fun old hold => hpost old (List.mem_append_left _ hold)]
    exact if_neg (not_le.mpr hlater)

end Latest

section Rules

variable {host : Host} {now : ℚ} {s s' : ActivityFrameStore} {op : Op} {workspace kind : String}
  {d d' d'' : Dict (String × String) Feedback} {g : Feedback}

/-- Only feedback goes that is older than its retention. -/
def Retains (now : ℚ) (d d' : Dict (String × String) Feedback) : Prop :=
  ∃ q : String × String → Feedback → Bool, d' = d.filter q ∧
    ∀ k row, now - feedbackRetentionSeconds ≤ row.createdAt → q k row = true

theorem Retains.refl (d : Dict (String × String) Feedback) : Retains now d d := by
  refine ⟨fun _ _ => true, ?_, fun _ _ _ => rfl⟩
  have hall : d.entries.filter (fun _ => true) = d.entries := List.filter_eq_self.mpr fun _ _ => rfl
  unfold Dict.filter
  simp only [hall]

theorem Retains.trans (h : Retains now d d') (h' : Retains now d' d'') : Retains now d d'' := by
  obtain ⟨q, rfl, hq⟩ := h
  obtain ⟨q', rfl, hq'⟩ := h'
  refine ⟨fun k row => q' k row && q k row, ?_, fun k row hnew => ?_⟩
  · unfold Dict.filter
    simp only [List.filter_filter]
  · simp only [hq k row hnew, hq' k row hnew, Bool.and_self]

theorem retains_pruneFeedback : Retains now s.feedback (s.pruneFeedback now workspace).feedback := by
  refine ⟨fun key row => !(key.1 = workspace && row.createdAt < now - feedbackRetentionSeconds), rfl, ?_⟩
  intro k row hnew
  simp [not_lt.mpr hnew]

theorem latestFeedback_retained (h : Retains now s.feedback s'.feedback) (hlatest : s.latestFeedback workspace kind = some g)
    (hnew : now - feedbackRetentionSeconds ≤ g.createdAt) : s'.latestFeedback workspace kind = some g := by
  obtain ⟨q, hs', hq⟩ := h
  obtain ⟨pre, post, hsplit, hpre, hpost⟩ := newestFeedback_split hlatest
  obtain ⟨before, rest, hrows, rfl, hrest⟩ := List.map_eq_append_iff.mp hsplit
  obtain ⟨e, after, rfl, rfl, rfl⟩ := List.map_eq_cons_iff.mp hrest
  have hkept : (before ++ e :: after).filter (fun e => q e.1 e.2) =
      before.filter (fun e => q e.1 e.2) ++ e :: after.filter (fun e => q e.1 e.2) := by
    have hhead : (e :: after).filter (fun e => q e.1 e.2) = e :: after.filter (fun e => q e.1 e.2) :=
      List.filter_cons_of_pos (hq e.1 e.2 hnew)
    rw [List.filter_append, hhead]
  unfold ActivityFrameStore.latestFeedback
  rw [hs']
  show newestFeedback (((s.feedback.entries.filter _).filter _).map Prod.snd) = _
  rw [List.filter_comm, hrows, hkept, List.map_append, List.map_cons]
  apply newestFeedback_of_split
  · intro row hrow
    obtain ⟨e', he', rfl⟩ := List.mem_map.mp hrow
    exact hpre _ (List.mem_map_of_mem (List.mem_filter.mp he').1)
  · intro row hrow
    obtain ⟨e', he', rfl⟩ := List.mem_map.mp hrow
    exact hpost _ (List.mem_map_of_mem (List.mem_filter.mp he').1)

theorem latestFeedback_recorded {id : String} {row : Feedback} (hfeedback : s'.feedback = s.feedback.set (workspace, id) row)
    (hfree : s.feedback.get (workspace, id) = none)
    (hlast : ∀ k old, s.feedback.get k = some old → old.createdAt ≤ row.createdAt) :
    s'.latestFeedback workspace row.sourceKind = some row := by
  unfold ActivityFrameStore.latestFeedback
  rw [hfeedback, Dict.entries_set_new hfree, List.filter_append, List.map_append]
  have hself : ([((workspace, id), row)].filter fun e : (String × String) × Feedback =>
      e.1.1 = workspace && e.2.sourceKind = row.sourceKind).map Prod.snd = [row] := by simp
  rw [hself]
  refine newestFeedback_of_split (fun old hold => ?_) fun old hnone => by cases hnone
  obtain ⟨e, he, rfl⟩ := List.mem_map.mp hold
  exact hlast e.1 e.2 (Dict.get_eq_some.mpr (List.mem_filter.mp he).1)

theorem latestFeedback_other {k : String × String} {row : Feedback} (hfeedback : s'.feedback = s.feedback.set k row)
    (hfree : s.feedback.get k = none) (hother : k.1 = workspace → row.sourceKind ≠ kind) :
    s'.latestFeedback workspace kind = s.latestFeedback workspace kind := by
  have hnone : [(k, row)].filter (fun e : (String × String) × Feedback =>
      e.1.1 = workspace && e.2.sourceKind = kind) = [] := by
    simp only [List.filter_cons, List.filter_nil, Bool.and_eq_true, decide_eq_true_eq]
    exact if_neg fun h => hother h.1 h.2
  unfold ActivityFrameStore.latestFeedback
  rw [hfeedback, Dict.entries_set_new hfree, List.filter_append, hnone, List.append_nil]

/-! ## What an operation does to the feedback and to the settings -/

def FeedbackRecord.row (r : FeedbackRecord) (now : ℚ) : Feedback := ⟨r.jobId, r.requestId, r.sourceKind, r.kind, now⟩

def FeedbackRecord.key (r : FeedbackRecord) : String × String := (PyStr.strip r.workspaceId, PyStr.strip r.feedbackId)

theorem fence_feedback {r : FeedbackRecord} : (s.fence now workspace r).feedback = s.feedback := by
  unfold ActivityFrameStore.fence
  split <;> rfl

theorem fence_settings {r : FeedbackRecord} : (s.fence now workspace r).settings = s.settings := by
  unfold ActivityFrameStore.fence
  split <;> rfl

theorem upsertFrame_rest {frame : ActivityFrame} {b : Bool} (h : s.upsertFrame frame = .ok (s', b)) :
    s'.feedback = s.feedback ∧ s'.settings = s.settings := by
  unfold ActivityFrameStore.upsertFrame at h
  split at h
  · rw [← (Prod.mk.inj (pure_ok.mp h)).1]
    exact ⟨rfl, rfl⟩
  · obtain ⟨frames, -, h⟩ := bind_ok.mp h
    rw [← (Prod.mk.inj (pure_ok.mp h)).1]
    exact ⟨rfl, rfl⟩

theorem upsertProjected_rest {frame : Option ActivityFrame} (h : s.upsertProjected frame = .ok s') :
    s'.feedback = s.feedback ∧ s'.settings = s.settings := by
  cases frame with
  | none =>
    rw [pure_ok.mp h]
    exact ⟨rfl, rfl⟩
  | some frame =>
    obtain ⟨b, h⟩ := first_ok h
    exact upsertFrame_rest h

theorem pruneFrames_rest (now : ℚ) (workspace : String) (frames : List ActivityFrame) (s : ActivityFrameStore) :
    (frames.foldl (fun s frame => s.pruneFrame now workspace frame) s).feedback = s.feedback ∧
      (frames.foldl (fun s frame => s.pruneFrame now workspace frame) s).settings = s.settings := by
  induction frames generalizing s with
  | nil => exact ⟨rfl, rfl⟩
  | cons frame rest ih => exact ih _

theorem retains_pruneExpiredLocked : Retains now s.feedback (s.pruneExpiredLocked now workspace).feedback := by
  have hsame := (pruneFrames_rest now workspace
    (s.frames.rows.filter fun frame => frame.workspaceId = workspace && frame.expiresAt ≤ now) s).1
  have hprune : Retains now s.feedback (s.pruneFeedback now workspace).feedback := retains_pruneFeedback
  obtain ⟨q, hq, hnew⟩ := hprune
  refine ⟨q, ?_, hnew⟩
  rw [← hq]
  unfold ActivityFrameStore.pruneExpiredLocked ActivityFrameStore.pruneFeedback
  dsimp only
  rw [hsame]

theorem settings_pruneExpiredLocked : (s.pruneExpiredLocked now workspace).settings = s.settings :=
  (pruneFrames_rest now workspace _ s).2

theorem resolveOpportunity_rest {r : Resolution} {b : Bool} (h : s.resolveOpportunity host now r = .ok (s', b)) :
    s'.feedback = s.feedback ∧ s'.settings = s.settings := by
  have hkept : ∀ store b', Except.ok (store, b') = Except.ok (ε := ActivityError) (s', b) →
      store.feedback = s.feedback ∧ store.settings = s.settings → s'.feedback = s.feedback ∧ s'.settings = s.settings := by
    intro store b' heq hstore
    rw [← (Prod.mk.inj (Except.ok.inj heq)).1]
    exact hstore
  obtain ⟨u, -, h⟩ := bind_ok.mp h
  split at h
  · exact hkept _ _ h ⟨rfl, rfl⟩
  · split at h
    · exact hkept _ _ h ⟨rfl, rfl⟩
    · split at h
      · exact hkept _ _ h ⟨rfl, rfl⟩
      · split at h
        · exact hkept _ _ h ⟨rfl, rfl⟩
        · split at h
          · obtain ⟨settings, -, h⟩ := bind_ok.mp h
            split at h
            · exact hkept _ _ h ⟨rfl, rfl⟩
            · exact hkept _ _ h ⟨rfl, rfl⟩
          · exact hkept _ _ h ⟨rfl, rfl⟩

theorem disableSource_rest (h : s.disableSource host now workspace kind = .ok s') :
    s'.feedback = s.feedback ∧ ∀ other, other ≠ workspace → s'.settings.get other = s.settings.get other := by
  unfold ActivityFrameStore.disableSource at h
  obtain ⟨settings, -, h⟩ := bind_ok.mp h
  obtain ⟨disabled, -, h⟩ := bind_ok.mp h
  obtain rfl := pure_ok.mp h
  exact ⟨rfl, fun other hother => Dict.get_set_of_ne hother⟩

/-- Feedback under a known id changes nothing; other feedback is added, and settings change only
where the source is turned off. -/
theorem recordFeedback_rest {r : FeedbackRecord} {b : Bool} (h : s.recordFeedback host now r = .ok (s', b)) :
    s.feedback.get r.key ≠ none ∧ s' = s ∨ s.feedback.get r.key = none ∧ s'.feedback = s.feedback.set r.key (r.row now) ∧
      ∀ workspace, (r.kind = .neverSource → PyStr.strip r.workspaceId ≠ workspace) →
        s'.settings.get workspace = s.settings.get workspace := by
  obtain ⟨workspace, hworkspace, h⟩ := bind_ok.mp h
  obtain ⟨feedback, hfeedback, h⟩ := bind_ok.mp h
  obtain rfl := boundedId_eq hworkspace
  obtain rfl := boundedId_eq hfeedback
  split at h
  · rename_i existing hknown
    obtain ⟨u, -, h⟩ := bind_ok.mp h
    refine Or.inl ⟨fun hnone => ?_, (Prod.mk.inj (pure_ok.mp h)).1.symm⟩
    cases hknown.symm.trans hnone
  · rename_i hfree
    obtain ⟨u, -, h⟩ := bind_ok.mp h
    refine Or.inr ⟨hfree, ?_⟩
    split at h
    · rename_i hnever
      obtain ⟨disabled, hdisabled, heq⟩ := map_ok.mp h
      obtain rfl := (Prod.mk.inj heq).1
      obtain ⟨hsame, hothers⟩ := disableSource_rest hdisabled
      refine ⟨hsame.trans fence_feedback, fun workspace hkeeps => ?_⟩
      rw [hothers workspace (Ne.symm (hkeeps hnever)), fence_settings]
    · obtain rfl := (Prod.mk.inj (pure_ok.mp h)).1
      exact ⟨fence_feedback, fun workspace _ => congrArg (Dict.get · workspace) fence_settings⟩

theorem Op.feedback (h : op.run host s now = .ok s') : Retains now s.feedback s'.feedback ∨
    ∃ r, op = .recordFeedback r ∧ s.feedback.get r.key = none ∧ s'.feedback = s.feedback.set r.key (r.row now) := by
  have hsame : s'.feedback = s.feedback → Retains now s.feedback s'.feedback := fun heq => heq ▸ Retains.refl _
  cases op with
  | upsertFrame frame =>
    obtain ⟨b, h⟩ := first_ok h
    exact Or.inl (hsame (upsertFrame_rest h).1)
  | project event =>
    obtain ⟨frame, -, h⟩ := bind_ok.mp h
    exact Or.inl (hsame (upsertProjected_rest h).1)
  | rebuildOne workspaceId commit =>
    obtain ⟨frame, -, h⟩ := bind_ok.mp h
    exact Or.inl (hsame (upsertProjected_rest h).1)
  | deleteFrame workspaceId frameId reason =>
    obtain ⟨b, h⟩ := first_ok h
    obtain ⟨workspace, -, h⟩ := bind_ok.mp h
    obtain ⟨frame, -, h⟩ := bind_ok.mp h
    split at h
    · obtain rfl := (Prod.mk.inj (pure_ok.mp h)).1
      exact Or.inl (hsame rfl)
    · obtain rfl := (Prod.mk.inj (pure_ok.mp h)).1
      exact Or.inl (hsame rfl)
  | tombstoneSource workspaceId kind sourceId reason =>
    obtain ⟨workspace, -, h⟩ := bind_ok.mp h
    obtain ⟨source, -, h⟩ := bind_ok.mp h
    obtain ⟨u, -, h⟩ := bind_ok.mp h
    obtain rfl := pure_ok.mp h
    exact Or.inl (hsame rfl)
  | pruneExpired workspaceId =>
    obtain ⟨workspace, -, h⟩ := bind_ok.mp h
    obtain rfl := pure_ok.mp h
    exact Or.inl retains_pruneExpiredLocked
  | patchSettings workspaceId patch expectedRevision =>
    obtain ⟨workspace, -, h⟩ := bind_ok.mp h
    obtain ⟨u, -, h⟩ := bind_ok.mp h
    obtain ⟨current, -, h⟩ := bind_ok.mp h
    obtain ⟨settings, -, h⟩ := bind_ok.mp h
    obtain rfl := pure_ok.mp h
    refine Or.inl (Retains.trans ?_ retains_pruneExpiredLocked)
    split
    · exact Retains.refl _
    · exact Retains.refl _
  | reserveOpportunity r =>
    obtain ⟨b, h⟩ := first_ok h
    obtain ⟨workspace, -, h⟩ := bind_ok.mp h
    obtain ⟨settings, -, h⟩ := bind_ok.mp h
    split at h
    · obtain rfl := (Prod.mk.inj (pure_ok.mp h)).1
      exact Or.inl (hsame rfl)
    · split at h
      · obtain rfl := (Prod.mk.inj (pure_ok.mp h)).1
        exact Or.inl (hsame rfl)
      · obtain rfl := (Prod.mk.inj (pure_ok.mp h)).1
        exact Or.inl (hsame rfl)
  | resolveOpportunity r =>
    obtain ⟨b, h⟩ := first_ok h
    exact Or.inl (hsame (resolveOpportunity_rest h).1)
  | cancelPending workspaceId kind frameId =>
    obtain ⟨workspace, -, h⟩ := bind_ok.mp h
    obtain rfl := pure_ok.mp h
    exact Or.inl (hsame rfl)
  | recordFeedback r =>
    obtain ⟨b, h⟩ := first_ok h
    obtain ⟨-, hold⟩ | ⟨hfree, hset, -⟩ := recordFeedback_rest h
    · exact Or.inl (hsame (congrArg _ hold))
    · exact Or.inr ⟨r, rfl, hfree, hset⟩
  | listFeedback workspaceId =>
    obtain ⟨workspace, -, h⟩ := bind_ok.mp h
    obtain rfl := pure_ok.mp h
    exact Or.inl retains_pruneFeedback

theorem Op.settings (h : op.run host s now = .ok s') (hkeeps : op.KeepsSettings workspace) :
    s'.settings.get workspace = s.settings.get workspace := by
  have hsame : s'.settings = s.settings → s'.settings.get workspace = s.settings.get workspace :=
    fun heq => congrArg (Dict.get · workspace) heq
  cases op with
  | upsertFrame frame =>
    obtain ⟨b, h⟩ := first_ok h
    exact hsame (upsertFrame_rest h).2
  | project event =>
    obtain ⟨frame, -, h⟩ := bind_ok.mp h
    exact hsame (upsertProjected_rest h).2
  | rebuildOne workspaceId commit =>
    obtain ⟨frame, -, h⟩ := bind_ok.mp h
    exact hsame (upsertProjected_rest h).2
  | deleteFrame workspaceId frameId reason =>
    obtain ⟨b, h⟩ := first_ok h
    obtain ⟨workspace, -, h⟩ := bind_ok.mp h
    obtain ⟨frame, -, h⟩ := bind_ok.mp h
    split at h
    · obtain rfl := (Prod.mk.inj (pure_ok.mp h)).1
      rfl
    · obtain rfl := (Prod.mk.inj (pure_ok.mp h)).1
      rfl
  | tombstoneSource workspaceId kind sourceId reason =>
    obtain ⟨workspace, -, h⟩ := bind_ok.mp h
    obtain ⟨source, -, h⟩ := bind_ok.mp h
    obtain ⟨u, -, h⟩ := bind_ok.mp h
    obtain rfl := pure_ok.mp h
    rfl
  | pruneExpired workspaceId =>
    obtain ⟨workspace, -, h⟩ := bind_ok.mp h
    obtain rfl := pure_ok.mp h
    exact hsame settings_pruneExpiredLocked
  | patchSettings workspaceId patch expectedRevision =>
    obtain ⟨patched, hpatched, h⟩ := bind_ok.mp h
    obtain ⟨u, -, h⟩ := bind_ok.mp h
    obtain ⟨current, -, h⟩ := bind_ok.mp h
    obtain ⟨settings, -, h⟩ := bind_ok.mp h
    obtain rfl := pure_ok.mp h
    have hother : workspace ≠ patched := fun heq => hkeeps ((boundedId_eq hpatched).symm.trans heq.symm)
    rw [settings_pruneExpiredLocked]
    split
    · exact Dict.get_set_of_ne hother
    · exact Dict.get_set_of_ne hother
  | reserveOpportunity r =>
    obtain ⟨b, h⟩ := first_ok h
    obtain ⟨workspace, -, h⟩ := bind_ok.mp h
    obtain ⟨settings, -, h⟩ := bind_ok.mp h
    split at h
    · obtain rfl := (Prod.mk.inj (pure_ok.mp h)).1
      rfl
    · split at h
      · obtain rfl := (Prod.mk.inj (pure_ok.mp h)).1
        rfl
      · obtain rfl := (Prod.mk.inj (pure_ok.mp h)).1
        rfl
  | resolveOpportunity r =>
    obtain ⟨b, h⟩ := first_ok h
    exact hsame (resolveOpportunity_rest h).2
  | cancelPending workspaceId kind frameId =>
    obtain ⟨workspace, -, h⟩ := bind_ok.mp h
    obtain rfl := pure_ok.mp h
    rfl
  | recordFeedback r =>
    obtain ⟨b, h⟩ := first_ok h
    obtain ⟨-, hold⟩ | ⟨-, -, hothers⟩ := recordFeedback_rest h
    · rw [hold]
    · exact hothers workspace hkeeps
  | listFeedback workspaceId =>
    obtain ⟨workspace, -, h⟩ := bind_ok.mp h
    obtain rfl := pure_ok.mp h
    rfl

theorem Op.settingsOf (h : op.run host s now = .ok s') (hkeeps : op.KeepsSettings workspace) :
    s'.settingsOf host workspace = s.settingsOf host workspace := by
  unfold ActivityFrameStore.settingsOf
  rw [Op.settings h hkeeps]

theorem settingsOf_cooldown {settings : ProactiveSettings} (h : s.settingsOf host workspace = .ok settings) :
    settings.cooldownSeconds ≤ 604800 := by
  have hvalid : ∀ given : ProactiveSettings, given.validate host = .ok settings → settings.cooldownSeconds ≤ 604800 := by
    intro given hgiven
    unfold ProactiveSettings.validate at hgiven
    simp only [bind_ok, require_ok] at hgiven
    obtain ⟨_, -, _, -, _, -, _, -, _, hcooldown, _, -, _, -, _, -, hsettings⟩ := hgiven
    obtain rfl := pure_ok.mp hsettings
    exact hcooldown.2
  unfold ActivityFrameStore.settingsOf at h
  split at h
  · exact hvalid _ h
  · exact hvalid _ h

theorem gateSeconds_bounds {settings : ProactiveSettings} {feedback : FeedbackKind} {seconds : ℚ}
    (hcooldown : settings.cooldownSeconds ≤ 604800) (h : gateSeconds settings feedback = some seconds) :
    0 < seconds ∧ seconds ≤ feedbackRetentionSeconds := by
  have hcast : (settings.cooldownSeconds : ℚ) ≤ 604800 := by exact_mod_cast hcooldown
  have hmax : ∀ least : ℚ, 0 < least → least ≤ 604800 → max (settings.cooldownSeconds : ℚ) least = seconds →
      0 < seconds ∧ seconds ≤ feedbackRetentionSeconds := by
    intro least hpos hle heq
    have hupper : max (settings.cooldownSeconds : ℚ) least ≤ 604800 := max_le hcast hle
    have hlower : least ≤ max (settings.cooldownSeconds : ℚ) least := le_max_right _ _
    unfold feedbackRetentionSeconds
    constructor
    · linarith
    · linarith
  cases feedback with
  | tooFrequent => exact hmax 3600 (by norm_num) (by norm_num) (Option.some.inj h)
  | notUseful => exact hmax 3600 (by norm_num) (by norm_num) (Option.some.inj h)
  | ignored => exact hmax 900 (by norm_num) (by norm_num) (Option.some.inj h)
  | snoozed => exact hmax 1800 (by norm_num) (by norm_num) (Option.some.inj h)
  | wrongTime =>
    obtain rfl := Option.some.inj h
    unfold feedbackRetentionSeconds
    norm_num
  | _ => cases h

theorem feedbackGate_open {settings : ProactiveSettings} {seconds : ℚ} (hgate : gateSeconds settings g.kind = some seconds)
    (hpos : 0 < seconds) (hnow : now < g.createdAt + seconds) : feedbackGate g.kind g.createdAt now settings = true := by
  unfold feedbackGate
  rw [hgate]
  refine decide_eq_true (max_lt hpos ?_)
  linarith

theorem feedbackClear_over {settings : ProactiveSettings} {seconds : ℚ}
    (hclear : s.feedbackClear now workspace kind settings = true) (hlatest : s.latestFeedback workspace kind = some g)
    (hgate : gateSeconds settings g.kind = some seconds) (hpos : 0 < seconds) : g.createdAt + seconds ≤ now := by
  unfold ActivityFrameStore.feedbackClear at hclear
  rw [hlatest] at hclear
  dsimp only at hclear
  by_contra hopen
  rw [feedbackGate_open hgate hpos (not_le.mp hopen)] at hclear
  cases hclear

end Rules

/-! ## Every run -/

/-- No feedback is later than the last operation. -/
def Past (s : System) : Prop := ∀ k row, s.store.feedback.get k = some row → row.createdAt ≤ s.clock

/-- Until a deadline, the latest gate of a source ends no earlier. -/
def Guarded (host : Host) (workspace kind : String) (settings : ProactiveSettings) (deadline : ℚ) (s : System) : Prop :=
  s.store.settingsOf host workspace = .ok settings ∧
    (deadline ≤ s.clock ∨ ∃ g seconds, s.store.latestFeedback workspace kind = some g ∧
      gateSeconds settings g.kind = some seconds ∧ deadline ≤ g.createdAt + seconds)

section Runs

variable {host : Host} {t₀ deadline : ℚ} {l : Op × ℚ} {s s' : System} {workspace kind : String}
  {settings : ProactiveSettings}

theorem System.Step.past (h : System.Step host s l s') (hpast : Past s) : Past s' := by
  obtain ⟨hclock, hrun, hnow⟩ := h.run
  intro k row hrow
  rw [hnow]
  obtain ⟨q, hfilter, -⟩ | ⟨r, -, -, hset⟩ := Op.feedback hrun
  · rw [hfilter] at hrow
    exact (hpast k row (Dict.filter_within q k row hrow)).trans hclock
  · rw [hset, Dict.get_set] at hrow
    split at hrow
    · obtain rfl := Option.some.inj hrow
      exact le_refl l.2
    · exact (hpast k row hrow).trans hclock

theorem System.RespectingStep.guarded (h : s.RespectingStep host workspace kind l s') (hpast : Past s)
    (hguarded : Guarded host workspace kind settings deadline s) : Guarded host workspace kind settings deadline s' := by
  obtain ⟨⟨hstep, hkeeps⟩, hrespects⟩ := h
  obtain ⟨hclock, hrun, hnow⟩ := hstep.run
  obtain ⟨hsettings, hgate⟩ := hguarded
  refine ⟨(Op.settingsOf hrun hkeeps).trans hsettings, ?_⟩
  rw [hnow]
  by_cases hover : deadline ≤ l.2
  · exact Or.inl hover
  · refine Or.inr ?_
    obtain hpassed | ⟨g, seconds, hlatest, hseconds, hdeadline⟩ := hgate
    · exact absurd (hpassed.trans hclock) hover
    · obtain ⟨hpos, hretention⟩ := gateSeconds_bounds (settingsOf_cooldown hsettings) hseconds
      have hopen : l.2 < g.createdAt + seconds := (not_le.mp hover).trans_le hdeadline
      obtain hretains | ⟨r, hop, hfree, hset⟩ := Op.feedback hrun
      · exact ⟨g, seconds, latestFeedback_retained hretains hlatest (by linarith), hseconds, hdeadline⟩
      · by_cases hsource : r.key.1 = workspace ∧ r.sourceKind = kind
        · obtain ⟨rfl, rfl⟩ := hsource
          obtain ⟨old, new, hold, hnew, hends⟩ := hrespects.recorded r settings g hop rfl rfl hfree hsettings hlatest
            (feedbackGate_open hseconds hpos hopen)
          obtain rfl := Option.some.inj (hold.symm.trans hseconds)
          have hlater : s'.store.latestFeedback r.key.1 (r.row l.2).sourceKind = some (r.row l.2) :=
            latestFeedback_recorded hset hfree fun k row hrow => (hpast k row hrow).trans hclock
          exact ⟨r.row l.2, new, hlater, hnew, hdeadline.trans hends⟩
        · refine ⟨g, seconds, ?_, hseconds, hdeadline⟩
          rw [latestFeedback_other hset hfree fun hworkspace hkind => hsource ⟨hworkspace, hkind⟩]
          exact hlatest

theorem System.RespectingStep.waits (h : s.RespectingStep host workspace kind l s')
    (hguarded : Guarded host workspace kind settings deadline s) (hserves : Serves host workspace kind s l s') :
    deadline ≤ l.2 := by
  obtain ⟨⟨hstep, -⟩, hrespects⟩ := h
  obtain ⟨hsettings, hgate⟩ := hguarded
  have hclear : s.store.feedbackClear l.2 workspace kind settings = true := by
    obtain ⟨r, store, hop, hgranted, rfl, rfl⟩ | ⟨key, row', hdelivers, rfl, rfl⟩ := hserves
    · obtain ⟨checked, hchecked, hreserve⟩ := bind_ok.mp hgranted
      obtain ⟨settings', hsettings', hreserve⟩ := bind_ok.mp hreserve
      rw [boundedId_eq hchecked] at hsettings' hreserve
      obtain rfl := Except.ok.inj (hsettings'.symm.trans hsettings)
      split at hreserve
      · cases hreserve
      · rename_i reserved hreserved
        obtain ⟨frame, hall⟩ := reservable_checked hreserved
        exact hall.feedback
    · obtain ⟨r, row, settings', date, hop, hdelivered, rfl, hrow, hpending, hkind, hsettings', -, rfl, -⟩ :=
        hstep.turn.delivered hdelivers
      exact hrespects.delivered r settings row hop hdelivered rfl hkind.symm hrow hpending hsettings
  obtain hpassed | ⟨g, seconds, hlatest, hseconds, hdeadline⟩ := hgate
  · exact hpassed.trans hstep.run.1
  · obtain ⟨hpos, -⟩ := gateSeconds_bounds (settingsOf_cooldown hsettings) hseconds
    exact hdeadline.trans (feedbackClear_over hclear hlatest hseconds hpos)

/-- Whatever operations came before: once feedback that opens a gate is recorded, and as long as
the steps respect the gates of the source, no opportunity of the source is reserved or
delivered until the gate's own duration has elapsed. -/
theorem feedback_respected {older newer : List (Op × ℚ)} {s₁ s₂ : System} {r : FeedbackRecord} {t seconds : ℚ}
    (hbefore : Run (System.Step host) (System.start t₀) older s₁)
    (hworkspace : r.key.1 = workspace)
    (hrecord : s₁.SettledStep host workspace (.recordFeedback r, t) s₂)
    (hnew : s₁.store.feedback.get r.key = none)
    (hsettings : s₁.store.settingsOf host workspace = .ok settings)
    (hgate : gateSeconds settings r.kind = some seconds)
    (hrun : Run (System.RespectingStep host workspace r.sourceKind) s₂ newer s)
    (hstep : s.RespectingStep host workspace r.sourceKind l s')
    (hserves : Serves host workspace r.sourceKind s l s') : t + seconds ≤ l.2 := by
  subst hworkspace
  have hpast : Past s₁ := by
    refine hbefore.invariant (I := Past) (fun k row hrow => ?_) fun s l s' hpast hstep => hstep.past hpast
    cases hrow
  have hfirst : Past s₂ ∧ Guarded host r.key.1 r.sourceKind settings (t + seconds) s₂ := by
    obtain ⟨hclock, hrecorded, hnow⟩ := hrecord.1.run
    refine ⟨hrecord.1.past hpast, (Op.settingsOf hrecorded hrecord.2).trans hsettings, Or.inr ?_⟩
    obtain ⟨b, hrecorded⟩ := first_ok hrecorded
    obtain ⟨hknown, -⟩ | ⟨-, hset, -⟩ := recordFeedback_rest hrecorded
    · exact absurd hnew hknown
    · have hlatest : s₂.store.latestFeedback r.key.1 (r.row t).sourceKind = some (r.row t) :=
        latestFeedback_recorded hset hnew fun k row hrow => (hpast k row hrow).trans hclock
      exact ⟨r.row t, seconds, hlatest, hgate, le_refl _⟩
  have hkept : Past s ∧ Guarded host r.key.1 r.sourceKind settings (t + seconds) s := by
    refine hrun.invariant (I := fun s => Past s ∧ Guarded host r.key.1 r.sourceKind settings (t + seconds) s) hfirst ?_
    intro s l s' ⟨hpast, hguarded⟩ hstep
    exact ⟨hstep.1.1.past hpast, hstep.guarded hpast hguarded⟩
  exact hstep.waits hkept.2 hserves

end Runs

/-! ## Two runs -/

def feedbackSample (id : String) (kind : FeedbackKind) : FeedbackRecord :=
  ⟨"home", id, "job_tea", "req_tea", sourceKind, kind⟩

/-- The pending opportunity is felt to come too often, and another frame comes in. -/
def teaTooFrequent : System :=
  (teaPending.next plainHost (.recordFeedback (feedbackSample "fb_often" .tooFrequent), 40)).get (by decide +kernel)

def cakeSeen : System :=
  (teaTooFrequent.next plainHost (.upsertFrame (sampleFrame "cake" "conversation"), 50)).get (by decide +kernel)

theorem teaTooFrequent_step : teaPending.SettledStep plainHost "home"
    (.recordFeedback (feedbackSample "fb_often" .tooFrequent), 40) teaTooFrequent :=
  ⟨(Option.some_get _).symm, fun hnever => by cases hnever⟩

theorem cakeSeen_step : teaTooFrequent.SettledStep plainHost "home"
    (.upsertFrame (sampleFrame "cake" "conversation"), 50) cakeSeen := ⟨(Option.some_get _).symm, trivial⟩

def teaSettings : ProactiveSettings := { enabled := true }

theorem teaPending_settings : teaPending.store.settingsOf plainHost "home" = .ok teaSettings := by decide +kernel

/-- The other frame is reserved later in the day. -/
def cakeLater : System := (cakeSeen.next plainHost (reserveSample "cake", 20000)).get (by decide +kernel)

theorem feedback_respected_tea : (40 : ℚ) + max teaSettings.cooldownSeconds 3600 ≤ 20000 := by
  have hgranted : cakeSeen.store.reserveOpportunity plainHost 20000
      ⟨"home", "job_" ++ "cake", "req_" ++ "cake", "af_" ++ "cake", sourceKind, true, none⟩ = .ok (cakeLater.store, true) := by
    decide +kernel
  have hseen : teaTooFrequent.RespectingStep plainHost "home" sourceKind
      (.upsertFrame (sampleFrame "cake" "conversation"), 50) cakeSeen := by
    refine ⟨cakeSeen_step, fun r settings latest hop => ?_, fun r settings row hop => ?_⟩
    · cases hop
    · cases hop
  have hlater : cakeSeen.RespectingStep plainHost "home" sourceKind (reserveSample "cake", 20000) cakeLater := by
    refine ⟨⟨(Option.some_get _).symm, trivial⟩, fun r settings latest hop => ?_, fun r settings row hop => ?_⟩
    · cases hop
    · cases hop
  have hkey : (feedbackSample "fb_often" .tooFrequent).key.1 = "home" := by decide +kernel
  have hfree : teaPending.store.feedback.get (feedbackSample "fb_often" .tooFrequent).key = none := by decide +kernel
  have hserves : Serves plainHost "home" sourceKind cakeSeen (reserveSample "cake", 20000) cakeLater :=
    Or.inl ⟨_, _, rfl, hgranted, by decide +kernel, rfl⟩
  exact feedback_respected teaMorning_run hkey teaTooFrequent_step hfree teaPending_settings rfl
    (Run.next Run.start hseen) hlater hserves

/-- The same feedback is called useful a moment later, and the other frame is reserved. -/
def teaUseful : System :=
  (cakeSeen.next plainHost (.recordFeedback (feedbackSample "fb_useful" .useful), 60)).get (by decide +kernel)

def cakeReserved : System := (teaUseful.next plainHost (reserveSample "cake", 70)).get (by decide +kernel)

/-- Feedback that opens no gate reopens the source before the gate of the feedback before it is over. -/
theorem useful_lifts_gate : ∃ older s₁ s₂ newer s s', Run (System.Step plainHost) (System.start 0) older s₁ ∧
    s₁.SettledStep plainHost "home" (.recordFeedback (feedbackSample "fb_often" .tooFrequent), 40) s₂ ∧
    s₁.store.feedback.get (feedbackSample "fb_often" .tooFrequent).key = none ∧
    s₁.store.settingsOf plainHost "home" = .ok teaSettings ∧
    gateSeconds teaSettings .tooFrequent = some (max teaSettings.cooldownSeconds 3600) ∧
    Run (System.SettledStep plainHost "home") s₂ newer s ∧
    s.SettledStep plainHost "home" (reserveSample "cake", 70) s' ∧
    Serves plainHost "home" sourceKind s (reserveSample "cake", 70) s' ∧
    ¬ (40 : ℚ) + max teaSettings.cooldownSeconds 3600 ≤ 70 := by
  have hgranted : teaUseful.store.reserveOpportunity plainHost 70
      ⟨"home", "job_" ++ "cake", "req_" ++ "cake", "af_" ++ "cake", sourceKind, true, none⟩ = .ok (cakeReserved.store, true) := by
    decide +kernel
  have huseful : cakeSeen.SettledStep plainHost "home" (.recordFeedback (feedbackSample "fb_useful" .useful), 60)
      teaUseful := ⟨(Option.some_get _).symm, fun hnever => by cases hnever⟩
  exact ⟨_, teaPending, teaTooFrequent, _, teaUseful, cakeReserved, teaMorning_run, teaTooFrequent_step,
    by decide +kernel, teaPending_settings, rfl, Run.next (Run.next Run.start cakeSeen_step) huseful,
    ⟨(Option.some_get _).symm, trivial⟩, Or.inl ⟨_, _, rfl, hgranted, by decide +kernel, rfl⟩, by decide +kernel⟩

end Activity
