import Yuizaki.Activity.Budget

/- What is deleted stays deleted, and what the pending opportunities are about.

   A frame leaves the table by a deletion, by a tombstone or by retention, and each of them
   leaves a tombstone of its source, which every upsert looks for: a source that was removed
   has no frame again (`Buries`, `Buried`). The deletion and the retention also cancel what is
   pending about the frame; the tombstone does not, and an upsert that gives a source another
   frame id does not. `deleted_stays_deleted` says that exactly along the runs where no such
   step hits a frame with a pending opportunity, each pending opportunity has its frame. -/
namespace Activity

open Transition Fallible

/-! ## Statements -/

def Buried (s : ActivityFrameStore) : Prop :=
  ∀ source, (s.tombstones.get source).isSome → ∀ frame ∈ s.frames.rows, frame.source ≠ source

/-- A frame is what a pending opportunity is about. -/
def Awaited (s : ActivityFrameStore) (frame : ActivityFrame) : Prop :=
  ∃ k row, s.opportunities.get k = some row ∧ row.status = .pending ∧ frame.key = (k.1, row.frameId)

/-- Each pending opportunity refers to a frame that is there. -/
def Backed (s : ActivityFrameStore) : Prop :=
  ∀ k row, s.opportunities.get k = some row → row.status = .pending →
    ∃ frame ∈ s.frames.rows, frame.key = (k.1, row.frameId)

/-- The frame that an operation upserts. -/
def Op.upserts (host : Host) (s : ActivityFrameStore) : Op → Option ActivityFrame
  | .upsertFrame frame => some frame
  | .project event => (s.projectedFrame host event).toOption.join
  | .rebuildOne workspaceId commit => (s.rebuiltFrame host workspaceId commit).toOption.join
  | _ => none

/-- An operation leaves the frames of pending opportunities: an upsert keeps the frame id of
its source, and a tombstone is not of their source. -/
def KeepsFrames (host : Host) (s : ActivityFrameStore) (op : Op) : Prop :=
  (∀ new, op.upserts host s = some new → ∀ frame ∈ s.frames.rows, frame.source = new.source →
    frame.frameId ≠ new.frameId → ¬ Awaited s frame) ∧
  ∀ workspaceId kind sourceId reason, op = .tombstoneSource workspaceId kind sourceId reason →
    ∀ frame ∈ s.frames.rows, frame.source = (PyStr.strip workspaceId, kind, PyStr.strip sourceId) →
      ¬ Awaited s frame

/-- A step removes a source: a frame of it goes and none is left, or it is tombstoned. -/
def Removes (s : ActivityFrameStore) (op : Op) (s' : ActivityFrameStore) (source : String × String × String) : Prop :=
  ((∃ frame ∈ s.frames.rows, frame.source = source) ∧ ∀ frame ∈ s'.frames.rows, frame.source ≠ source) ∨
  ∃ workspaceId sourceId reason,
    op = .tombstoneSource workspaceId source.2.1 sourceId reason ∧
      source = (PyStr.strip workspaceId, source.2.1, PyStr.strip sourceId)

/-! ## Removing frames -/

/-- Frames go away and nothing else happens to them, and a source whose frame goes is
tombstoned. -/
structure Buries (s s' : ActivityFrameStore) : Prop where
  kept : ∀ source, (s.tombstones.get source).isSome → (s'.tombstones.get source).isSome
  shrunk : ∀ frame' ∈ s'.frames.rows, ∃ frame ∈ s.frames.rows,
    frame.source = frame'.source ∧ frame.key = frame'.key
  gone : ∀ frame ∈ s.frames.rows, (∀ frame' ∈ s'.frames.rows, frame'.source ≠ frame.source) →
    (s'.tombstones.get frame.source).isSome
  buried : ∀ source, (s'.tombstones.get source).isSome →
    (s.tombstones.get source).isSome ∨ ∀ frame' ∈ s'.frames.rows, frame'.source ≠ source

/-- The frames that pending opportunities are about are still there. -/
def Survives (s s' : ActivityFrameStore) : Prop :=
  ∀ k row frame, s'.opportunities.get k = some row → row.status = .pending → frame ∈ s.frames.rows →
    frame.key = (k.1, row.frameId) → ∃ frame' ∈ s'.frames.rows, frame'.key = (k.1, row.frameId)

section Rules

variable {host : Host} {now : ℚ} {s s' s'' : ActivityFrameStore} {op : Op} {workspace : String}
  {source : String × String × String}

theorem Buries.same (hframes : s'.frames = s.frames) (htombstones : s'.tombstones = s.tombstones) : Buries s s' where
  kept source h := by rwa [htombstones]
  shrunk frame hframe := ⟨frame, hframes ▸ hframe, rfl, rfl⟩
  gone frame hframe hnone := absurd rfl (hnone frame (hframes.symm ▸ hframe))
  buried source h := Or.inl (htombstones ▸ h)

theorem Buries.trans (h : Buries s s') (h' : Buries s' s'') : Buries s s'' where
  kept source hs := h'.kept source (h.kept source hs)
  shrunk frame'' hframe'' := by
    obtain ⟨frame', hframe', hsource', hkey'⟩ := h'.shrunk frame'' hframe''
    obtain ⟨frame, hframe, hsource, hkey⟩ := h.shrunk frame' hframe'
    exact ⟨frame, hframe, hsource.trans hsource', hkey.trans hkey'⟩
  gone frame hframe hnone := by
    by_cases hleft : ∃ frame' ∈ s'.frames.rows, frame'.source = frame.source
    · obtain ⟨frame', hframe', hsource⟩ := hleft
      rw [← hsource]
      exact h'.gone frame' hframe' fun frame'' hframe'' => hsource ▸ hnone frame'' hframe''
    · have hgone := h.gone frame hframe fun frame' hframe' hsource => hleft ⟨frame', hframe', hsource⟩
      exact h'.kept _ hgone
  buried source hs := by
    obtain hs' | hnone := h'.buried source hs
    · obtain hold | hnone := h.buried source hs'
      · exact Or.inl hold
      · refine Or.inr fun frame'' hframe'' hsource => ?_
        obtain ⟨frame', hframe', hsource', -⟩ := h'.shrunk frame'' hframe''
        exact hnone frame' hframe' (hsource'.trans hsource)
    · exact Or.inr hnone

theorem Buries.keepsBuried (h : Buries s s') (hburied : Buried s) : Buried s' := by
  intro source hs frame' hframe' hsource
  obtain hold | hnone := h.buried source hs
  · obtain ⟨frame, hframe, hsame, -⟩ := h.shrunk frame' hframe'
    exact hburied source hold frame hframe (hsame.trans hsource)
  · exact hnone frame' hframe' hsource

theorem isSome_insertOrIgnore {κ ρ : Type} [DecidableEq κ] {d : Dict κ ρ} {k k' : κ} {v : ρ} :
    ((insertOrIgnore d k v).get k').isSome ↔ (d.get k').isSome ∨ k' = k := by
  unfold insertOrIgnore
  split
  · rename_i hk
    exact ⟨Or.inl, fun h => h.elim id fun heq => heq ▸ hk⟩
  · rw [Dict.get_set]
    split
    · rename_i heq
      exact ⟨fun _ => Or.inr heq, fun _ => rfl⟩
    · rename_i hne
      exact ⟨Or.inl, fun h => h.elim id fun heq => absurd heq hne⟩

theorem Buries.filtered {p : ActivityFrame → Bool} {Q : String × String × String → Prop}
    (hframes : s'.frames = s.frames.filter p)
    (htombstones : ∀ source, (s'.tombstones.get source).isSome ↔ (s.tombstones.get source).isSome ∨ Q source)
    (hgone : ∀ frame ∈ s.frames.rows, p frame = false → Q frame.source)
    (hleft : ∀ frame ∈ s.frames.rows, p frame = true → ¬ Q frame.source) : Buries s s' where
  kept source h := (htombstones source).mpr (Or.inl h)
  shrunk frame hframe := by
    rw [hframes] at hframe
    exact ⟨frame, (FrameTable.mem_filter.mp hframe).1, rfl, rfl⟩
  gone frame hframe hnone := by
    refine (htombstones _).mpr (Or.inr (hgone frame hframe ?_))
    cases hp : p frame with
    | false => rfl
    | true =>
      have hmem : frame ∈ s'.frames.rows := hframes.symm ▸ FrameTable.mem_filter.mpr ⟨hframe, hp⟩
      exact absurd rfl (hnone frame hmem)
  buried source h := by
    refine ((htombstones source).mp h).imp_right fun hQ frame' hframe' hsource => ?_
    rw [hframes] at hframe'
    obtain ⟨hmem, hkept⟩ := FrameTable.mem_filter.mp hframe'
    exact hleft frame' hmem hkept (hsource ▸ hQ)

theorem Buries.expiry {expiry : ActivityFrame → ℚ} (hframes : s'.frames = s.frames.setExpiry expiry)
    (htombstones : s'.tombstones = s.tombstones) : Buries s s' where
  kept source h := by rwa [htombstones]
  shrunk frame hframe := by
    rw [hframes] at hframe
    obtain ⟨old, hold, rfl⟩ := FrameTable.mem_setExpiry.mp hframe
    exact ⟨old, hold, rfl, rfl⟩
  gone frame hframe hnone := by
    have hmem : { frame with expiresAt := expiry frame } ∈ s'.frames.rows :=
      hframes.symm ▸ FrameTable.mem_setExpiry.mpr ⟨frame, hframe, rfl⟩
    exact (hnone _ hmem rfl).elim
  buried source h := Or.inl (htombstones ▸ h)

/-! ## Retention -/

/-- What pruning some frames of a workspace leaves: the frames themselves, their tombstones, and
no opportunity of theirs that is pending. -/
theorem pruneFrames (now : ℚ) (workspace : String) (frames : List ActivityFrame) (s : ActivityFrameStore) :
    let s' := frames.foldl (fun s frame => s.pruneFrame now workspace frame) s
    s'.frames = s.frames ∧
    (∀ source, (s'.tombstones.get source).isSome ↔ (s.tombstones.get source).isSome ∨
      ∃ frame ∈ frames, source = (workspace, frame.sourceKind, frame.sourceId)) ∧
    ∀ k row, s'.opportunities.get k = some row → row.status = .pending →
      ∀ frame ∈ frames, ¬ (k.1 = workspace ∧ row.frameId = frame.frameId) := by
  induction frames generalizing s with
  | nil =>
    refine ⟨rfl, fun source => ⟨Or.inl, fun h => h.elim id fun ⟨_, hnone, _⟩ => (List.not_mem_nil hnone).elim⟩, ?_⟩
    intro k row _ _ frame hnone
    exact (List.not_mem_nil hnone).elim
  | cons first rest ih =>
    obtain ⟨hframes, htombstones, hpending⟩ := ih (s.pruneFrame now workspace first)
    refine ⟨hframes, fun source => ?_, fun k row hrow hstatus frame hmem => ?_⟩
    · have hfirst : ((s.pruneFrame now workspace first).tombstones.get source).isSome ↔
          (s.tombstones.get source).isSome ∨ source = (workspace, first.sourceKind, first.sourceId) :=
        isSome_insertOrIgnore
      rw [List.foldl_cons, htombstones source, hfirst]
      simp only [List.mem_cons, exists_eq_or_imp, or_assoc]
    · obtain rfl | hmem := List.mem_cons.mp hmem
      · -- the first frame's row was cancelled, and a cancelled row is not pending later
        intro hit
        obtain ⟨p, hp⟩ : Cancels now (s.pruneFrame now workspace frame).opportunities
            (rest.foldl (fun s frame => s.pruneFrame now workspace frame)
              (s.pruneFrame now workspace frame)).opportunities := cancels_pruneFrames rest _
        rw [List.foldl_cons, hp] at hrow
        have hold := (pending_cancelled hrow hstatus).1
        have hmiss := (pending_cancelled hold hstatus).2
        simp [hit] at hmiss
      · exact hpending k row hrow hstatus frame hmem

theorem buries_pruneExpiredLocked : Buries s (s.pruneExpiredLocked now workspace) := by
  obtain ⟨hframes, htombstones, -⟩ := pruneFrames now workspace
    (s.frames.rows.filter fun frame => frame.workspaceId = workspace && frame.expiresAt ≤ now) s
  have hsource : ∀ frame : ActivityFrame, (frame.workspaceId = workspace && frame.expiresAt ≤ now : Bool) = true →
      frame.source = (workspace, frame.sourceKind, frame.sourceId) := by
    intro frame hexpired
    simp only [Bool.and_eq_true, decide_eq_true_eq] at hexpired
    rw [← hexpired.1]
    rfl
  refine Buries.filtered (p := fun frame => !(frame.workspaceId = workspace && frame.expiresAt ≤ now))
    (congrArg (fun t : FrameTable => t.filter fun frame =>
      !(frame.workspaceId = workspace && frame.expiresAt ≤ now)) hframes) htombstones ?_ ?_
  · intro frame hframe hexpired
    rw [Bool.not_eq_false'] at hexpired
    exact ⟨frame, List.mem_filter.mpr ⟨hframe, hexpired⟩, hsource frame hexpired⟩
  · rintro frame hframe hfresh ⟨old, hold, hsame⟩
    obtain ⟨hmem, hexpired⟩ := List.mem_filter.mp hold
    obtain rfl := FrameTable.source_inj hframe hmem (hsame.trans (hsource old hexpired).symm)
    rw [hexpired] at hfresh
    cases hfresh

theorem survives_pruneExpiredLocked : Survives s (s.pruneExpiredLocked now workspace) := by
  obtain ⟨hframes, -, hpending⟩ := pruneFrames now workspace
    (s.frames.rows.filter fun frame => frame.workspaceId = workspace && frame.expiresAt ≤ now) s
  intro k row frame hrow hstatus hframe hkey
  refine ⟨frame, ?_, hkey⟩
  show frame ∈ (FrameTable.filter _ _).rows
  rw [hframes]
  refine FrameTable.mem_filter.mpr ⟨hframe, ?_⟩
  cases hexpired : (frame.workspaceId = workspace && frame.expiresAt ≤ now : Bool) with
  | false => rfl
  | true =>
    have hmiss := hpending k row hrow hstatus frame (List.mem_filter.mpr ⟨hframe, hexpired⟩)
    simp only [Bool.and_eq_true, decide_eq_true_eq] at hexpired
    have hparts := Prod.mk.inj hkey
    exact absurd ⟨hparts.1.symm.trans hexpired.1, hparts.2.symm⟩ hmiss

/-! ## What an operation does to the frames -/

theorem upsertFrame_ok {frame : ActivityFrame} {b : Bool} (h : s.upsertFrame frame = .ok (s', b)) :
    s' = s ∨ s.tombstones.get frame.source = none ∧ ∃ frames, s.frames.upsert frame = .ok frames ∧
      s' = { s with frames } := by
  unfold ActivityFrameStore.upsertFrame at h
  split at h
  · exact Or.inl (Prod.mk.inj (pure_ok.mp h)).1.symm
  · rename_i hnone
    obtain ⟨frames, hframes, h⟩ := bind_ok.mp h
    exact Or.inr ⟨Option.not_isSome_iff_eq_none.mp hnone, frames, hframes, (Prod.mk.inj (pure_ok.mp h)).1.symm⟩

def Upserts (host : Host) (s : ActivityFrameStore) (op : Op) (s' : ActivityFrameStore) : Prop :=
  ∃ new, op.upserts host s = some new ∧ s.tombstones.get new.source = none ∧ ∃ frames,
    s.frames.upsert new = .ok frames ∧ s' = { s with frames }

theorem upserts_of {new : ActivityFrame} {b : Bool} (hop : op.upserts host s = some new)
    (h : s.upsertFrame new = .ok (s', b)) : s' = s ∨ Upserts host s op s' :=
  (upsertFrame_ok h).imp_right fun ⟨hnone, frames, hframes, heq⟩ => ⟨new, hop, hnone, frames, hframes, heq⟩

theorem upsertProjected_ok {x : Except ActivityError (Option ActivityFrame)} {frame : Option ActivityFrame}
    (hx : x = .ok frame) (hop : op.upserts host s = x.toOption.join) (h : s.upsertProjected frame = .ok s') :
    s' = s ∨ Upserts host s op s' := by
  cases frame with
  | none => exact Or.inl (pure_ok.mp h).symm
  | some new =>
    obtain ⟨b, h⟩ := first_ok h
    rw [hx] at hop
    exact upserts_of hop h

theorem Survives.expiry {expiry : ActivityFrame → ℚ} (hframes : s'.frames = s.frames.setExpiry expiry) :
    Survives s (s'.pruneExpiredLocked now workspace) := by
  intro k row frame hrow hstatus hframe hkey
  have hmem : { frame with expiresAt := expiry frame } ∈ s'.frames.rows :=
    hframes.symm ▸ FrameTable.mem_setExpiry.mpr ⟨frame, hframe, rfl⟩
  exact survives_pruneExpiredLocked k row _ hrow hstatus hmem hkey

theorem resolveOpportunity_frames {r : Resolution} {b : Bool} (h : s.resolveOpportunity host now r = .ok (s', b)) :
    s'.frames = s.frames ∧ s'.tombstones = s.tombstones := by
  unfold ActivityFrameStore.resolveOpportunity at h
  obtain ⟨u, -, h⟩ := bind_ok.mp h
  split at h
  · obtain rfl := (Prod.mk.inj (pure_ok.mp h)).1
    exact ⟨rfl, rfl⟩
  · split at h
    · obtain rfl := (Prod.mk.inj (pure_ok.mp h)).1
      exact ⟨rfl, rfl⟩
    · split at h
      · obtain rfl := (Prod.mk.inj (pure_ok.mp h)).1
        exact ⟨rfl, rfl⟩
      · split at h
        · obtain rfl := (Prod.mk.inj (pure_ok.mp h)).1
          exact ⟨rfl, rfl⟩
        · split at h
          · obtain ⟨settings, -, h⟩ := bind_ok.mp h
            split at h
            · obtain rfl := (Prod.mk.inj (pure_ok.mp h)).1
              exact ⟨rfl, rfl⟩
            · obtain rfl := (Prod.mk.inj (pure_ok.mp h)).1
              exact ⟨rfl, rfl⟩
          · obtain rfl := (Prod.mk.inj (pure_ok.mp h)).1
            exact ⟨rfl, rfl⟩

theorem fence_frames {r : FeedbackRecord} :
    (s.fence now workspace r).frames = s.frames ∧ (s.fence now workspace r).tombstones = s.tombstones := by
  unfold ActivityFrameStore.fence
  split
  · exact ⟨rfl, rfl⟩
  · exact ⟨rfl, rfl⟩

theorem recordFeedback_frames {r : FeedbackRecord} {b : Bool} (h : s.recordFeedback host now r = .ok (s', b)) :
    s'.frames = s.frames ∧ s'.tombstones = s.tombstones := by
  unfold ActivityFrameStore.recordFeedback at h
  obtain ⟨workspace, -, h⟩ := bind_ok.mp h
  obtain ⟨feedback, -, h⟩ := bind_ok.mp h
  split at h
  · obtain ⟨u, -, h⟩ := bind_ok.mp h
    obtain rfl := (Prod.mk.inj (pure_ok.mp h)).1
    exact ⟨rfl, rfl⟩
  · obtain ⟨u, -, h⟩ := bind_ok.mp h
    split at h
    · obtain ⟨disabled, hdisabled, heq⟩ := map_ok.mp h
      obtain rfl := (Prod.mk.inj heq).1
      unfold ActivityFrameStore.disableSource at hdisabled
      obtain ⟨settings, -, hdisabled⟩ := bind_ok.mp hdisabled
      obtain ⟨validated, -, hdisabled⟩ := bind_ok.mp hdisabled
      obtain rfl := pure_ok.mp hdisabled
      exact fence_frames
    · obtain rfl := (Prod.mk.inj (pure_ok.mp h)).1
      exact fence_frames

theorem Op.frames (h : op.run host s now = .ok s') : Upserts host s op s' ∨
    Buries s s' ∧ (KeepsFrames host s op → Survives s s') := by
  have hstay : s'.frames = s.frames → s'.tombstones = s.tombstones →
      Buries s s' ∧ (KeepsFrames host s op → Survives s s') := fun hframes htombstones =>
    ⟨Buries.same hframes htombstones, fun _ k row frame _ _ hframe hkey =>
      ⟨frame, hframes.symm ▸ hframe, hkey⟩⟩
  have hsame : s' = s → Buries s s' ∧ (KeepsFrames host s op → Survives s s') := fun heq =>
    hstay (congrArg _ heq) (congrArg _ heq)
  cases op with
  | upsertFrame frame =>
    obtain ⟨b, h⟩ := first_ok h
    exact (upserts_of rfl h).symm.imp_right hsame
  | project event =>
    obtain ⟨frame, hframe, h⟩ := bind_ok.mp h
    have hop : Op.upserts host s (.project event) = (s.projectedFrame host event).toOption.join := rfl
    exact (upsertProjected_ok hframe hop h).symm.imp_right hsame
  | rebuildOne workspaceId commit =>
    obtain ⟨frame, hframe, h⟩ := bind_ok.mp h
    have hop : Op.upserts host s (.rebuildOne workspaceId commit) =
      (s.rebuiltFrame host workspaceId commit).toOption.join := rfl
    exact (upsertProjected_ok hframe hop h).symm.imp_right hsame
  | deleteFrame workspaceId frameId reason =>
    obtain ⟨b, h⟩ := first_ok h
    obtain ⟨workspace, -, h⟩ := bind_ok.mp h
    obtain ⟨frameId, -, h⟩ := bind_ok.mp h
    split at h
    · exact Or.inr (hsame (Prod.mk.inj (pure_ok.mp h)).1.symm)
    · rename_i found hfound
      obtain ⟨hmem, hkey⟩ := FrameTable.find_some hfound
      have hworkspace : found.workspaceId = workspace := (Prod.mk.inj hkey).1
      obtain rfl := (Prod.mk.inj (pure_ok.mp h)).1
      refine Or.inr ⟨Buries.filtered (p := fun f => f.key ≠ (workspace, frameId)) rfl
        (fun source => isSome_insertOrIgnore) ?_ ?_, fun _ k row frame hrow hstatus hframe hat => ?_⟩
      · intro frame hframe hgone
        have hthis : frame.key = (workspace, frameId) := not_not.mp (of_decide_eq_false hgone)
        rw [FrameTable.key_inj hframe hmem (hthis.trans hkey.symm), ← hworkspace]
        rfl
      · intro frame hframe hother hsource
        have hsame : frame.source = found.source := by
          rw [hsource, ← hworkspace]
          rfl
        rw [FrameTable.source_inj hframe hmem hsame] at hother
        exact of_decide_eq_true hother hkey
      · have hmiss := (pending_cancelled hrow hstatus).2
        refine ⟨frame, FrameTable.mem_filter.mpr ⟨hframe, decide_eq_true fun hthis => ?_⟩, hat⟩
        obtain ⟨hk, hid⟩ := Prod.mk.inj (hat.symm.trans hthis)
        simp [hk, hid] at hmiss
  | tombstoneSource workspaceId kind sourceId reason =>
    obtain ⟨workspace, hworkspace, h⟩ := bind_ok.mp h
    obtain ⟨sourceId', hsource, h⟩ := bind_ok.mp h
    obtain ⟨u, -, h⟩ := bind_ok.mp h
    obtain rfl := pure_ok.mp h
    refine Or.inr ⟨Buries.filtered (p := fun f => f.source ≠ (workspace, kind, sourceId')) rfl
      (fun source => isSome_insertOrIgnore) (fun frame _ hgone => not_not.mp (of_decide_eq_false hgone))
      (fun frame _ hother => of_decide_eq_true hother), fun hkeeps k row frame hrow hstatus hframe hat => ?_⟩
    refine ⟨frame, FrameTable.mem_filter.mpr ⟨hframe, decide_eq_true fun hthis => ?_⟩, hat⟩
    rw [boundedId_eq hworkspace, boundedId_eq hsource] at hthis
    exact hkeeps.2 workspaceId kind sourceId reason rfl frame hframe hthis ⟨k, row, hrow, hstatus, hat⟩
  | pruneExpired workspaceId =>
    obtain ⟨workspace, -, h⟩ := bind_ok.mp h
    obtain rfl := pure_ok.mp h
    exact Or.inr ⟨buries_pruneExpiredLocked, fun _ => survives_pruneExpiredLocked⟩
  | patchSettings workspaceId patch expectedRevision =>
    obtain ⟨workspace, -, h⟩ := bind_ok.mp h
    obtain ⟨u, -, h⟩ := bind_ok.mp h
    obtain ⟨current, -, h⟩ := bind_ok.mp h
    obtain ⟨settings, -, h⟩ := bind_ok.mp h
    obtain rfl := pure_ok.mp h
    refine Or.inr ?_
    split
    · refine ⟨Buries.trans ?_ buries_pruneExpiredLocked, fun _ => ?_⟩
      · exact Buries.expiry rfl rfl
      · exact Survives.expiry rfl
    · refine ⟨Buries.trans ?_ buries_pruneExpiredLocked, fun _ => ?_⟩
      · exact Buries.expiry rfl rfl
      · exact Survives.expiry rfl
  | reserveOpportunity r =>
    obtain ⟨b, h⟩ := first_ok h
    obtain ⟨workspace, -, h⟩ := bind_ok.mp h
    obtain ⟨settings, -, h⟩ := bind_ok.mp h
    split at h
    · exact Or.inr (hsame (Prod.mk.inj (pure_ok.mp h)).1.symm)
    · split at h
      · obtain rfl := (Prod.mk.inj (pure_ok.mp h)).1
        exact Or.inr (hstay rfl rfl)
      · obtain rfl := (Prod.mk.inj (pure_ok.mp h)).1
        exact Or.inr (hstay rfl rfl)
  | resolveOpportunity r =>
    obtain ⟨b, h⟩ := first_ok h
    obtain ⟨hframes, htombstones⟩ := resolveOpportunity_frames h
    exact Or.inr (hstay hframes htombstones)
  | cancelPending workspaceId kind frameId =>
    obtain ⟨workspace, -, h⟩ := bind_ok.mp h
    obtain rfl := pure_ok.mp h
    exact Or.inr (hstay rfl rfl)
  | recordFeedback r =>
    obtain ⟨b, h⟩ := first_ok h
    obtain ⟨hframes, htombstones⟩ := recordFeedback_frames h
    exact Or.inr (hstay hframes htombstones)
  | listFeedback workspaceId =>
    obtain ⟨workspace, -, h⟩ := bind_ok.mp h
    obtain rfl := pure_ok.mp h
    exact Or.inr (hstay rfl rfl)

/-! ## Steps -/

theorem Turn.backed {d' : Dict (String × String) Opportunity} (h : Turn host now s op d') (hbacked : Backed s)
    {k : String × String} {row : Opportunity} (hrow : d'.get k = some row) (hpending : row.status = .pending) :
    ∃ frame ∈ s.frames.rows, frame.key = (k.1, row.frameId) := by
  cases h with
  | cancels hgrants p => exact hbacked k row (pending_cancelled hrow hpending).1 hpending
  | reserves hsettings hreserve hfree hgrants =>
    rw [Dict.get_set] at hrow
    split at hrow
    · rename_i hk
      obtain ⟨frame, hchecked⟩ := reservable_checked hreserve
      obtain rfl := Option.some.inj hrow
      exact ⟨frame, hchecked.found, by rw [hchecked.key, hk]⟩
    · exact hbacked k row hrow hpending
  | renews hsettings hreserve hold hwas hframe hkind hgrants =>
    rw [Dict.get_set] at hrow
    split at hrow
    · rename_i hk
      obtain rfl := Option.some.inj hrow
      obtain ⟨frame, hframe, hkey⟩ := hbacked _ _ hold hwas
      exact ⟨frame, hframe, by rw [hkey, hk]⟩
    · exact hbacked k row hrow hpending
  | settles hop hold hwas hkind houtcome hdelivered =>
    rw [Dict.get_set] at hrow
    split at hrow
    · obtain rfl := Option.some.inj hrow
      exact absurd hpending houtcome
    · exact hbacked k row hrow hpending

theorem upsert_source {frames : FrameTable} {new frame : ActivityFrame} (h : s.frames.upsert new = .ok frames)
    (hframe : frame ∈ s.frames.rows) : ∃ frame' ∈ frames.rows, frame'.source = frame.source := by
  by_cases hsource : frame.source = new.source
  · exact ⟨_, (FrameTable.mem_upsert h).mpr (Or.inr (Or.inl ⟨frame, hframe, hsource, rfl⟩)), hsource.symm⟩
  · exact ⟨frame, (FrameTable.mem_upsert h).mpr (Or.inl ⟨hframe, hsource⟩), rfl⟩

theorem upserted_source {frames : FrameTable} {new frame : ActivityFrame} (h : s.frames.upsert new = .ok frames)
    (hframe : frame ∈ frames.rows) : frame ∈ s.frames.rows ∧ frame.source ≠ new.source ∨
      frame.source = new.source ∧ frame.key = new.key := by
  obtain hold | ⟨old, -, -, rfl⟩ | ⟨-, rfl⟩ := (FrameTable.mem_upsert h).mp hframe
  · exact Or.inl hold
  · exact Or.inr ⟨rfl, rfl⟩
  · exact Or.inr ⟨rfl, rfl⟩

theorem Op.buried (h : op.run host s now = .ok s') (hburied : Buried s) : Buried s' := by
  obtain ⟨new, -, hnone, frames, hupsert, rfl⟩ | ⟨hburies, -⟩ := Op.frames h
  · intro source hs frame hframe hsource
    obtain ⟨hold, -⟩ | ⟨hnew, -⟩ := upserted_source hupsert hframe
    · exact hburied source hs frame hold hsource
    · rw [← hsource, hnew, hnone] at hs
      cases hs
  · exact hburies.keepsBuried hburied

theorem Op.tombstones (h : op.run host s now = .ok s') (hs : (s.tombstones.get source).isSome) :
    (s'.tombstones.get source).isSome := by
  obtain ⟨new, -, -, frames, -, rfl⟩ | ⟨hburies, -⟩ := Op.frames h
  · exact hs
  · exact hburies.kept source hs

theorem Removes.tombstoned (h : op.run host s now = .ok s') (hremoves : Removes s op s' source) :
    (s'.tombstones.get source).isSome := by
  obtain ⟨⟨frame, hframe, rfl⟩, hnone⟩ | ⟨workspaceId, sourceId, reason, rfl, hsource⟩ := hremoves
  · obtain ⟨new, -, -, frames, hupsert, rfl⟩ | ⟨hburies, -⟩ := Op.frames h
    · obtain ⟨frame', hframe', hsame⟩ := upsert_source hupsert hframe
      exact absurd hsame (hnone frame' hframe')
    · exact hburies.gone frame hframe hnone
  · obtain ⟨workspace, hworkspace, h⟩ := bind_ok.mp h
    obtain ⟨sourceId', hid, h⟩ := bind_ok.mp h
    obtain ⟨u, -, h⟩ := bind_ok.mp h
    obtain rfl := pure_ok.mp h
    refine isSome_insertOrIgnore.mpr (Or.inr ?_)
    rw [boundedId_eq hworkspace, boundedId_eq hid]
    exact hsource

theorem Op.backed (h : op.run host s now = .ok s') (hbacked : Backed s) (hkeeps : KeepsFrames host s op) :
    Backed s' := by
  intro k row hrow hpending
  obtain ⟨frame, hframe, hkey⟩ := (Op.turn h).backed hbacked hrow hpending
  obtain ⟨new, hnew, -, frames, hupsert, rfl⟩ | ⟨-, hsurvives⟩ := Op.frames h
  · by_cases hsource : frame.source = new.source
    · have hid : frame.frameId = new.frameId := by
        by_contra hother
        exact hkeeps.1 new hnew frame hframe hsource hother ⟨k, row, hrow, hpending, hkey⟩
      have hmem := (FrameTable.mem_upsert hupsert).mpr (Or.inr (Or.inl ⟨frame, hframe, hsource, rfl⟩))
      have hworkspace : frame.workspaceId = new.workspaceId := (Prod.mk.inj hsource).1
      refine ⟨_, hmem, ?_⟩
      rw [← hkey]
      exact Prod.ext hworkspace.symm hid.symm
    · exact ⟨frame, (FrameTable.mem_upsert hupsert).mpr (Or.inl ⟨hframe, hsource⟩), hkey⟩
  · exact hsurvives hkeeps k row frame hrow hpending hframe hkey

theorem upsertFrame_new {new : ActivityFrame} {b : Bool} (h : s.upsertFrame new = .ok (s', b))
    (hnone : s.tombstones.get new.source = none) : ∃ frames, s.frames.upsert new = .ok frames ∧
      s' = { s with frames } := by
  unfold ActivityFrameStore.upsertFrame at h
  rw [hnone] at h
  obtain ⟨frames, hframes, h⟩ := bind_ok.mp h
  exact ⟨frames, hframes, (Prod.mk.inj (pure_ok.mp h)).1.symm⟩

theorem upsertProjected_new {x : Except ActivityError (Option ActivityFrame)} {frame : Option ActivityFrame}
    {new : ActivityFrame} (hx : x = .ok frame) (hnew : x.toOption.join = some new)
    (h : s.upsertProjected frame = .ok s') (hnone : s.tombstones.get new.source = none) :
    ∃ frames, s.frames.upsert new = .ok frames ∧ s' = { s with frames } := by
  rw [hx] at hnew
  have hframe : frame = some new := hnew
  subst hframe
  obtain ⟨b, h⟩ := first_ok h
  exact upsertFrame_new h hnone

theorem Op.upserted {new : ActivityFrame} (h : op.run host s now = .ok s') (hnew : op.upserts host s = some new)
    (hnone : s.tombstones.get new.source = none) :
    ∃ frames, s.frames.upsert new = .ok frames ∧ s' = { s with frames } := by
  cases op with
  | upsertFrame frame =>
    obtain rfl := Option.some.inj hnew
    obtain ⟨b, h⟩ := first_ok h
    exact upsertFrame_new h hnone
  | project event =>
    obtain ⟨frame, hframe, h⟩ := bind_ok.mp h
    have hjoin : (s.projectedFrame host event).toOption.join = some new := hnew
    exact upsertProjected_new hframe hjoin h hnone
  | rebuildOne workspaceId commit =>
    obtain ⟨frame, hframe, h⟩ := bind_ok.mp h
    have hjoin : (s.rebuiltFrame host workspaceId commit).toOption.join = some new := hnew
    exact upsertProjected_new hframe hjoin h hnone
  | _ => cases hnew

theorem Op.keepsFrames (h : op.run host s now = .ok s') (hburied : Buried s) (hafter : Backed s') :
    KeepsFrames host s op := by
  constructor
  · intro new hnew frame hframe hsource hother ⟨k, row, hrow, hpending, hkey⟩
    have hnone : s.tombstones.get new.source = none := by
      by_contra hsome
      exact hburied new.source (Option.ne_none_iff_isSome.mp hsome) frame hframe hsource
    obtain ⟨frames, hupsert, rfl⟩ := Op.upserted h hnew hnone
    obtain ⟨left, hleft, hsame⟩ := hafter k row hrow hpending
    have hat : left.key = frame.key := hsame.trans hkey.symm
    obtain ⟨hmem, hdifferent⟩ | ⟨-, hnewKey⟩ := upserted_source hupsert hleft
    · rw [FrameTable.key_inj hmem hframe hat] at hdifferent
      exact hdifferent hsource
    · exact hother (Prod.mk.inj (hat.symm.trans hnewKey)).2
  · intro workspaceId kind sourceId reason hop frame hframe hsource ⟨k, row, hrow, hpending, hkey⟩
    subst hop
    obtain ⟨workspace, hworkspace, h⟩ := bind_ok.mp h
    obtain ⟨sourceId', hid, h⟩ := bind_ok.mp h
    obtain ⟨u, -, h⟩ := bind_ok.mp h
    obtain rfl := pure_ok.mp h
    obtain ⟨left, hleft, hsame⟩ := hafter k row hrow hpending
    obtain ⟨hmem, hkept⟩ := FrameTable.mem_filter.mp hleft
    rw [FrameTable.key_inj hmem hframe (hsame.trans hkey.symm)] at hkept
    refine of_decide_eq_true hkept ?_
    rw [boundedId_eq hworkspace, boundedId_eq hid]
    exact hsource

end Rules

/-! ## Every run -/

section Runs

variable {host : Host} {t₀ : ℚ} {hist : List (Op × ℚ)} {s s' : System}

theorem run_buried (hrun : Run (System.Step host) (System.start t₀) hist s) : Buried s.store := by
  refine hrun.invariant (I := fun s => Buried s.store) ?_ fun s l s' hburied hstep => Op.buried hstep.run.2.1 hburied
  intro source hs
  cases hs

/-- A source that was removed has no frame in any later state. Along the runs, and only along
those, whose steps leave the frames of pending opportunities, each pending opportunity refers
to a frame that is there. -/
theorem deleted_stays_deleted (host : Host) (t₀ : ℚ) :
    (∀ older s₁ l s₂ newer s source, Run (System.Step host) (System.start t₀) older s₁ →
      System.Step host s₁ l s₂ → Removes s₁.store l.1 s₂.store source → Run (System.Step host) s₂ newer s →
      ∀ frame ∈ s.store.frames.rows, frame.source ≠ source) ∧
    ∀ hist, Run.Always (System.Step host) (System.start t₀) (fun s => Backed s.store) hist ↔
      Run.Meets (System.Step host) (System.start t₀) (fun s l => KeepsFrames host s.store l.1) hist := by
  constructor
  · intro older s₁ l s₂ newer s source hbefore hstep hremoves hafter
    have hs₂ : (s₂.store.tombstones.get source).isSome := Removes.tombstoned hstep.run.2.1 hremoves
    have hs : (s.store.tombstones.get source).isSome :=
      hafter.invariant (I := fun s => (s.store.tombstones.get source).isSome) hs₂
        fun s l s' hsome hnext => Op.tombstones hnext.run.2.1 hsome
    exact run_buried (Run.append (Run.next hbefore hstep) hafter) source hs
  · intro hist
    refine Run.always_iff_meets (I := fun s => Buried s.store) (Q := fun s => Backed s.store) ?_ ?_ ?_ ?_ ?_ ?_
    · have hrun : Run (System.Step host) (System.start t₀) [] (System.start t₀) := Run.start
      exact run_buried hrun
    · intro s l s' hburied hstep
      exact Op.buried hstep.run.2.1 hburied
    · intro k row hrow
      cases hrow
    · intro s l s' _ hbacked hstep hkeeps
      exact Op.backed hstep.run.2.1 hbacked hkeeps
    · intro s _ hbacked
      exact hbacked
    · intro s l s' hburied _ hstep hafter
      exact Op.keepsFrames hstep.run.2.1 hburied hafter

/-- The frame is deleted, and its turn is projected once more. -/
def teaDeleted : System :=
  (teaPending.next plainHost (.deleteFrame "home" "af_tea" "user_deleted", 40)).get (by decide +kernel)

def teaReplayed : System :=
  (teaDeleted.next plainHost (.upsertFrame (sampleFrame "tea" "conversation"), 50)).get (by decide +kernel)

theorem deleted_stays_deleted_tea :
    ∀ frame ∈ teaReplayed.store.frames.rows, frame.source ≠ ("home", sourceKind, "tea") := by
  have hthere : sampleFrame "tea" "conversation" ∈ teaPending.store.frames.rows := by decide +kernel
  have hnone : teaDeleted.store.frames.rows = [] := by decide +kernel
  have hremoves : Removes teaPending.store (.deleteFrame "home" "af_tea" "user_deleted") teaDeleted.store
      ("home", sourceKind, "tea") := by
    refine Or.inl ⟨⟨_, hthere, rfl⟩, fun frame hframe => ?_⟩
    rw [hnone] at hframe
    cases hframe
  exact (deleted_stays_deleted plainHost 0).1 _ _ _ _ _ _ _ teaMorning_run (Option.some_get _).symm hremoves
    (Run.next Run.start (Option.some_get _).symm)

/-- The source of the pending frame is tombstoned. -/
def teaTombstoned : System :=
  (teaPending.next plainHost (.tombstoneSource "home" sourceKind "tea" "source_deleted", 40)).get (by decide +kernel)

/-- A tombstone leaves an opportunity pending about a frame that is gone. -/
theorem tombstone_leaves_pending : ∃ hist s, Run (System.Step plainHost) (System.start 0) hist s ∧
    ¬ Backed s.store := by
  refine ⟨_, teaTombstoned, Run.next teaMorning_run (Option.some_get _).symm, fun hbacked => ?_⟩
  have hrow : teaTombstoned.store.opportunities.get ("home", "job_tea") =
      some ⟨"req_tea", "af_tea", sourceKind, "1970-01-01", .pending, 30, none, some 604800⟩ := by decide +kernel
  have hnone : teaTombstoned.store.frames.rows = [] := by decide +kernel
  obtain ⟨frame, hframe, -⟩ := hbacked _ _ hrow rfl
  rw [hnone] at hframe
  cases hframe

end Runs

end Activity
