import Yuizaki.Desktop.Steps

/- What a lock section of the desktop controller does to the host lease and to the leases.

   A fence compares the feature revision, so a section that moves the host lease in any other
   way than by a heartbeat in time has to raise it; and a lease that is revoked stays revoked. -/
namespace Desktop

namespace Controller

/-- The counter goes up, or the feature stays as it is and the deadline is moved only while it
has not passed; a lease stays, and one that is revoked stays revoked. -/
structure Moves (now : ℚ) (c c' : Controller) : Prop where
  host : c.featureRevision < c'.featureRevision ∨
    c'.featureRevision = c.featureRevision ∧ c'.enabled = c.enabled ∧
      (c'.leaseDeadline = c.leaseDeadline ∨ now < c.leaseDeadline)
  leases : ∀ id lease, c.objects.get id = some lease →
    ∃ lease', c'.objects.get id = some lease' ∧ (lease.revoked = true → lease'.revoked = true)

section Rules

variable {host : Host} {c c' c'' : Controller} {now : ℚ} {id : String} {lease : TargetLease}

theorem Moves.refl (now : ℚ) (c : Controller) : Moves now c c where
  host := Or.inr ⟨rfl, rfl, Or.inl rfl⟩
  leases _ lease h := ⟨lease, h, fun hrevoked => hrevoked⟩

theorem Moves.trans (h : Moves now c c') (h' : Moves now c' c'') : Moves now c c'' where
  host := by
    obtain hup | ⟨hsame, henabled, hdeadline⟩ := h.host
    · obtain hup' | ⟨hsame', -⟩ := h'.host
      · exact Or.inl (hup.trans hup')
      · exact Or.inl (hsame'.symm ▸ hup)
    · obtain hup' | ⟨hsame', henabled', hdeadline'⟩ := h'.host
      · exact Or.inl (hsame ▸ hup')
      · refine Or.inr ⟨hsame'.trans hsame, henabled'.trans henabled, ?_⟩
        obtain hkept | hpassed := hdeadline
        · rw [hkept] at hdeadline'
          exact hdeadline'
        · exact Or.inr hpassed
  leases id lease hlease := by
    obtain ⟨lease', hlease', hkeeps⟩ := h.leases id lease hlease
    obtain ⟨lease'', hlease'', hkeeps'⟩ := h'.leases id lease' hlease'
    exact ⟨lease'', hlease'', fun hrevoked => hkeeps' (hkeeps hrevoked)⟩

theorem Moves.quiet (hrevision : c'.featureRevision = c.featureRevision) (henabled : c'.enabled = c.enabled)
    (hdeadline : c'.leaseDeadline = c.leaseDeadline) (hobjects : c'.objects = c.objects) : Moves now c c' where
  host := Or.inr ⟨hrevision, henabled, Or.inl hdeadline⟩
  leases _ lease h := ⟨lease, hobjects ▸ h, fun hrevoked => hrevoked⟩

theorem get_marked {P : String → TargetLease → Prop} [∀ id lease, Decidable (P id lease)]
    (hobjects : c'.objects = c.objects.mapValues fun id lease =>
      if P id lease then { lease with revoked := true } else lease)
    (h : c.objects.get id = some lease) :
    ∃ lease', c'.objects.get id = some lease' ∧ (lease.revoked = true → lease'.revoked = true) := by
  refine ⟨if P id lease then { lease with revoked := true } else lease, ?_, fun hrevoked => ?_⟩
  · rw [hobjects, Dict.get_mapValues, h]
    rfl
  · split
    · rfl
    · exact hrevoked

theorem moves_revokeLeases (p : TargetLease → Bool) : Moves now c (c.revokeLeases p) where
  host := Or.inr ⟨rfl, rfl, Or.inl rfl⟩
  leases _ _ h := get_marked (P := fun id lease => id ∈ c.leases ∧ p lease = true) rfl h

theorem moves_markRevoked (id : String) : Moves now c (c.markRevoked id) where
  host := Or.inr ⟨rfl, rfl, Or.inl rfl⟩
  leases _ _ h := get_marked (P := fun other _ => other = id) rfl h

theorem moves_revokeAllLocked : Moves now c c.revokeAllLocked :=
  (moves_revokeLeases fun _ => true).trans (Moves.quiet rfl rfl rfl rfl)

theorem Moves.raised (hup : c.featureRevision < c'.featureRevision) (h : Moves now c' c'') (hobjects : c'.objects = c.objects) :
    Moves now c c'' where
  host := by
    obtain hmore | ⟨hsame, -⟩ := h.host
    · exact Or.inl (hup.trans hmore)
    · exact Or.inl (hsame.symm ▸ hup)
  leases id lease hlease := h.leases id lease (hobjects.symm ▸ hlease)

theorem moves_turned (enabled emergencyStopped : Bool) : Moves now c (c.turned enabled emergencyStopped) :=
  Moves.raised (Nat.lt_succ_self _) moves_revokeAllLocked rfl

theorem moves_expireHostLease : Moves now c (c.expireHostLease now) := by
  unfold expireHostLease
  split
  · exact Moves.raised (Nat.lt_succ_self _) moves_revokeAllLocked rfl
  · exact Moves.refl now c

theorem moves_startHostLease {ttl : ℚ} (hup : c.featureRevision < c'.featureRevision) (h : Moves now c c') :
    Moves now c (c'.startHostLease now ttl).2 := by
  unfold startHostLease
  split
  · exact h
  · exact ⟨Or.inl hup, h.leases⟩

theorem moves_setEnabled (enabled : Bool) (ttl : ℚ) : Moves now c (c.setEnabled now enabled ttl).2 := by
  unfold setEnabled
  dsimp only
  have hexpire : Moves now c (c.expireHostLease now) := moves_expireHostLease
  split
  · exact hexpire
  · split
    · exact hexpire.trans (moves_startHostLease (Nat.lt_succ_self _) (moves_turned _ _))
    · have hturned : Moves now (c.expireHostLease now)
          ((c.expireHostLease now).turned false (c.expireHostLease now).emergencyStopped) := moves_turned _ _
      exact hexpire.trans ⟨Or.inl (Nat.lt_succ_self _), hturned.leases⟩

theorem moves_rearm (ttl : ℚ) : Moves now c (c.rearm now ttl).2 :=
  moves_startHostLease (Nat.lt_succ_self _) (moves_turned _ _)

theorem expireHostLease_live (h : (c.expireHostLease now).enabled = true) : now < (c.expireHostLease now).leaseDeadline := by
  unfold expireHostLease at h ⊢
  split at h
  · cases h
  · rename_i hlive
    rw [if_neg hlive]
    exact not_le.mp fun hle => hlive ⟨h, hle⟩

theorem moves_heartbeat (epoch : ℕ) (ttl : ℚ) : Moves now c (c.heartbeat now epoch ttl).2 := by
  have hexpire : Moves now c (c.expireHostLease now) := moves_expireHostLease
  unfold heartbeat
  split
  · exact Moves.refl now c
  · dsimp only
    split
    · exact hexpire
    · rename_i hactive
      split
      · exact hexpire
      · -- a heartbeat is taken while the host lease has not passed
        have henabled : (c.expireHostLease now).enabled = true := by
          cases hfeature : (c.expireHostLease now).enabled with
          | true => rfl
          | false => exact absurd (Or.inl hfeature) hactive
        exact hexpire.trans ⟨Or.inr ⟨rfl, rfl, Or.inr (expireHostLease_live henabled)⟩, (Moves.refl now _).leases⟩

theorem moves_emergencyStop : Moves now c c.emergencyStop := by
  have hturned : Moves now c (c.turned false true) := moves_turned _ _
  exact ⟨Or.inl (Nat.lt_succ_self _), hturned.leases⟩

theorem moves_revokeAll : Moves now c c.revokeAll := Moves.raised (Nat.lt_succ_self _) moves_revokeAllLocked rfl

theorem moves_revokeTarget (targetLease : String) : Moves now c (c.revokeTarget targetLease).2 := by
  unfold revokeTarget
  split
  · exact Moves.refl now c
  · split
    · exact (moves_markRevoked _).trans (Moves.quiet rfl rfl rfl rfl)
    · exact Moves.refl now c

theorem moves_revokeMatching (p : DesktopActionScope → Bool) : Moves now c (c.revokeMatching p) := by
  have hmarked : Moves now c (c.revokeLeases fun lease => p lease.scope) := moves_revokeLeases _
  unfold revokeMatching
  dsimp only
  split
  · exact hmarked.trans (Moves.quiet rfl rfl rfl rfl)
  · exact hmarked

theorem moves_bindContext (ctx : ℕ) (scope : DesktopActionScope) : Moves now c (c.bindContext now ctx scope) := by
  have hexpire : Moves now c (c.expireHostLease now) := moves_expireHostLease
  unfold bindContext
  dsimp only
  split
  · exact hexpire.trans (Moves.quiet rfl rfl rfl rfl)
  · exact hexpire.trans (Moves.quiet rfl rfl rfl rfl)

theorem scopeForContext_controller (ctx : ℕ) : (c.scopeForContext now ctx).2 = c.expireHostLease now := by
  unfold scopeForContext
  dsimp only
  split
  · rfl
  · split
    · rfl
    · split
      · rfl
      · rfl

theorem moves_scopeForContext (ctx : ℕ) : Moves now c (c.scopeForContext now ctx).2 := by
  rw [scopeForContext_controller]
  exact moves_expireHostLease

theorem moves_beginDiscovery (identitySecret : Option String) : Moves now c (c.beginDiscovery host now identitySecret).2 := by
  have hexpire : Moves now c (c.expireHostLease now) := moves_expireHostLease
  unfold beginDiscovery
  dsimp only
  split
  · exact hexpire
  · refine hexpire.trans ?_
    unfold configureIdentitySecret
    split
    · exact Moves.refl now _
    · split
      · exact Moves.refl now _
      · split
        · exact Moves.refl now _
        · exact Moves.raised (Nat.lt_succ_self _) moves_revokeAllLocked rfl

theorem moves_recordDiscovery (fence : StopFence) (ttl : ℚ) (discovered : List NativeWindowTarget) :
    Moves now c (c.recordDiscovery host now fence ttl discovered).2 := by
  have hexpire : Moves now c (c.expireHostLease now) := moves_expireHostLease
  unfold recordDiscovery
  dsimp only
  split
  · exact hexpire
  · exact hexpire.trans (Moves.quiet rfl rfl rfl rfl)

theorem moves_grantApp (grantId appId : String) (discoveryRevision : ℕ) (allowedActions : List Action) (ttl : ℚ) :
    Moves now c (c.grantApp now grantId appId discoveryRevision allowedActions ttl).2 := by
  have hpruned : Moves now c ((c.expireHostLease now).pruneAppGrants now) :=
    moves_expireHostLease.trans (Moves.quiet rfl rfl rfl rfl)
  have hrevoked : Moves now c (((c.expireHostLease now).pruneAppGrants now).revokeLeases fun _ => true) :=
    hpruned.trans (moves_revokeLeases _)
  unfold grantApp
  split
  · exact Moves.refl now c
  · split
    · exact Moves.refl now c
    · split
      · exact Moves.refl now c
      · dsimp only
        split
        · exact hpruned
        · split
          · exact hpruned
          · split
            · exact hpruned
            · split
              · exact hrevoked.trans (Moves.quiet rfl rfl rfl rfl)
              · exact hrevoked.trans (Moves.quiet rfl rfl rfl rfl)

theorem moves_issueLease {scope : DesktopActionScope} {ttl : ℚ} {window : String × NativeWindowTarget}
    (hfresh : c.objects.get window.1 = none) : Moves now c (issueLease host now scope ttl c window) := by
  unfold issueLease
  split
  · exact Moves.refl now c
  · refine ⟨Or.inr ⟨rfl, rfl, Or.inl rfl⟩, fun id lease hlease => ⟨lease, ?_, fun hrevoked => hrevoked⟩⟩
    have hne : id ≠ window.1 := by
      intro heq
      rw [heq, hfresh] at hlease
      cases hlease
    exact (Dict.get_set_of_ne hne).trans hlease

theorem issueLease_fresh {scope : DesktopActionScope} {ttl : ℚ} {window : String × NativeWindowTarget}
    (hne : id ≠ window.1) (hfresh : c.objects.get id = none) :
    (issueLease host now scope ttl c window).objects.get id = none := by
  unfold issueLease
  split
  · exact hfresh
  · exact (Dict.get_set_of_ne hne).trans hfresh

theorem moves_issueLeases {scope : DesktopActionScope} {ttl : ℚ} (windows : List (String × NativeWindowTarget))
    (c : Controller) (hnodup : (windows.map Prod.fst).Nodup)
    (hfresh : ∀ window ∈ windows, c.objects.get window.1 = none) :
    Moves now c (windows.foldl (issueLease host now scope ttl) c) := by
  induction windows generalizing c with
  | nil => exact Moves.refl now c
  | cons window rest ih =>
    obtain ⟨hnew, hnodup⟩ := List.nodup_cons.mp hnodup
    have hfirst : Moves now c (issueLease host now scope ttl c window) :=
      moves_issueLease (hfresh window List.mem_cons_self)
    refine hfirst.trans (ih _ hnodup fun other hother => ?_)
    have hne : other.1 ≠ window.1 := fun heq => hnew (heq ▸ List.mem_map_of_mem hother)
    exact issueLease_fresh hne (hfresh other (List.mem_cons_of_mem _ hother))

theorem expireHostLease_fresh (h : c.objects.get id = none) : (c.expireHostLease now).objects.get id = none := by
  unfold expireHostLease
  split
  · show (c.objects.mapValues _).get id = none
    rw [Dict.get_mapValues, h]
    rfl
  · exact h

theorem moves_listWindows {ctx : ℕ} {ttl : ℚ} {scope : DesktopActionScope} {fence : StopFence}
    {windows : List (String × NativeWindowTarget)} (hnodup : (windows.map Prod.fst).Nodup)
    (hfresh : ∀ window ∈ windows, c.objects.get window.1 = none) :
    Moves now c (c.listWindows host now ctx ttl scope fence windows).2 := by
  have hlooked : Moves now c (c.scopeForContext now ctx).2 := moves_scopeForContext ctx
  have hcontroller : (c.scopeForContext now ctx).2 = c.expireHostLease now := scopeForContext_controller ctx
  unfold listWindows
  split
  · rename_i e c' hscope
    rw [hscope] at hlooked
    exact hlooked
  · rename_i current c' hscope
    rw [hscope] at hlooked hcontroller
    dsimp only at hlooked hcontroller
    split
    · exact hlooked
    · split
      · exact hlooked
      · dsimp only
        split
        · exact hlooked.trans (Moves.quiet rfl rfl rfl rfl)
        · have hpruned : Moves now c ((c'.pruneAppGrants now).pruneLeases now) :=
            hlooked.trans (Moves.quiet rfl rfl rfl rfl)
          have hobjects : c'.objects = (c.expireHostLease now).objects := congrArg objects hcontroller
          have htaken : ((windows.take maxWindows).map Prod.fst).Nodup :=
            ((List.take_sublist _ _).map Prod.fst).nodup hnodup
          refine hpruned.trans (moves_issueLeases _ _ htaken fun window hwindow => ?_)
          show c'.objects.get window.1 = none
          rw [hobjects]
          exact expireHostLease_fresh (hfresh window (List.mem_of_mem_take hwindow))

theorem moves_checkLease (id : String) (scope : DesktopActionScope) : Moves now c (c.checkLease now id scope).2 := by
  have hmarked : Moves now c (c.markRevoked id) := moves_markRevoked id
  have hsame : Moves now c c := Moves.refl now c
  unfold checkLease
  split
  · exact hsame
  · split
    · exact hsame
    · split
      · exact hmarked
      · split
        · exact hsame
        · split
          · exact hsame
          · split
            · exact hsame
            · split
              · exact hsame
              · split
                · exact hmarked
                · exact hsame

theorem moves_consumePermit (nonce leaseId : String) : Moves now c (c.consumePermit nonce leaseId).2 := by
  unfold consumePermit
  split
  · exact Moves.refl now c
  · dsimp only
    refine Moves.trans ?_ (moves_markRevoked leaseId)
    exact Moves.quiet rfl rfl rfl rfl

theorem moves_checkTransaction (live : LiveAction) (current : NativeWindowTarget) :
    Moves now c (c.checkTransaction host now live current).2 := by
  have hexpire : Moves now c (c.expireHostLease now) := moves_expireHostLease
  unfold checkTransaction
  dsimp only
  split
  · exact hexpire
  · split
    · exact hexpire
    · split
      · exact hexpire
      · split
        · exact hexpire
        · split
          · exact hexpire
          · split
            · exact hexpire
            · split
              · exact hexpire
              · exact hexpire

end Rules

end Controller

end Desktop
