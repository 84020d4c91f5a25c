import Yuizaki.Desktop.Moves
import Mathlib.Data.List.Perm.Subperm

/- What a native call rests on, in every interleaving of the lock sections.

   The transaction looks at the host lease, the grant and the fence under one lock, so whatever
   came in between, a native call has a grant for its action that had not run out when the fence
   was issued, and a host lease that had not (`granted`). The lease itself is looked at before
   the fence is issued and not again: a native call is the only one of its lease, and the lease
   was neither revoked nor expired, where the section that issues the fence finds it so
   (`FindsLease`). -/
namespace Desktop

open Transition

/-! ## Statements -/

/-- A native call has a grant of its lease for its action, which like the host lease had not
run out when the fence was issued. -/
structure NativeCall.Granted (call : NativeCall) : Prop where
  action : call.live.action ∈ call.grant.allowedActions
  revision : call.grant.revision = call.live.lease.appGrantRevision
  app : call.grant.appScopeId = call.live.lease.appScopeId
  standing : call.grant.revoked = false
  grantLives : call.live.issuedAt < call.grant.expiresAt
  hostEnabled : call.live.hostEnabled = true
  hostLives : call.live.issuedAt < call.live.hostDeadline

/-- Each lease has one native call at most, and was neither revoked nor expired when the fence
of the call was issued. -/
structure System.HoldsLeases (s : System) : Prop where
  once : (s.calls.map fun call => call.live.leaseId).Nodup
  standing : ∀ call ∈ s.calls, call.live.found.revoked = false ∧ call.live.issuedAt < call.live.found.expiresAt

/-- The section that issues a fence finds the lease neither revoked nor expired. -/
def FindsLease (s : System) (l : Event × ℚ) : Prop :=
  ∀ i windows leaseId lease action nonce found, l.1 = .resume i windows →
    s.pending[i]? = some (.consume leaseId lease action nonce) → nonce ∉ s.controller.usedPermits →
    s.controller.objects.get leaseId = some found → found.revoked = false ∧ l.2 < found.expiresAt

def findsLease (s : System) (l : Event × ℚ) : Bool :=
  match l.1 with
  | .resume i _ =>
    match s.pending[i]? with
    | some (.consume leaseId _ _ nonce) =>
      decide (nonce ∈ s.controller.usedPermits) ||
        (s.controller.objects.get leaseId).all fun found => !found.revoked && decide (l.2 < found.expiresAt)
    | _ => true
  | _ => true

theorem FindsLease.of_test {s : System} {l : Event × ℚ} (h : findsLease s l = true) : FindsLease s l := by
  intro i windows leaseId lease action nonce found hevent hpart hfresh hfound
  unfold findsLease at h
  simp only [hevent, hpart, hfound, hfresh, decide_false, Bool.false_or, Option.all_some, Bool.and_eq_true,
    Bool.not_eq_true', decide_eq_true_eq] at h
  exact h

def System.CheckedStep (host : Host) (s : System) (l : Event × ℚ) (s' : System) : Prop :=
  s.Step host l s' ∧ FindsLease s l

namespace System

/-! ## What a step does to the live actions -/

/-- The live actions that were issued a fence: those with a native call and those under way. -/
def lives (s : System) : List LiveAction := s.calls.map NativeCall.live ++ s.pending.filterMap Pending.live?

/-- The controller moves, and the live actions stay as they are. -/
structure Quiet (now : ℚ) (s s' : System) : Prop where
  moves : Controller.Moves now s.controller s'.controller
  calls : s'.calls = s.calls
  clock : s'.clock = s.clock
  pending : ∃ extra, s'.pending = s.pending ++ extra ∧ ∀ part ∈ extra, part.live? = none

section Rules

variable {host : Host} {now : ℚ} {s s' : System} {windows : List (String × NativeWindowTarget)}

theorem Quiet.controller {c : Controller} (h : Controller.Moves now s.controller c) :
    Quiet now s { s with controller := c } where
  moves := h
  calls := rfl
  clock := rfl
  pending := ⟨[], (List.append_nil _).symm, fun _ hnone => by cases hnone⟩

theorem Quiet.refl (now : ℚ) (s : System) : Quiet now s s := Quiet.controller (Controller.Moves.refl now _)

theorem Quiet.after {α : Type} {result : Section α} {next : α → List Pending}
    (h : Controller.Moves now s.controller result.2) (hnext : ∀ a, ∀ part ∈ next a, part.live? = none) :
    Quiet now s (s.after result next) where
  moves := h
  calls := rfl
  clock := rfl
  pending := by
    refine ⟨_, rfl, fun part hpart => ?_⟩
    split at hpart
    · exact hnext _ part hpart
    · cases hpart

theorem Quiet.awaits {extra : List Pending} (h : ∀ part ∈ extra, part.live? = none) :
    Quiet now s { s with pending := s.pending ++ extra } where
  moves := Controller.Moves.refl now _
  calls := rfl
  clock := rfl
  pending := ⟨extra, rfl, h⟩

theorem quiet_revokeMatching (p : DesktopActionScope ⊕ String) : Quiet now s (s.revokeMatching p) where
  moves := Controller.moves_revokeMatching _
  calls := rfl
  clock := rfl
  pending := ⟨[.unbind p], rfl, fun part hpart => by rw [List.mem_singleton.mp hpart]; rfl⟩

theorem act_quiet {e : Event} (h : s.act host now e = some s') (hresume : ∀ i windows, e ≠ .resume i windows) :
    Quiet now s s' := by
  unfold act at h
  cases e with
  | setEnabled enabled ttl =>
    obtain rfl := Option.some.inj h
    exact Quiet.controller (Controller.moves_setEnabled enabled ttl)
  | rearm ttl =>
    obtain rfl := Option.some.inj h
    exact Quiet.controller (Controller.moves_rearm ttl)
  | heartbeat epoch ttl =>
    obtain rfl := Option.some.inj h
    exact Quiet.controller (Controller.moves_heartbeat epoch ttl)
  | emergencyStop =>
    obtain rfl := Option.some.inj h
    exact Quiet.controller Controller.moves_emergencyStop
  | revokeAll =>
    obtain rfl := Option.some.inj h
    exact Quiet.controller Controller.moves_revokeAll
  | revokeTarget targetLease =>
    obtain rfl := Option.some.inj h
    exact Quiet.controller (Controller.moves_revokeTarget targetLease)
  | revokeScope scope =>
    obtain rfl := Option.some.inj h
    split
    · exact quiet_revokeMatching _
    · exact Quiet.refl now s
  | revokeSession sessionId =>
    obtain rfl := Option.some.inj h
    exact quiet_revokeMatching _
  | bindContext ctx scope =>
    obtain rfl := Option.some.inj h
    split
    · exact Quiet.controller (Controller.moves_bindContext ctx _)
    · exact Quiet.refl now s
  | unbindContext ctx =>
    obtain rfl := Option.some.inj h
    exact Quiet.controller (Controller.Moves.quiet rfl rfl rfl rfl)
  | hostDiscover ttl identitySecret =>
    dsimp only at h
    split at h
    · obtain rfl := Option.some.inj h
      refine Quiet.after (Controller.moves_beginDiscovery identitySecret) fun _ part hpart => ?_
      rw [List.mem_singleton.mp hpart]
      rfl
    · obtain rfl := Option.some.inj h
      exact Quiet.refl now s
  | grantApp grantId appId discoveryRevision allowedActions ttl =>
    dsimp only at h
    split at h
    · obtain rfl := Option.some.inj h
      exact Quiet.controller (Controller.moves_grantApp grantId appId discoveryRevision allowedActions ttl)
    · cases h
  | listTargets ctx ttl =>
    obtain rfl := Option.some.inj h
    refine Quiet.after (Controller.moves_scopeForContext ctx) fun scope part hpart => ?_
    split at hpart
    · rw [List.mem_singleton.mp hpart]
      rfl
    · cases hpart
  | preview ctx targetLease =>
    obtain rfl := Option.some.inj h
    refine Quiet.awaits fun part hpart => ?_
    split at hpart
    · rw [List.mem_singleton.mp hpart]
      rfl
    · cases hpart
  | perform r =>
    obtain rfl := Option.some.inj h
    refine Quiet.awaits fun part hpart => ?_
    split at hpart
    · rw [List.mem_singleton.mp hpart]
      rfl
    · cases hpart
  | look =>
    obtain rfl := Option.some.inj h
    exact Quiet.controller Controller.moves_expireHostLease
  | latch =>
    obtain rfl := Option.some.inj h
    exact Quiet.controller (Controller.moves_turned false true)
  | resume i windows => exact absurd rfl (hresume i windows)

theorem expireHostLease_same {c : Controller} (h : (c.expireHostLease now).enabled = true) : c.expireHostLease now = c := by
  unfold Controller.expireHostLease at h ⊢
  split at h
  · cases h
  · rename_i hlive
    exact if_neg hlive

theorem leaseGrant_some {c : Controller} {lease : TargetLease} {grant : AppGrant} (h : c.leaseGrant now lease = some grant) :
    grant.revoked = false ∧ now < grant.expiresAt ∧ grant.revision = lease.appGrantRevision ∧
      grant.appScopeId = lease.appScopeId := by
  have hkept := (Option.filter_eq_some_iff.mp h).2
  simp only [Controller.grantActive, Bool.and_eq_true, Bool.not_eq_true', decide_eq_true_eq] at hkept
  exact ⟨hkept.1.1.1.1, hkept.1.1.1.2, hkept.1.2, hkept.2⟩

theorem checkTransaction_ok {c c' : Controller} {live : LiveAction} {current : NativeWindowTarget} {grant : AppGrant}
    (h : c.checkTransaction host now live current = (.ok grant, c')) :
    (c.expireHostLease now).enabled = true ∧ (c.expireHostLease now).leaseGrant now live.lease = some grant ∧
      live.action ∈ grant.allowedActions ∧ (c.expireHostLease now).fenceMoved live.fence = false := by
  unfold Controller.checkTransaction at h
  dsimp only at h
  split at h
  · cases h
  · rename_i henabled
    split at h
    · cases h
    · split at h
      · cases h
      · rename_i found hgrant
        split at h
        · cases h
        · rename_i hallowed
          split at h
          · cases h
          · split at h
            · cases h
            · split at h
              · cases h
              · rename_i hfence
                obtain rfl := Except.ok.inj (Prod.mk.inj h).1
                have hstill : (c.expireHostLease now).fenceMoved live.fence = false :=
                  Bool.not_eq_true _ ▸ fun hmoved => hfence (Or.inl hmoved)
                exact ⟨Bool.not_eq_false _ ▸ henabled, hgrant, not_not.mp hallowed, hstill⟩

theorem checkTransaction_granted {c c' : Controller} {live : LiveAction} {current : NativeWindowTarget} {grant : AppGrant}
    (h : c.checkTransaction host now live current = (.ok grant, c')) (hissued : live.issuedAt ≤ now)
    (hhost : c.featureRevision = live.fence.featureRevision →
      c.enabled = live.hostEnabled ∧ (live.hostDeadline ≤ live.issuedAt → c.leaseDeadline = live.hostDeadline)) :
    NativeCall.Granted ⟨live, grant⟩ := by
  obtain ⟨hon, hgrant, haction, hfence⟩ := checkTransaction_ok h
  have hlive : now < (c.expireHostLease now).leaseDeadline := Controller.expireHostLease_live hon
  have hkept : c.expireHostLease now = c := expireHostLease_same hon
  rw [hkept] at hon hgrant hfence hlive
  obtain ⟨hstanding, hlives, hrevision, happ⟩ := leaseGrant_some hgrant
  have hsame : c.featureRevision = live.fence.featureRevision := by
    simp only [Controller.fenceMoved, Bool.or_eq_false_iff, decide_eq_false_iff_not, not_not] at hfence
    exact hfence.1.2
  obtain ⟨henabled, hdeadline⟩ := hhost hsame
  exact {
    action := haction
    revision := hrevision
    app := happ
    standing := hstanding
    grantLives := lt_of_le_of_lt hissued hlives
    hostEnabled := henabled ▸ hon
    hostLives := by
      -- a host lease that had run out when the fence was issued is the one the transaction looks at
      by_contra hpassed
      have hle : live.hostDeadline ≤ live.issuedAt := not_lt.mp hpassed
      rw [hdeadline hle] at hlive
      exact absurd (lt_of_lt_of_le hlive hle) (not_lt.mpr hissued) }

/-! ## What a step does to the fences -/

/-- What a controller still tells of the host lease under which a fence was issued. -/
structure Knows (c : Controller) (clock : ℚ) (live : LiveAction) : Prop where
  issued : live.issuedAt ≤ clock
  revision : live.fence.featureRevision ≤ c.featureRevision
  host : c.featureRevision = live.fence.featureRevision →
    c.enabled = live.hostEnabled ∧ (live.hostDeadline ≤ live.issuedAt → c.leaseDeadline = live.hostDeadline)

theorem Knows.moves {c c' : Controller} {clock : ℚ} {live : LiveAction} (h : Knows c clock live) (hclock : clock ≤ now)
    (hmoves : Controller.Moves now c c') : Knows c' now live where
  issued := h.issued.trans hclock
  revision := by
    obtain hup | ⟨hsame, -⟩ := hmoves.host
    · exact h.revision.trans hup.le
    · exact hsame ▸ h.revision
  host := by
    intro hfence
    obtain hup | ⟨hsame, henabled, hdeadline⟩ := hmoves.host
    · have hle : live.fence.featureRevision ≤ c.featureRevision := h.revision
      omega
    · obtain ⟨hon, hpassed⟩ := h.host (hsame ▸ hfence)
      refine ⟨henabled.trans hon, fun hle => ?_⟩
      obtain hkept | hahead := hdeadline
      · exact hkept.trans (hpassed hle)
      · rw [hpassed hle] at hahead
        exact absurd (h.issued.trans hclock) (not_le.mpr (lt_of_lt_of_le hahead hle))

/-- A live action goes on with another part of its own, or is over. -/
structure GoesOn (now : ℚ) (live : LiveAction) (s s' : System) : Prop where
  moves : Controller.Moves now s.controller s'.controller
  calls : s'.calls = s.calls
  clock : s'.clock = s.clock
  pending : s'.pending = s.pending ∨ ∃ part, s'.pending = s.pending ++ [part] ∧ part.live? = some live ∧
    ∀ other grant, part = .native other grant → NativeCall.Granted ⟨other, grant⟩

theorem after_ok {α : Type} {result : Section α} {next : α → List Pending} {a : α} {c : Controller} (h : result = (.ok a, c)) :
    (s.after result next).pending = s.pending ++ next a := by
  rw [h]
  rfl

theorem after_error {α : Type} {result : Section α} {next : α → List Pending} {e : DesktopActionError} {c : Controller}
    (h : result = (.error e, c)) : (s.after result next).pending = s.pending := by
  rw [h]
  exact List.append_nil _

theorem resume_goesOn {part : Pending} {live : LiveAction} (hlive : part.live? = some live)
    (hnative : ∀ other grant, part ≠ .native other grant) (hknows : Knows s.controller now live) :
    GoesOn now live s (s.resume host now windows part) := by
  have hexpire : Controller.Moves now s.controller (s.controller.expireHostLease now) :=
    Controller.moves_expireHostLease
  cases part with
  | driverState driven =>
    obtain rfl := Option.some.inj hlive
    refine ⟨hexpire, rfl, rfl, ?_⟩
    cases hmoved : (s.controller.expireHostLease now).fenceMoved driven.fence with
    | true => exact Or.inl (by simp [resume, hmoved])
    | false =>
      exact Or.inr ⟨.driverGrant driven, by simp [resume, hmoved], rfl, fun other grant hpart => by cases hpart⟩
  | driverGrant driven =>
    obtain rfl := Option.some.inj hlive
    refine ⟨hexpire, rfl, rfl, ?_⟩
    cases hgranted : (s.controller.expireHostLease now).grantIsActiveForLease now driven.lease driven.action with
    | true =>
      exact Or.inr ⟨.discover driven, by simp [resume, hgranted], rfl, fun other grant hpart => by cases hpart⟩
    | false => exact Or.inl (by simp [resume, hgranted])
  | discover driven =>
    obtain rfl := Option.some.inj hlive
    refine ⟨Controller.Moves.refl now _, rfl, rfl, ?_⟩
    cases hcurrent : s.controller.currentTarget host driven.lease (windows.map Prod.snd) with
    | none => exact Or.inl (by simp [resume, hcurrent])
    | some current =>
      exact Or.inr ⟨.transact driven current, by simp [resume, hcurrent], rfl, fun other grant hpart => by cases hpart⟩
  | transact driven current =>
    obtain rfl := Option.some.inj hlive
    refine ⟨Controller.moves_checkTransaction driven current, rfl, rfl, ?_⟩
    cases hchecked : s.controller.checkTransaction host now driven current with
    | mk answer c' =>
      cases answer with
      | error e => exact Or.inl (after_error hchecked)
      | ok grant =>
        refine Or.inr ⟨.native driven grant, after_ok hchecked, rfl, fun other granted hpart => ?_⟩
        obtain ⟨rfl, rfl⟩ := Pending.native.inj hpart
        exact checkTransaction_granted hchecked hknows.issued hknows.host
  | native driven grant => exact absurd rfl (hnative driven grant)
  | _ => cases hlive

theorem resume_quiet {part : Pending} (hnodup : (windows.map Prod.fst).Nodup)
    (hfresh : ∀ window ∈ windows, s.controller.objects.get window.1 = none) (hlive : part.live? = none)
    (hconsume : ∀ leaseId lease action nonce, part ≠ .consume leaseId lease action nonce) :
    Quiet now s (s.resume host now windows part) := by
  cases part with
  | unbind p => exact Quiet.controller (Controller.Moves.quiet rfl rfl rfl rfl)
  | discoverFence ttl => exact Quiet.awaits fun part hpart => by rw [List.mem_singleton.mp hpart]; rfl
  | discoverDriver ttl fence =>
    exact Quiet.after (Controller.moves_recordDiscovery fence ttl _) fun _ part hpart => by cases hpart
  | listFence ctx ttl scope => exact Quiet.awaits fun part hpart => by rw [List.mem_singleton.mp hpart]; rfl
  | listDriver ctx ttl scope fence =>
    exact Quiet.after (Controller.moves_listWindows hnodup hfresh) fun _ part hpart => by cases hpart
  | leaseScope ctx targetLease purpose =>
    refine Quiet.after (Controller.moves_scopeForContext ctx) fun scope part hpart => ?_
    rw [List.mem_singleton.mp hpart]
    rfl
  | leaseCheck leaseId scope purpose =>
    refine Quiet.after (Controller.moves_checkLease leaseId scope) fun lease part hpart => ?_
    cases purpose with
    | look => cases hpart
    | perform r =>
      obtain ⟨nonce, -, rfl⟩ := List.mem_map.mp hpart
      rfl
  | consume leaseId lease action nonce => exact absurd rfl (hconsume leaseId lease action nonce)
  | _ => cases hlive

/-- The live action that a section at `now` issues, of the lease it found. -/
def issued (s : System) (now : ℚ) (leaseId : String) (lease : TargetLease) (action : Action) (found : TargetLease) :
    LiveAction where
  leaseId := leaseId
  lease := lease
  action := action
  fence := s.controller.newFence
  found := found
  issuedAt := now
  hostEnabled := s.controller.enabled
  hostDeadline := s.controller.leaseDeadline

/-- A section that issues a fence: the permit is new, the lease is revoked with it, and the
controller knows the host lease that it found. -/
structure Issues (now : ℚ) (s s' : System) (nonce : String) (live : LiveAction) : Prop where
  fresh : nonce ∉ s.controller.usedPermits
  found : s.controller.objects.get live.leaseId = some live.found
  consumed : ∃ lease, s'.controller.objects.get live.leaseId = some lease ∧ lease.revoked = true
  issuedAt : live.issuedAt = now
  knows : Knows s'.controller now live
  moves : Controller.Moves now s.controller s'.controller
  calls : s'.calls = s.calls
  clock : s'.clock = s.clock
  pending : s'.pending = s.pending ++ [.driverState live]

theorem markRevoked_get {c : Controller} {id : String} {lease : TargetLease} (h : c.objects.get id = some lease) :
    ∃ lease', (c.markRevoked id).objects.get id = some lease' ∧ lease'.revoked = true := by
  refine ⟨{ lease with revoked := true }, ?_, rfl⟩
  show (c.objects.mapValues _).get id = _
  rw [Dict.get_mapValues, h]
  exact congrArg some (if_pos rfl)

theorem consume_issues (s : System) (now : ℚ) (leaseId : String) (lease : TargetLease) (action : Action) (nonce : String) :
    Quiet now s (s.consume now leaseId lease action nonce) ∨
      ∃ found, Issues now s (s.consume now leaseId lease action nonce) nonce (s.issued now leaseId lease action found) := by
  have hmoves : Controller.Moves now s.controller (s.controller.consumePermit nonce leaseId).2 :=
    Controller.moves_consumePermit nonce leaseId
  by_cases hused : nonce ∈ s.controller.usedPermits
  · have hraised : (s.consume now leaseId lease action nonce).pending = s.pending := after_error (if_pos hused)
    refine Or.inl ⟨hmoves, rfl, rfl, [], ?_, fun part hpart => by cases hpart⟩
    rw [hraised, List.append_nil]
  · cases hfound : s.controller.objects.get leaseId with
    | none =>
      refine Or.inl (Quiet.after hmoves fun fence part hpart => ?_)
      rw [hfound] at hpart
      cases hpart
    | some found =>
      refine Or.inr ⟨found, ?_⟩
      have hknows : Knows s.controller now (s.issued now leaseId lease action found) :=
        ⟨le_rfl, le_rfl, fun _ => ⟨rfl, fun _ => rfl⟩⟩
      exact {
        fresh := hused
        found := hfound
        consumed := by
          have hcontroller : (s.consume now leaseId lease action nonce).controller = _ := congrArg Prod.snd (if_neg hused)
          rw [hcontroller]
          exact markRevoked_get hfound
        issuedAt := rfl
        knows := hknows.moves le_rfl hmoves
        moves := hmoves
        calls := rfl
        clock := rfl
        pending := by
          refine (after_ok (if_neg hused)).trans ?_
          rw [hfound]
          rfl }

/-- A step takes a part out of those that wait, or none, and sets the time. -/
structure Takes (now : ℚ) (s t : System) (live : Option LiveAction) : Prop where
  controller : t.controller = s.controller
  calls : t.calls = s.calls
  clock : t.clock = now
  lives : (live.toList ++ t.lives).Subperm s.lives
  pending : ∀ part ∈ t.pending, part ∈ s.pending

theorem takes_none (now : ℚ) (s : System) : Takes now s { s with clock := now } none :=
  ⟨rfl, rfl, rfl, List.Subperm.refl _, fun _ hpart => hpart⟩

theorem takes_part {i : ℕ} {part : Pending} (now : ℚ) (h : s.pending[i]? = some part) :
    Takes now s { s with
      clock := now
      pending := s.pending.eraseIdx i } part.live? where
  controller := rfl
  calls := rfl
  clock := rfl
  lives := by
    obtain ⟨hi, hget⟩ := List.getElem?_eq_some_iff.mp h
    have hperm : (part :: s.pending.eraseIdx i).Perm s.pending := hget ▸ List.getElem_cons_eraseIdx_perm hi
    have hkept : (part.live?.toList ++ (s.pending.eraseIdx i).filterMap Pending.live?).Perm
        (s.pending.filterMap Pending.live?) := by
      have hmapped := hperm.filterMap Pending.live?
      cases hlive : part.live? with
      | none => rwa [List.filterMap_cons_none hlive] at hmapped
      | some live => rwa [List.filterMap_cons_some hlive] at hmapped
    exact ((List.perm_append_comm_assoc _ _ _).trans (hkept.append_left _)).subperm
  pending _ hpart := List.mem_of_mem_eraseIdx hpart

/-- What a step does to the fences, with the live action that it issues. -/
structure Continues (now : ℚ) (s s' : System) (live : Option LiveAction) : Prop where
  moves : Controller.Moves now s.controller s'.controller
  clock : s'.clock = now
  lives : s'.lives.Subperm (live.toList ++ s.lives)
  natives : ∀ other grant, .native other grant ∈ s'.pending →
    .native other grant ∈ s.pending ∨ NativeCall.Granted ⟨other, grant⟩
  calls : ∀ call ∈ s'.calls, call ∈ s.calls ∨ .native call.live call.grant ∈ s.pending

section Continues

variable {t : System} {taken : Option LiveAction} {live : LiveAction}

theorem Quiet.continues (ht : Takes now s t taken) (h : Quiet now t s') : Continues now s s' none := by
  obtain ⟨extra, hpending, hextra⟩ := h.pending
  exact {
    moves := ht.controller ▸ h.moves
    clock := h.clock.trans ht.clock
    lives := by
      have hnone : extra.filterMap Pending.live? = [] := List.filterMap_eq_nil_iff.mpr hextra
      have hlives : s'.lives = t.lives := by
        unfold lives
        rw [h.calls, hpending, List.filterMap_append, hnone, List.append_nil]
      rw [hlives]
      exact (List.sublist_append_right _ _).subperm.trans ht.lives
    natives := by
      intro other grant hmem
      rw [hpending] at hmem
      obtain hold | hnew := List.mem_append.mp hmem
      · exact Or.inl (ht.pending _ hold)
      · cases hextra _ hnew
    calls := fun call hcall => Or.inl (by rwa [h.calls, ht.calls] at hcall) }

theorem GoesOn.continues (ht : Takes now s t (some live)) (h : GoesOn now live t s') : Continues now s s' none where
  moves := ht.controller ▸ h.moves
  clock := h.clock.trans ht.clock
  lives := by
    refine List.Subperm.trans ?_ ht.lives
    unfold lives
    rw [h.calls]
    obtain hover | ⟨part, hpart, hlive, -⟩ := h.pending
    · rw [hover]
      exact (List.sublist_append_right _ _).subperm
    · rw [hpart, List.filterMap_append, List.filterMap_cons_some hlive, ← List.append_assoc]
      exact List.perm_append_comm.subperm
  natives := by
    intro other grant hmem
    obtain hover | ⟨part, hpart, -, hgranted⟩ := h.pending
    · rw [hover] at hmem
      exact Or.inl (ht.pending _ hmem)
    · rw [hpart] at hmem
      obtain hold | hnew := List.mem_append.mp hmem
      · exact Or.inl (ht.pending _ hold)
      · exact Or.inr (hgranted other grant (List.mem_singleton.mp hnew).symm)
  calls call hcall := Or.inl (by rwa [h.calls, ht.calls] at hcall)

theorem Issues.continues {nonce : String} (ht : Takes now s t taken) (h : Issues now t s' nonce live) :
    Continues now s s' (some live) where
  moves := ht.controller ▸ h.moves
  clock := h.clock.trans ht.clock
  lives := by
    have hlives : s'.lives = t.lives ++ [live] := by
      unfold lives
      rw [h.calls, h.pending, List.filterMap_append, List.append_assoc]
      rfl
    rw [hlives]
    have htaken : t.lives.Subperm s.lives := (List.sublist_append_right _ _).subperm.trans ht.lives
    exact List.perm_append_comm.subperm.trans ((List.subperm_append_left _).mpr htaken)
  natives := by
    intro other grant hmem
    rw [h.pending] at hmem
    obtain hold | hnew := List.mem_append.mp hmem
    · exact Or.inl (ht.pending _ hold)
    · cases List.mem_singleton.mp hnew
  calls call hcall := Or.inl (by rwa [h.calls, ht.calls] at hcall)

theorem enterAdapter_continues {grant : AppGrant} (ht : Takes now s t (some live))
    (hnative : .native live grant ∈ s.pending) : Continues now s (t.enterAdapter live grant) none where
  moves := ht.controller ▸ Controller.Moves.refl now _
  clock := ht.clock
  lives := by
    refine List.Subperm.trans ?_ ht.lives
    show (((t.calls ++ [_]).map NativeCall.live) ++ t.pending.filterMap Pending.live?).Subperm _
    rw [List.map_append, List.append_assoc]
    exact (List.perm_append_comm_assoc _ _ _).subperm
  natives other grant hmem := Or.inl (ht.pending _ hmem)
  calls := by
    intro call hcall
    obtain hold | hnew := List.mem_append.mp hcall
    · exact Or.inl (ht.calls ▸ hold)
    · rw [List.mem_singleton.mp hnew]
      exact Or.inr hnative

end Continues

theorem mem_lives {i : ℕ} {part : Pending} {live : LiveAction} (h : s.pending[i]? = some part)
    (hlive : part.live? = some live) : live ∈ s.lives :=
  List.mem_append_right _ (List.mem_filterMap.mpr ⟨part, List.mem_of_getElem? h, hlive⟩)

theorem step_continues {l : Event × ℚ} (h : s.Step host l s')
    (hknows : ∀ live ∈ s.lives, Knows s.controller s.clock live) :
    s.clock ≤ l.2 ∧ (Continues l.2 s s' none ∨ ∃ i windows lease action nonce t live, l.1 = .resume i windows ∧
      s.pending[i]? = some (.consume live.leaseId lease action nonce) ∧ Takes l.2 s t none ∧
      Issues l.2 t s' nonce live) := by
  obtain ⟨e, now⟩ := l
  obtain ⟨hclock, hact⟩ := (Option.ite_none_right_eq_some.mp h : s.clock ≤ now ∧ _)
  refine ⟨hclock, ?_⟩
  by_cases hresume : ∃ i windows, e = .resume i windows
  · obtain ⟨i, windows, rfl⟩ := hresume
    obtain ⟨⟨hnodup, hfresh⟩, hmap⟩ := (Option.ite_none_right_eq_some.mp hact :
      (_ ∧ ∀ window ∈ windows, s.controller.objects.get window.1 = none) ∧ _)
    obtain ⟨part, hpart, rfl⟩ := Option.map_eq_some_iff.mp hmap
    have hpart : s.pending[i]? = some part := hpart
    have htakes : Takes now s { s with
      clock := now
      pending := s.pending.eraseIdx i } part.live? := takes_part now hpart
    cases hlive : part.live? with
    | some live =>
      rw [hlive] at htakes
      have hknown : Knows s.controller now live :=
        (hknows live (mem_lives hpart hlive)).moves hclock (Controller.Moves.refl now _)
      by_cases hnative : ∃ other grant, part = .native other grant
      · obtain ⟨other, grant, rfl⟩ := hnative
        obtain rfl := Option.some.inj hlive
        exact Or.inl (enterAdapter_continues htakes (List.mem_of_getElem? hpart))
      · refine Or.inl ((resume_goesOn hlive (fun other grant heq => hnative ⟨other, grant, heq⟩) ?_).continues htakes)
        exact hknown
    | none =>
      rw [hlive] at htakes
      by_cases hconsume : ∃ leaseId lease action nonce, part = .consume leaseId lease action nonce
      · obtain ⟨leaseId, lease, action, nonce, rfl⟩ := hconsume
        obtain hquiet | ⟨found, hissues⟩ := consume_issues { s with
          clock := now
          pending := s.pending.eraseIdx i } now leaseId lease action nonce
        · exact Or.inl (hquiet.continues htakes)
        · exact Or.inr ⟨i, windows, lease, action, nonce, _, _, rfl, hpart, htakes, hissues⟩
      · have hquiet : Quiet now
            { s with
              clock := now
              pending := s.pending.eraseIdx i }
            (resume host
              { s with
                clock := now
                pending := s.pending.eraseIdx i } now windows part) :=
          resume_quiet hnodup hfresh hlive fun leaseId lease action nonce heq =>
            hconsume ⟨leaseId, lease, action, nonce, heq⟩
        exact Or.inl (hquiet.continues htakes)
  · have hquiet : Quiet now { s with clock := now } s' :=
      act_quiet hact fun i windows heq => hresume ⟨i, windows, heq⟩
    exact Or.inl (hquiet.continues (takes_none now s))

/-! ## Runs -/

/-- What every step keeps: the controller knows the host lease of every fence, and a call that
is let through or started has what the transaction checks. -/
structure Invariant (s : System) : Prop where
  knows : ∀ live ∈ s.lives, Knows s.controller s.clock live
  natives : ∀ live grant, .native live grant ∈ s.pending → NativeCall.Granted ⟨live, grant⟩
  calls : ∀ call ∈ s.calls, call.Granted

theorem Continues.mem {live : Option LiveAction} {other : LiveAction} (h : Continues now s s' live) (hmem : other ∈ s'.lives) :
    live = some other ∨ other ∈ s.lives := by
  obtain hnew | hold := List.mem_append.mp (h.lives.subset hmem)
  · exact Or.inl (Option.mem_toList.mp hnew)
  · exact Or.inr hold

theorem Continues.invariant {live : Option LiveAction} (h : Continues now s s' live) (hclock : s.clock ≤ now)
    (hinv : Invariant s) (hlive : ∀ other, live = some other → Knows s'.controller now other) : Invariant s' where
  knows other hother := by
    rw [h.clock]
    obtain hnew | hold := h.mem hother
    · exact hlive other hnew
    · exact (hinv.knows other hold).moves hclock h.moves
  natives other grant hnative := by
    obtain hold | hgranted := h.natives other grant hnative
    · exact hinv.natives other grant hold
    · exact hgranted
  calls call hcall := by
    obtain hold | hnative := h.calls call hcall
    · exact hinv.calls call hold
    · exact hinv.natives call.live call.grant hnative

theorem step_invariant {l : Event × ℚ} (hinv : Invariant s) (h : s.Step host l s') : Invariant s' := by
  obtain ⟨hclock, hcontinues | ⟨i, windows, lease, action, nonce, t, live, -, -, htakes, hissues⟩⟩ :=
    step_continues h hinv.knows
  · exact hcontinues.invariant hclock hinv fun other hnone => by cases hnone
  · refine (hissues.continues htakes).invariant hclock hinv fun other hother => ?_
    obtain rfl := Option.some.inj hother
    exact hissues.knows

theorem start_invariant (enabled : Bool) (identitySecret : String) (clock : ℚ) :
    Invariant (start enabled identitySecret clock) where
  knows _ h := by cases h
  natives _ _ h := by cases h
  calls _ h := by cases h

/-- What a step keeps that finds its lease neither revoked nor expired: a lease has one live
action at most, is revoked since, and was found so. -/
structure Held (s : System) : Prop where
  once : (s.lives.map LiveAction.leaseId).Nodup
  revoked : ∀ live ∈ s.lives, ∃ lease, s.controller.objects.get live.leaseId = some lease ∧ lease.revoked = true
  found : ∀ live ∈ s.lives, live.found.revoked = false ∧ live.issuedAt < live.found.expiresAt

theorem nodup_ids {some all : List LiveAction} (h : some.Subperm all) (hall : (all.map LiveAction.leaseId).Nodup) :
    (some.map LiveAction.leaseId).Nodup := by
  obtain ⟨kept, hperm, hsublist⟩ := h
  exact (hperm.map LiveAction.leaseId).nodup_iff.mp ((hsublist.map LiveAction.leaseId).nodup hall)

theorem Continues.revoked {live : Option LiveAction} {id : String} (h : Continues now s s' live)
    (hold : ∃ lease, s.controller.objects.get id = some lease ∧ lease.revoked = true) :
    ∃ lease, s'.controller.objects.get id = some lease ∧ lease.revoked = true := by
  obtain ⟨lease, hget, hrevoked⟩ := hold
  obtain ⟨lease', hget', hkeeps⟩ := h.moves.leases id lease hget
  exact ⟨lease', hget', hkeeps hrevoked⟩

theorem step_held {l : Event × ℚ} (hinv : Invariant s) (hheld : Held s) (h : s.CheckedStep host l s') : Held s' := by
  obtain ⟨-, hcontinues | ⟨i, windows, lease, action, nonce, t, live, hevent, hpart, htakes, hissues⟩⟩ :=
    step_continues h.1 hinv.knows
  · exact {
      once := nodup_ids hcontinues.lives hheld.once
      revoked := fun other hother => by
        obtain hnew | hold := hcontinues.mem hother
        · cases hnew
        · exact hcontinues.revoked (hheld.revoked other hold)
      found := fun other hother => by
        obtain hnew | hold := hcontinues.mem hother
        · cases hnew
        · exact hheld.found other hold }
  · have hcontinues := hissues.continues htakes
    have hget : s.controller.objects.get live.leaseId = some live.found := htakes.controller ▸ hissues.found
    obtain ⟨hstanding, hlives⟩ := h.2 i windows live.leaseId lease action nonce live.found hevent hpart
      (htakes.controller ▸ hissues.fresh) hget
    have hnew : live.leaseId ∉ s.lives.map LiveAction.leaseId := by
      -- a lease that has a live action is revoked, and this one was not
      intro hmem
      obtain ⟨other, hother, heq⟩ := List.mem_map.mp hmem
      obtain ⟨lease', hget', hrevoked⟩ := hheld.revoked other hother
      rw [heq, hget] at hget'
      obtain rfl := Option.some.inj hget'
      rw [hstanding] at hrevoked
      cases hrevoked
    exact {
      once := by
        have hnodup : ((live :: s.lives).map LiveAction.leaseId).Nodup := List.nodup_cons.mpr ⟨hnew, hheld.once⟩
        exact nodup_ids hcontinues.lives hnodup
      revoked := fun other hother => by
        obtain hsame | hold := hcontinues.mem hother
        · obtain rfl := Option.some.inj hsame
          exact hissues.consumed
        · exact hcontinues.revoked (hheld.revoked other hold)
      found := fun other hother => by
        obtain hsame | hold := hcontinues.mem hother
        · obtain rfl := Option.some.inj hsame
          exact ⟨hstanding, hissues.issuedAt ▸ hlives⟩
        · exact hheld.found other hold }

theorem start_held (enabled : Bool) (identitySecret : String) (clock : ℚ) : Held (start enabled identitySecret clock) where
  once := List.nodup_nil
  revoked _ h := by cases h
  found _ h := by cases h

theorem Held.holdsLeases (h : Held s) : s.HoldsLeases where
  once := by
    have hcalls : (s.calls.map NativeCall.live).Subperm s.lives := (List.sublist_append_left _ _).subperm
    have hnodup := nodup_ids hcalls h.once
    rwa [List.map_map] at hnodup
  standing call hcall := h.found call.live (List.mem_append_left _ (List.mem_map_of_mem hcall))

end Rules

end System

/-- In every run each native call has a grant for its action, which like the host lease had not
run out when the fence of the call was issued; and in every run whose sections find the lease
that they issue a fence for neither revoked nor expired, each lease has one native call at
most, and none that was revoked or expired. -/
theorem desktop_authorisation (host : Host) (enabled : Bool) (identitySecret : String) (clock : ℚ)
    (hist : List (Event × ℚ)) (s : System) :
    (Run (System.Step host) (System.start enabled identitySecret clock) hist s → ∀ call ∈ s.calls, call.Granted) ∧
      (Run (System.CheckedStep host) (System.start enabled identitySecret clock) hist s → s.HoldsLeases) := by
  refine ⟨fun hrun => ?_, fun hrun => ?_⟩
  · have hinv : System.Invariant s :=
      hrun.invariant (System.start_invariant enabled identitySecret clock)
        fun _ _ _ hinv hstep => System.step_invariant hinv hstep
    exact hinv.calls
  · have hstart : System.Invariant (System.start enabled identitySecret clock) ∧
        System.Held (System.start enabled identitySecret clock) :=
      ⟨System.start_invariant _ _ _, System.start_held _ _ _⟩
    have hboth : System.Invariant s ∧ System.Held s :=
      Run.invariant (I := fun s => System.Invariant s ∧ System.Held s) hrun hstart fun _ _ _ hboth hstep =>
        ⟨System.step_invariant hboth.1 hstep.1, System.step_held hboth.1 hboth.2 hstep⟩
    exact hboth.2.holdsLeases

/-! ## Two calls for one lease -/

namespace Sample

/-- A cryptographic library that returns what it is given, as far as it can be read. -/
def host : Host where
  hmac _ text := String.ofList (text.toList.filter fun c => decide (32 ≤ c.toNat))
  sha256
    | .obj rows => String.join (rows.map fun row => match row.2 with
      | .str text => text
      | _ => "")
    | _ => ""
  derivedSecret := id

def window : NativeWindowTarget := ⟨7, "Notes", "editor", "f", true, "app", "win"⟩

def scope : DesktopActionScope := ⟨"w", "s", "t", "r", "g", 0⟩

/-- A discovery, a grant for `focus`, and a listing that issues the lease `da`. -/
def listing : List (Event × ℚ) :=
  [(.bindContext 0 scope, 0), (.hostDiscover 15 none, 0), (.resume 0 [], 0), (.resume 0 [("w", window)], 0),
    (.grantApp "grant" "das_app_appapp" 1 [.focus] 300, 1), (.listTargets 0 15, 1), (.resume 0 [], 1),
    (.resume 0 [("da", window)], 1)]

def lease : TargetLease :=
  ⟨window, scope, 16, 1, 0, 0, "das_app_appapp", "das_window_windowwin", "grant", 1, [.focus], false⟩

/-- A call that the user allowed, with a permit of its own. -/
def request (nonce : String) : ActionRequest where
  ctx := 0
  toolName := "desktop_focus"
  targetLease := "da"
  action := .focus
  previewDigest := digest host "da" lease .focus
  confirmationSummary := confirmationSummary lease .focus
  receipt := some ⟨"allowed", "user_allowed", some 2, "desktop_focus", "call"⟩
  toolArgs := .obj []
  permit := some ⟨true, "desktop_focus", .obj [], 0, "call", digest host "da" lease .focus, nonce⟩

/-- A call that goes on to the native call. -/
def alone : List (Event × ℚ) :=
  listing ++ [(.perform (request "p"), 2), (.resume 0 [], 2), (.resume 0 [], 2), (.resume 0 [], 2), (.resume 0 [], 2),
    (.resume 0 [], 2), (.resume 0 [("w", window)], 2), (.resume 0 [], 2), (.resume 0 [], 2)]

/-- Two calls that have both looked at the lease when the first of them consumes it. -/
def together : List (Event × ℚ) :=
  listing ++ [(.perform (request "p"), 2), (.perform (request "q"), 2), (.resume 0 [], 2), (.resume 0 [], 2),
    (.resume 0 [], 2), (.resume 0 [], 2), (.resume 0 [], 2), (.resume 0 [], 2),
    (.resume 0 [], 2), (.resume 1 [], 2), (.resume 1 [("w", window)], 2), (.resume 1 [], 2), (.resume 1 [], 2),
    (.resume 0 [], 2), (.resume 0 [], 2), (.resume 0 [("w", window)], 2), (.resume 0 [], 2), (.resume 0 [], 2)]

/-- A lease that is revoked between the look at it and the section that consumes it. -/
def revoked : List (Event × ℚ) :=
  listing ++ [(.perform (request "p"), 2), (.resume 0 [], 2), (.resume 0 [], 2), (.revokeTarget "da", 2),
    (.resume 0 [], 2), (.resume 0 [], 2), (.resume 0 [], 2), (.resume 0 [("w", window)], 2), (.resume 0 [], 2),
    (.resume 0 [], 2)]

/-- A step that is taken where the lease is found neither revoked nor expired. -/
def checkedNext (s : System) (l : Event × ℚ) : Option System :=
  if findsLease s l = true then s.next host l else none

theorem checkedNext_step {s s' : System} {l : Event × ℚ} (h : checkedNext s l = some s') : s.CheckedStep host l s' := by
  obtain ⟨hfinds, hnext⟩ := Option.ite_none_right_eq_some.mp h
  exact ⟨hnext, FindsLease.of_test hfinds⟩

def start : System := .start true "secret" 0

def called : System := (Run.exec checkedNext start alone).get (by decide +kernel)

def calledTwice : System := (Run.exec (System.next host) start together).get (by decide +kernel)

def calledRevoked : System := (Run.exec (System.next host) start revoked).get (by decide +kernel)

end Sample

/-- A lease that is consumed as it was found has its native call. -/
theorem desktop_authorisation_called : Sample.called.calls.length = 1 ∧ Sample.called.HoldsLeases := by
  have hrun : Run (System.CheckedStep Sample.host) Sample.start Sample.alone.reverse Sample.called :=
    (Run.of_exec (Option.some_get _).symm).mono fun _ _ _ => Sample.checkedNext_step
  exact ⟨by decide +kernel, (desktop_authorisation Sample.host true "secret" 0 _ Sample.called).2 hrun⟩

/-- Two calls that looked at one lease before either consumed it both reach the native call, and
so does a call whose lease is revoked between the look at it and its fence. -/
theorem consumed_lease_not_looked_at :
    (∃ hist s, Run (System.Step Sample.host) Sample.start hist s ∧
      s.calls.map (fun call => call.live.leaseId) = ["da", "da"]) ∧
      ∃ hist s, Run (System.Step Sample.host) Sample.start hist s ∧
        s.calls.map (fun call => (call.live.leaseId, call.live.found.revoked)) = [("da", true)] := by
  have htwice : Run (System.Step Sample.host) Sample.start Sample.together.reverse Sample.calledTwice :=
    Run.of_exec (Option.some_get _).symm
  have hrevoked : Run (System.Step Sample.host) Sample.start Sample.revoked.reverse Sample.calledRevoked :=
    Run.of_exec (Option.some_get _).symm
  exact ⟨⟨_, _, htwice, by decide +kernel⟩, _, _, hrevoked, by decide +kernel⟩

end Desktop
