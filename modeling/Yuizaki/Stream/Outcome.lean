import Yuizaki.Stream.Ticket

/- The outcome of a stream action that reached its provider.

   What the provider answers proves an effect or does not (`ProviderResult.proves`), and what
   is recorded should say which. An outcome is recorded where the provider answers or raises
   an ordinary error; a `ValueError` (a frame of OBS that is no JSON) and what is no
   `Exception` (a cancellation) are not, and a subscription sync that leaves nothing
   subscribed, or that runs while Twitch is revoked, is recorded as unknown although the
   provider's list proves it. `settles` says when neither happens, `conclude_actions` what is
   recorded, and the lemmas about the adapters which answers of the wire lead there. -/
namespace Streaming

open Transition Fallible

/-! ## What an outcome should be -/

/-- The provider's answers prove the effect of an action. A sync is proved by a list with the
types of the plan and no others. -/
def ProviderResult.proves (result : ProviderResult) (action : StreamAction)
    (params : Dict String Json) (desired : List String) : Bool :=
  match action with
  | .subscriptionsSync =>
    match result.subscriptions with
    | .ok active =>
      (∀ t ∈ desired, t ∈ active.map Subscription.type) ∧
        ∀ t ∈ active.map Subscription.type, t ∈ desired
    | .error _ => false
  | .sceneSwitch => asked "currentProgramSceneName" (.str (PyStr.strip (textParam params "sceneName")))
  | .profileSwitch => asked "currentProfileName" (.str (PyStr.strip (textParam params "profileName")))
  | .broadcastStart => asked "outputActive" (.bool true)
  | .broadcastStop => asked "outputActive" (.bool false)
  | .chatSend =>
    match result.effect with
    | .ok response => response.get "sent" = .bool true
    | .error _ => false
  | .status | .scenePreview | .profilePreview | .captionDraft => result.effect.isOk
where
  asked (key : String) (value : Json) : Bool :=
    match result.effect, result.verification with
    | .ok _, .ok found => found.get key = value
    | _, _ => false

/-- The status that an outcome should have. -/
def outcomeStatus (proved : Bool) : AuditStatus := if proved then .knownSuccess else .unknownEffect

theorem outcomeStatus_ne_sending (proved : Bool) : outcomeStatus proved ≠ .sending := by
  cases proved
  · decide
  · decide

/-! ## When it is -/

/-- An error whose outcome is recorded: an `Exception`, no `ValueError`, and with a class name
that an entry may have. -/
def Raised.recorded (e : Raised) : Bool := e.isException ∧ ¬ e.isValueError ∧ e.name.length ≤ 120

/-- The error of a provider's answers, if there is one. -/
def ProviderResult.raised (result : ProviderResult) (action : StreamAction) : Option Raised :=
  match action with
  | .captionDraft => none
  | .subscriptionsSync => errorOf result.subscriptions
  | .chatSend | .status | .scenePreview | .profilePreview => errorOf result.effect
  | .sceneSwitch | .profileSwitch | .broadcastStart | .broadcastStop =>
    (errorOf result.effect).or (errorOf result.verification)
where
  errorOf {α : Type} : Except Raised α → Option Raised
    | .ok _ => none
    | .error e => some e

/-- The provider's answers settle an action: an error is one that is recorded, and a sync that
is proved is one of a plan that is not empty, while Twitch is not revoked. -/
def StreamRuntime.settles (r : StreamRuntime) (result : ProviderResult) (action : StreamAction)
    (params : Dict String Json) : Bool :=
  (result.raised action).all Raised.recorded = true ∧
    (action = .subscriptionsSync → result.proves action params r.desired = true →
      r.revoked = false ∧ r.desired ≠ [])

/-! ## Outcomes -/

section Outcome

variable {r : StreamRuntime} {action : StreamAction} {params : Dict String Json} {result : ProviderResult}
  {requestId : String} {stamp : Stamp} {disk : Bool}

theorem pushEntry_spec (entries : List AuditEntry) (entry : AuditEntry) :
    ∃ kept, kept <:+ entries ∧ pushEntry entries entry = kept ++ [entry] := by
  refine ⟨entries.drop ((entries ++ [entry]).length - maxPersistedActions), List.drop_suffix _ _, ?_⟩
  have hle : (entries ++ [entry]).length - maxPersistedActions ≤ entries.length := by
    rw [List.length_append, List.length_singleton, maxPersistedActions]
    omega
  unfold pushEntry
  exact List.drop_append_of_le_length hle

theorem record_actions (entry : AuditEntry) (required disk : Bool) :
    (r.record entry required disk).1 = none ∧ entry.kept = true ∧
        (∃ kept, kept <:+ r.actions ∧ (r.record entry required disk).2.actions = kept ++ [entry]) ∨
      (r.record entry required disk).1.isSome = true ∧ (entry.kept = true → required = true) ∧
        (r.record entry required disk).2.actions <:+ r.actions := by
  obtain ⟨kept, hkept, hpush⟩ := pushEntry_spec r.actions entry
  unfold StreamRuntime.record
  split
  · rename_i hnot
    exact Or.inr ⟨rfl, fun h => absurd h hnot, List.suffix_rfl⟩
  · rename_i hnot
    have hentry : entry.kept = true := not_not.mp hnot
    dsimp only
    rw [hpush]
    split
    · exact Or.inl ⟨rfl, hentry, kept, hkept, rfl⟩
    · split
      · exact Or.inl ⟨rfl, hentry, kept, hkept, rfl⟩
      · split
        · rename_i hrequired
          refine Or.inr ⟨rfl, fun _ => hrequired, ?_⟩
          dsimp only
          rw [List.dropLast_concat]
          exact hkept
        · exact Or.inl ⟨rfl, hentry, kept, hkept, rfl⟩

theorem recordOutcome_actions (disk : Bool) (entry : AuditEntry) (outcome : Except Raised Json) :
    (entry.kept = true → ∃ kept, kept <:+ r.actions ∧
      (r.recordOutcome entry disk outcome).2.actions = kept ++ [entry]) ∧
    (entry.kept = false → (r.recordOutcome entry disk outcome).2.actions <:+ r.actions) := by
  have hrecord := record_actions (r := r) entry false disk
  unfold StreamRuntime.recordOutcome
  obtain ⟨hnone, hentry, hkept⟩ | ⟨hsome, hentry, hkept⟩ := hrecord
  · split
    · rename_i e after heq
      rw [heq] at hnone
      cases hnone
    · rename_i after heq
      rw [heq] at hkept
      exact ⟨fun _ => hkept, fun h => absurd (hentry.symm.trans h) (by decide)⟩
  · have hlost : entry.kept ≠ true := fun h => absurd (hentry h) (by decide)
    split
    · rename_i e after heq
      rw [heq] at hkept
      exact ⟨fun h => absurd h hlost, fun _ => hkept⟩
    · rename_i after heq
      rw [heq] at hsome
      cases hsome

theorem planStatus_synced {revoked secret : Bool} {desired : List String} {active : List Subscription} :
    planStatus revoked secret desired active = "synced" ↔ (revoked = false ∧ desired ≠ []) ∧
      (∀ t ∈ desired, t ∈ active.map Subscription.type) ∧
        ∀ t ∈ active.map Subscription.type, t ∈ desired := by
  unfold planStatus
  dsimp only
  split
  · rename_i hrevoked
    exact ⟨fun h => absurd h (by decide), fun h => absurd (hrevoked.symm.trans h.1.1) (by decide)⟩
  · rename_i hrevoked
    split
    · rename_i hsynced
      exact ⟨fun _ => ⟨⟨Bool.not_eq_true _ |>.mp hrevoked, hsynced.1⟩, hsynced.2⟩, fun _ => rfl⟩
    · rename_i hnot
      refine ⟨fun h => ?_, fun h => absurd ⟨h.1.2, h.2⟩ hnot⟩
      split at h
      · exact absurd h (by decide)
      · split at h
        · exact absurd h (by decide)
        · exact absurd h (by decide)

/-- The effect is proved and seen to be. -/
def StreamRuntime.confirms (r : StreamRuntime) (result : ProviderResult) (action : StreamAction)
    (params : Dict String Json) : Bool :=
  result.proves action params r.desired = true ∧
    (action = .subscriptionsSync → r.revoked = false ∧ r.desired ≠ [])

theorem call_cases (hcrossed : (providerRequest action params).isSome = true) :
    (∃ e, result.raised action = some e ∧ result.proves action params r.desired = false ∧
      r.call action params result = .error e) ∨
    result.raised action = none ∧ ∃ response,
      r.call action params result = .ok (response, acknowledged (r.confirms result action params)) := by
  obtain ⟨effect, verification, subscriptions⟩ := result
  have hverified (proves : Json → Bool) (key : String) (value : Json)
      (hproves : ∀ v : Json, proves v = decide (v.get key = value)) :
      (∃ e, (ProviderResult.raised.errorOf effect).or
          (ProviderResult.raised.errorOf verification) = some e ∧
        ProviderResult.proves.asked ⟨effect, verification, subscriptions⟩ key value = false ∧
        verified ⟨effect, verification, subscriptions⟩ proves = .error e) ∨
      (ProviderResult.raised.errorOf effect).or (ProviderResult.raised.errorOf verification) = none ∧
        ∃ response, verified ⟨effect, verification, subscriptions⟩ proves = .ok (response,
          acknowledged (ProviderResult.proves.asked ⟨effect, verification, subscriptions⟩ key value)) := by
    cases effect with
    | error e => exact Or.inl ⟨e, rfl, rfl, rfl⟩
    | ok response =>
      cases verification with
      | error e => exact Or.inl ⟨e, rfl, rfl, rfl⟩
      | ok found =>
        refine Or.inr ⟨rfl, response, ?_⟩
        show Except.ok (response, acknowledged (proves found)) = _
        rw [hproves found]
        rfl
  have hconfirms (hsync : action ≠ .subscriptionsSync) :
      r.confirms ⟨effect, verification, subscriptions⟩ action params =
        ProviderResult.proves ⟨effect, verification, subscriptions⟩ action params r.desired := by
    apply Bool.eq_iff_iff.mpr
    unfold StreamRuntime.confirms
    rw [decide_eq_true_eq]
    exact ⟨fun h => h.1, fun h => ⟨h, fun heq => absurd heq hsync⟩⟩
  cases action with
  | captionDraft => cases hcrossed
  | subscriptionsSync =>
    cases subscriptions with
    | error e => exact Or.inl ⟨e, rfl, rfl, rfl⟩
    | ok active =>
      refine Or.inr ⟨rfl, .obj [("subscriptionPlan", .obj [("status",
        .str (planStatus r.revoked r.secret r.desired active))])], ?_⟩
      have hseen : decide (planStatus r.revoked r.secret r.desired active = "synced") =
          r.confirms ⟨effect, verification, .ok active⟩ .subscriptionsSync params := by
        apply Bool.eq_iff_iff.mpr
        unfold StreamRuntime.confirms ProviderResult.proves
        simp only [decide_eq_true_eq]
        rw [planStatus_synced]
        exact ⟨fun h => ⟨h.2, fun _ => h.1⟩, fun h => ⟨h.2 trivial, h.1⟩⟩
      show Except.ok (_, acknowledged (decide (planStatus r.revoked r.secret r.desired active = "synced"))) = _
      rw [hseen]
  | chatSend =>
    rw [hconfirms (by decide)]
    cases effect with
    | error e => exact Or.inl ⟨e, rfl, rfl, rfl⟩
    | ok response => exact Or.inr ⟨rfl, response, rfl⟩
  | sceneSwitch =>
    rw [hconfirms (by decide)]
    exact hverified _ _ _ fun _ => rfl
  | profileSwitch =>
    rw [hconfirms (by decide)]
    exact hverified _ _ _ fun _ => rfl
  | broadcastStart =>
    rw [hconfirms (by decide)]
    exact hverified _ _ _ fun _ => rfl
  | broadcastStop =>
    rw [hconfirms (by decide)]
    exact hverified _ _ _ fun _ => rfl
  | status =>
    rw [hconfirms (by decide)]
    cases effect with
    | error e => exact Or.inl ⟨e, rfl, rfl, rfl⟩
    | ok response => exact Or.inr ⟨rfl, response, rfl⟩
  | scenePreview =>
    rw [hconfirms (by decide)]
    cases effect with
    | error e => exact Or.inl ⟨e, rfl, rfl, rfl⟩
    | ok response => exact Or.inr ⟨rfl, response, rfl⟩
  | profilePreview =>
    rw [hconfirms (by decide)]
    cases effect with
    | error e => exact Or.inl ⟨e, rfl, rfl, rfl⟩
    | ok response => exact Or.inr ⟨rfl, response, rfl⟩

theorem claim_error_actions {r' : StreamRuntime} {casefold : String → String} {request : ExecuteRequest}
    {now : ℚ} {e : Raised} (h : r.claim casefold request action now stamp disk = (.error e, r')) :
    r'.actions <:+ r.actions := by
  unfold StreamRuntime.claim at h
  split at h
  · obtain ⟨-, rfl⟩ := Prod.mk.inj h
    split
    · exact List.suffix_rfl
    · exact List.suffix_rfl
  · dsimp only at h
    have hrecord := record_actions (r := r.popTicket request.requestId)
      (auditEntry action request.requestId stamp .sending none none none) action.external disk
    split at h
    · rename_i after heq
      obtain ⟨-, rfl⟩ := Prod.mk.inj h
      rw [heq] at hrecord
      obtain ⟨hnone, -⟩ | ⟨-, -, hsuffix⟩ := hrecord
      · cases hnone
      · exact hsuffix
    · cases h

theorem claim_ok_actions {r' : StreamRuntime} {casefold : String → String} {request : ExecuteRequest}
    {now : ℚ} {ticket : Ticket} (h : r.claim casefold request action now stamp disk = (.ok ticket, r')) :
    request.requestId.length ≤ 160 ∧ ∃ kept, kept <:+ r.actions ∧
      r'.actions = kept ++ [auditEntry action request.requestId stamp .sending none none none] := by
  unfold StreamRuntime.claim at h
  split at h
  · cases h
  · dsimp only at h
    have hrecord := record_actions (r := r.popTicket request.requestId)
      (auditEntry action request.requestId stamp .sending none none none) action.external disk
    split at h
    · cases h
    · rename_i after heq
      obtain ⟨-, rfl⟩ := Prod.mk.inj h
      rw [heq] at hrecord
      obtain ⟨-, hkept, hactions⟩ | ⟨hsome, -⟩ := hrecord
      · refine ⟨(of_decide_eq_true hkept).1, ?_⟩
        split
        · exact hactions
        · exact hactions
      · cases hsome

/-- What an action records at its end: its outcome where the answers settle it, and otherwise
nothing, or `unknown_effect` for an effect that is proved. -/
theorem conclude_actions (result : ProviderResult) (stamp : Stamp) (disk : Bool)
    (hid : requestId.length ≤ 160) (hcrossed : (providerRequest action params).isSome = true) :
    ∃ kept, kept <:+ r.actions ∧
      ((r.conclude action requestId stamp (r.call action params result) disk).2.actions = kept ∧
          r.settles result action params = false ∨
        ∃ entry : AuditEntry,
          (r.conclude action requestId stamp (r.call action params result) disk).2.actions = kept ++ [entry] ∧
          entry.requestId = requestId ∧ entry.status ≠ .sending ∧
          (entry.status = outcomeStatus (result.proves action params r.desired) ↔
            r.settles result action params = true)) := by
  unfold StreamRuntime.settles
  obtain ⟨e, hraised, hproves, hcall⟩ | ⟨hraised, response, hcall⟩ := call_cases (r := r) hcrossed
  · rw [hcall, hraised, hproves]
    unfold StreamRuntime.conclude
    dsimp only
    split
    · rename_i hclass
      refine ⟨r.actions, List.suffix_rfl, Or.inl ⟨rfl, decide_eq_false fun h => ?_⟩⟩
      obtain ⟨hexception, hvalue, -⟩ := of_decide_eq_true (Option.all_some.symm.trans h.1)
      exact hclass.elim hvalue fun hnot => hnot hexception
    · rename_i hclass
      obtain ⟨hvalue, hexception⟩ := not_or.mp hclass
      obtain ⟨hrecord, hlost⟩ := recordOutcome_actions (r := { r with state := "error" }) disk
        (auditEntry action requestId stamp .unknownEffect (some true) none (some e.name))
        (.error (.runtime ("unknown_effect: " ++ e.name)))
      have hkept : (auditEntry action requestId stamp .unknownEffect (some true) none (some e.name)).kept =
          decide (e.name.length ≤ 120) := by
        simp [AuditEntry.kept, auditEntry, hid]
      rw [hkept] at hrecord hlost
      by_cases hname : e.name.length ≤ 120
      · obtain ⟨kept, hsuffix, hactions⟩ := hrecord (decide_eq_true hname)
        have hrecorded : e.recorded = true := decide_eq_true ⟨not_not.mp hexception, hvalue, hname⟩
        refine ⟨kept, hsuffix, Or.inr ⟨_, hactions, rfl, (fun h => by cases h), fun _ => ?_, fun _ => ?_⟩⟩
        · exact decide_eq_true ⟨hrecorded, fun _ h => absurd h (by decide)⟩
        · rfl
      · refine ⟨_, hlost (decide_eq_false hname), Or.inl ⟨rfl, decide_eq_false fun h => ?_⟩⟩
        obtain ⟨-, -, hshort⟩ := of_decide_eq_true (Option.all_some.symm.trans h.1)
        exact hname hshort
  · rw [hcall, hraised]
    unfold StreamRuntime.conclude
    dsimp only
    by_cases hconfirms : r.confirms result action params = true
    · rw [hconfirms, if_neg (by decide)]
      obtain ⟨hproves, hsync⟩ := of_decide_eq_true hconfirms
      obtain ⟨hrecord, -⟩ := recordOutcome_actions
        (r := { r with state := successState action response r.state }) disk
        (auditEntry action requestId stamp .knownSuccess (some true)
          (some (acknowledged true)) none) (.ok response)
      have hshort : (some (acknowledged true)).all (fun s => s.length ≤ 80) = true := by decide +kernel
      have hkept : (auditEntry action requestId stamp .knownSuccess (some true) (some (acknowledged true))
          none).kept = true := decide_eq_true ⟨hid, hshort, rfl⟩
      obtain ⟨kept, hsuffix, hactions⟩ := hrecord hkept
      refine ⟨kept, hsuffix, Or.inr ⟨_, hactions, rfl, (fun h => by cases h), fun _ => ?_, fun _ => ?_⟩⟩
      · exact decide_eq_true ⟨rfl, fun h _ => hsync h⟩
      · rw [hproves]
        rfl
    · rw [Bool.not_eq_true] at hconfirms
      rw [hconfirms, if_pos (by decide)]
      have hnot := of_decide_eq_false hconfirms
      obtain ⟨hrecord, -⟩ := recordOutcome_actions (r := { r with state := "error" }) disk
        (auditEntry action requestId stamp .unknownEffect (some true) none
          (some "verification_mismatch")) (.error (.runtime
            "unknown_effect: provider verification did not confirm the requested state"))
      have hshort : (some "verification_mismatch").all (fun s => s.length ≤ 120) = true := by decide +kernel
      have hkept : (auditEntry action requestId stamp .unknownEffect (some true) none
          (some "verification_mismatch")).kept = true := decide_eq_true ⟨hid, rfl, hshort⟩
      obtain ⟨kept, hsuffix, hactions⟩ := hrecord hkept
      refine ⟨kept, hsuffix, Or.inr ⟨_, hactions, rfl, (fun h => by cases h), fun hstatus => ?_,
        fun hsettles => ?_⟩⟩
      · refine decide_eq_true ⟨rfl, fun _ hproves => ?_⟩
        rw [hproves] at hstatus
        cases hstatus
      · obtain ⟨-, hsync⟩ := of_decide_eq_true hsettles
        have hunproved : result.proves action params r.desired = false := by
          by_contra hproves
          rw [Bool.not_eq_false] at hproves
          exact hnot ⟨hproves, fun h => hsync h hproves⟩
        rw [hunproved]
        rfl

end Outcome

end Streaming
