import Yuizaki.Connector.NoResend

/- Retrying a message whose turn failed (`retry_connector_delivery` in
   `routes/connector_api.py`).

   The route takes a failed row again where a reply is stored, or where the error is one of
   three (`retryableTurnError`). A retry whose turn is cancelled, ends with an unknown effect
   or is left by its request writes another error, and the row is stranded. `retry_again`
   says that in every run of retries and operators in which that does not happen, and in which
   no send to QQ is left without a verdict, the row is delivered or the route takes it again. -/
namespace Connector

open Transition TurnStore

/-! ## A further retry -/

/-- One step of a retry that only calls the store. -/
def advance (w : Worker) (now : ℚ) (at_ : Store × WorkerPhase) : Store × WorkerPhase :=
  match workerStep w (at_.1.delivery w.deliveryKey.text) at_.2 (.call now) with
  | none => at_
  | some (none, next) => (at_.1, next (.changed false))
  | some (some op, next) =>
    let (store, answer) := applyDelivery at_.1 op
    (store, next answer)

/-- Whether the route takes the delivery: it comes to a turn or to a send. -/
def accepts (s : Store) (w : Worker) (now : ℚ) : Bool :=
  match (advance w now (advance w now (advance w now (s, .reading false)))).2 with
  | .regenerating | .sending _ => true
  | _ => false

/-- From some time on the route takes the delivery again. -/
def Retriable (s : Store) (connectorId key : String) : Prop :=
  ∃ t, ∀ now ≥ t, ∀ w : Worker, w.connectorId = connectorId → w.deliveryKey.text = key →
    accepts s w now = true

/-- The delivery is delivered, discarded, or can be retried. -/
def NotStranded (s : Store) (connectorId key : String) : Prop :=
  (s.delivery key = none ∨ ∃ row, s.delivery key = some row ∧ row.status = .delivered) ∨
    Retriable s connectorId key

/-- The row of a turn that failed before there was a reply. -/
structure TurnFailed (row : DeliveryRow) : Prop where
  failed : row.status = .failed
  unanswered : row.replyText = none
  error : retryableTurnError row.lastError = true

/-! ## When the route takes a row -/

section Accepts

variable {s : Store} {w : Worker} {row : DeliveryRow} {now : ℚ}

theorem busyFor_over {owner : String} (hfree : row.claimExpiresAt.getD 0 ≤ now) :
    row.busyFor owner now = false := by
  rw [DeliveryRow.busyFor, decide_eq_false_iff_not]
  exact fun h => absurd h.2.2 (not_lt.mpr hfree)

theorem accepts_turn (hrow : s.delivery w.deliveryKey.text = some row)
    (hconnector : row.connectorId = w.connectorId) (h : TurnFailed row)
    (hfree : row.claimExpiresAt.getD 0 ≤ now) : accepts s w now = true := by
  have hblank : storedReply row = "" := by
    rw [storedReply, h.unanswered]
    decide
  have hreads : advance w now (s, .reading false) = (s, .reclaiming true "") := by
    simp [advance, workerStep, hrow, retryMove, hconnector, h.failed, hblank, h.error, goto]
  have hclaims : (advance w now (s, .reclaiming true "")).2 = .regenerating := by
    simp [advance, workerStep, applyDelivery, claimConnectorTurnRetry, w.deliveryKey.trimmed,
      w.owner.trimmed, w.deliveryKey.nonempty, w.owner.nonempty, hrow, h.failed, h.unanswered,
      busyFor_over hfree, orRaised, onClaimed]
  have hstays (s : Store) : advance w now (s, .regenerating) = (s, .regenerating) := by
    simp [advance, workerStep]
  have hlast : (advance w now (advance w now (advance w now (s, .reading false)))).2 =
      .regenerating := by
    rw [hreads]
    generalize hnext : advance w now (s, .reclaiming true "") = next at hclaims
    obtain ⟨s', phase⟩ := next
    cases hclaims
    rw [hstays]
  rw [accepts, hlast]

/-- A row with a reply is taken again when it failed, or when a send to another provider than
QQ was left and its lease is over. -/
theorem accepts_reply (hrow : s.delivery w.deliveryKey.text = some row)
    (hconnector : row.connectorId = w.connectorId) (hreply : storedReply row ≠ "")
    (hst : row.status = .failed ∨ row.status = .sending ∧ row.connectorId ≠ "qq")
    (hfree : row.claimExpiresAt.getD 0 ≤ now) : accepts s w now = true := by
  have hopen : row.status ≠ .processing ∧ row.status ≠ .delivered ∧
      ¬ (w.connectorId = "qq" ∧ row.status = .sending) ∧
      ¬ (row.status = .sending ∧ row.connectorId = "qq") := by
    rw [← hconnector]
    rcases hst with hst | ⟨hst, hne⟩ <;> simp [hst]
    exact hne
  obtain ⟨hturned, hundelivered, hqq, hqq'⟩ := hopen
  have hreads : advance w now (s, .reading false) =
      (s, .reclaiming false (storedReply row)) := by
    simp only [advance, workerStep, hrow, retryMove]
    rw [if_neg (not_not.mpr hconnector), if_neg hturned, if_neg hundelivered, if_neg hqq,
      if_pos hreply]
    rfl
  have hclaims : (advance w now (s, .reclaiming false (storedReply row))).2 =
      .sending (storedReply row) := by
    simp only [advance, workerStep, applyDelivery, claimConnectorDelivery]
    rw [if_neg (by simp [w.deliveryKey.trimmed, w.owner.trimmed, w.deliveryKey.nonempty,
      w.owner.nonempty]), w.deliveryKey.trimmed, hrow]
    dsimp only
    rw [if_neg hundelivered, busyFor_over hfree, if_neg Bool.false_ne_true, if_neg hqq']
    rfl
  have hstays (s : Store) : advance w now (s, .sending (storedReply row)) =
      (s, .sending (storedReply row)) := by
    simp [advance, workerStep]
  have hlast : (advance w now (advance w now (advance w now (s, .reading false)))).2 =
      .sending (storedReply row) := by
    rw [hreads]
    generalize hnext : advance w now (s, .reclaiming false (storedReply row)) = next at hclaims
    obtain ⟨s', phase⟩ := next
    cases hclaims
    rw [hstays]
  rw [accepts, hlast]

theorem not_accepts (hrow : s.delivery w.deliveryKey.text = some row)
    (hst : row.status = .failed) (hblank : storedReply row = "")
    (herror : retryableTurnError row.lastError = false) : accepts s w now = false := by
  have hmove : retryMove w now false row = goto .done := by
    simp [retryMove, hst, hblank, herror]
  have hends : advance w now (s, .reading false) = (s, .done) := by
    simp only [advance, workerStep, hrow, hmove]
    rfl
  have hdone : advance w now (s, .done) = (s, .done) := rfl
  rw [accepts, hends, hdone, hdone]

end Accepts

/-! ## What retries and operators do to the row -/

/-- The row is delivered, waits for another turn, or has a reply to send. -/
inductive Open (connectorId : String) (row : DeliveryRow) : Prop
  | delivered (hconnector : row.connectorId = connectorId) (hst : row.status = .delivered)
  | turn (hconnector : row.connectorId = connectorId) (h : TurnFailed row)
  | reply (hconnector : row.connectorId = connectorId) (hreply : storedReply row ≠ "")
      (hst : row.status = .failed ∨ row.status = .sending)

def KeepsOpen (connectorId : String) (row : DeliveryRow) : DeliveryOp → Prop
  | .claim _ _ subject _ _ _ replyText => subject.connectorId = connectorId ∧
    ∃ reply, replyText = some reply ∧ PyStr.strip reply ≠ ""
  | .promote _ _ _ replyText _ => PyStr.strip replyText ≠ ""
  | .releaseRetry _ _ owner error => row.claimedBy = some owner → row.replyText = none →
    retryableTurnError (some (PyStr.textPrefix 2000 error)) = true
  | .record .. | .failTurn .. | .discard .. => False
  | _ => True

section Calls

variable {s s' : Store} {op : DeliveryOp} {answer : DeliveryAnswer} {key connectorId : String}
  {row : DeliveryRow}

theorem Open.connector (h : Open connectorId row) : row.connectorId = connectorId := by
  cases h with
  | delivered hconnector => exact hconnector
  | turn hconnector => exact hconnector
  | reply hconnector => exact hconnector

theorem Open.sending_reply (h : Open connectorId row) (hst : row.status = .sending) :
    storedReply row ≠ "" := by
  cases h with
  | delivered _ hst' =>
    rw [hst] at hst'
    cases hst'
  | turn _ h' =>
    have hfailed := h'.failed
    rw [hst] at hfailed
    cases hfailed
  | reply _ hreply => exact hreply

theorem delivery_other (h : DeliveryMove s op answer s') (hne : target op ≠ key) :
    s'.delivery key = s.delivery key := by
  have hput (k : String) (new : DeliveryRow) (hk : k ≠ key) :
      (s.putDelivery k new).delivery key = s.delivery key := by
    rw [Store.delivery_put, if_neg (Ne.symm hk)]
  cases h with
  | refused => rfl
  | discard =>
    rw [Store.delivery_drop]
    exact if_neg (Ne.symm hne)
  | _ => exact hput _ _ hne

theorem open_call (h : DeliveryMove s op answer s') (hrow : s.delivery key = some row)
    (hopen : Open connectorId row) (hkeeps : target op = key → KeepsOpen connectorId row op) :
    ∃ row', s'.delivery key = some row' ∧ Open connectorId row' := by
  by_cases hkey : target op = key
  · have hop := hkeeps hkey
    have hput {new : DeliveryRow} {k : String} (hk : k = key) (hnew : Open connectorId new) :
        ∃ row', (s.putDelivery k new).delivery key = some row' ∧ Open connectorId row' := by
      refine ⟨new, ?_, hnew⟩
      rw [Store.delivery_put, if_pos hk.symm]
    have hsame {r : DeliveryRow} {k : String} (hk : k = key) (hr : s.delivery k = some r) :
        r = row := by
      rw [hk, hrow] at hr
      exact (Option.some.inj hr).symm
    cases h with
    | refused => exact ⟨row, hrow, hopen⟩
    | record => exact hop.elim
    | failTurn => exact hop.elim
    | discard => exact hop.elim
    | recoverStale hr hst =>
      -- an open row has no turn in progress
      rw [hsame hkey hr] at hst
      cases hopen with
      | delivered _ hst' =>
        rw [hst] at hst'
        cases hst'
      | turn _ h' =>
        have hfailed := h'.failed
        rw [hst] at hfailed
        cases hfailed
      | reply _ _ hst' => rcases hst' with hst' | hst' <;> rw [hst] at hst' <;> cases hst'
    | claim =>
      obtain ⟨hconnector, reply, hreply, hne⟩ := hop
      refine hput hkey (Open.reply hconnector ?_ (Or.inr rfl))
      rw [hreply]
      exact hne
    | claimRetry howner hr hst hbusy hnone =>
      rw [hsame hkey hr] at hnone ⊢
      refine hput hkey ?_
      cases hopen with
      | delivered _ hst' =>
        rw [hsame hkey hr, hst'] at hst
        cases hst
      | turn hconnector h' => exact Open.turn hconnector ⟨h'.failed, h'.unanswered, h'.error⟩
      | reply _ hreply =>
        rw [storedReply, hnone] at hreply
        exact absurd (by decide) hreply
    | promote hr =>
      rw [hsame hkey hr]
      exact hput hkey (Open.reply hopen.connector hop (Or.inr rfl))
    | releaseRetry hr hclaim hst =>
      rw [hsame hkey hr] at hclaim hst ⊢
      refine hput hkey ?_
      cases hreply : row.replyText with
      | none => exact Open.turn hopen.connector ⟨rfl, hreply, hop hclaim hreply⟩
      | some reply =>
        refine Open.reply hopen.connector ?_ (Or.inl rfl)
        cases hopen with
        | delivered _ hst' =>
          rw [hst] at hst'
          cases hst'
        | turn _ h' =>
          have hnone := h'.unanswered
          rw [hreply] at hnone
          cases hnone
        | reply _ hne => exact hne
    | sent hr =>
      rw [hsame hkey hr]
      exact hput hkey (Open.delivered hopen.connector rfl)
    | resolveDelivered hr =>
      rw [hsame hkey hr]
      exact hput hkey (Open.delivered hopen.connector rfl)
    | resolveFailed hr horphaned =>
      rw [hsame hkey hr] at horphaned ⊢
      have hst : row.status = .sending := (of_decide_eq_true horphaned).1
      exact hput hkey (Open.reply hopen.connector (hopen.sending_reply hst) (Or.inl rfl))
    | @reset now _ _ hr hreset =>
      rw [hsame hkey hr]
      refine hput hkey ?_
      have hstatus : (row.reset now).status = if row.status = .sending then .failed else row.status :=
        rfl
      cases hopen with
      | delivered hconnector hst =>
        rw [hst] at hstatus
        exact Open.delivered hconnector hstatus
      | turn hconnector h' =>
        rw [h'.failed] at hstatus
        exact Open.turn hconnector ⟨hstatus, h'.unanswered, h'.error⟩
      | reply hconnector hreply hst =>
        refine Open.reply hconnector hreply (Or.inl ?_)
        rw [hstatus]
        rcases hst with hst | hst <;> rw [hst] <;> rfl
    | fail hr hclaim hst =>
      rw [hsame hkey hr] at hst ⊢
      exact hput hkey (Open.reply hopen.connector (hopen.sending_reply hst) (Or.inl rfl))
  · rw [delivery_other h hkey]
    exact ⟨row, hrow, hopen⟩

end Calls

/-! ## What a retry does -/

/-- A retry of an open row, phase by phase. -/
def Worker.Retrying (w : Worker) (connectorId : String) : WorkerPhase → Prop
  | .received | .turning _ | .claiming _ => False
  | .reading _ | .done => True
  | .reclaiming false reply | .promoting reply =>
    w.connectorId = connectorId ∧ PyStr.strip reply ≠ ""
  | _ => w.connectorId = connectorId

/-- Whether the turn of a retry ended so that the route gives it up. -/
def TurnOutcome.abandons : TurnOutcome → Bool
  | .cancelled | .unknownEffect | .interrupted => true
  | .completed .. | .raised => false

/-- The phases of a worker that has to record a send. -/
def WorkerPhase.delivers : WorkerPhase → Prop
  | .sending _ | .posting _ | .rejected _ | .accepted => True
  | _ => False

/-- What a retry does to an open row; one that is granted the row goes on to send. -/
structure RetrySpec (w : Worker) (connectorId : String) (row : DeliveryRow) (m : Move) : Prop where
  keeps : ∀ op, m.1 = some op → KeepsOpen connectorId row op
  next : ∀ answer, w.Retrying connectorId (m.2 answer)
  granted : ∀ op answer key, m.1 = some op → sendGrant (op, answer) = some key →
    (m.2 answer).delivers ∧ op.actor = some w.owner.text

section Retry

variable {w : Worker} {connectorId : String} {row : DeliveryRow} {phase : WorkerPhase}
  {action : WorkerAction} {m : Move}

theorem retrySpec_goto {phase' : WorkerPhase} (h : w.Retrying connectorId phase') :
    RetrySpec w connectorId row (goto phase') :=
  ⟨(fun op hop => by cases hop), (fun _ => h), fun op answer key hop => by cases hop⟩

theorem retrySpec_call {op : DeliveryOp} {next : DeliveryAnswer → WorkerPhase}
    (hop : KeepsOpen connectorId row op) (hnext : ∀ answer, w.Retrying connectorId (next answer))
    (hgranted : ∀ answer key, sendGrant (op, answer) = some key →
      (next answer).delivers ∧ op.actor = some w.owner.text) :
    RetrySpec w connectorId row (some op, next) where
  keeps := fun op' hop' => by
    cases hop'
    exact hop
  next := hnext
  granted := fun op' answer key hop' => by
    cases hop'
    exact hgranted answer key

theorem retrying_onClaimed {phase' : WorkerPhase} (h : w.Retrying connectorId phase')
    (answer : DeliveryAnswer) : w.Retrying connectorId (onClaimed phase' answer) := by
  unfold onClaimed
  split
  · exact h
  · trivial

theorem retryMove_retrySpec {now : ℚ} {recovered : Bool} (hopen : Open connectorId row) :
    RetrySpec w connectorId row (retryMove w now recovered row) := by
  unfold retryMove
  split
  · exact retrySpec_goto trivial
  rename_i hconnector
  have hown : w.connectorId = connectorId := by
    rw [← hopen.connector]
    exact (not_not.mp hconnector).symm
  split
  · split
    · exact retrySpec_goto trivial
    · exact retrySpec_call trivial (fun _ => trivial) fun _ _ h => by cases h
  split
  · exact retrySpec_goto trivial
  split
  · exact retrySpec_goto trivial
  split
  · rename_i hreply
    exact retrySpec_goto ⟨hown, PyStr.strip_strip_ne hreply⟩
  split
  · exact retrySpec_goto hown
  · exact retrySpec_goto trivial

theorem retryTurnMove_retrySpec {now : ℚ} {outcome : TurnOutcome}
    (hown : w.connectorId = connectorId)
    (habandons : outcome.abandons = true → row.claimedBy = some w.owner.text →
      row.replyText ≠ none) :
    RetrySpec w connectorId row (retryTurnMove w now outcome) := by
  have hexception : retryableTurnError
      (some (PyStr.textPrefix 2000 "connector_turn_exception")) = true := by decide +kernel
  cases outcome with
  | completed replayed reply =>
    rw [retryTurnMove]
    split
    · exact retrySpec_call (fun _ _ => hexception) (fun _ => trivial) fun _ _ h => by cases h
    · rename_i hreply
      exact retrySpec_goto ⟨hown, PyStr.strip_strip_ne hreply⟩
  | raised =>
    exact retrySpec_call (fun _ _ => hexception) (fun _ => trivial) fun _ _ h => by cases h
  | cancelled | unknownEffect | interrupted =>
    exact retrySpec_call (fun hclaim hnone => absurd hnone (habandons rfl hclaim)) (fun _ => trivial)
      fun _ _ h => by cases h

theorem workerStep_retrySpec (h : workerStep w (some row) phase action = some m)
    (hphase : w.Retrying connectorId phase) (hopen : Open connectorId row)
    (habandons : ∀ now outcome, phase = .regenerating → action = .turn now outcome →
      outcome.abandons = true → row.claimedBy = some w.owner.text → row.replyText ≠ none) :
    RetrySpec w connectorId row m := by
  unfold workerStep at h
  simp only at h
  split at h
  · exact hphase.elim
  · exact hphase.elim
  · exact hphase.elim
  · exact hphase.elim
  · cases h
    exact retryMove_retrySpec hopen
  · cases h
    exact retrySpec_call trivial (retrying_onClaimed hphase) fun _ _ h => by cases h
  · cases h
    refine retrySpec_call ⟨hphase.1, _, rfl, hphase.2⟩ (retrying_onClaimed hphase.1) ?_
    intro answer key hgrant
    unfold onClaimed
    split
    · exact ⟨trivial, congrArg some w.owner.trimmed⟩
    · rename_i hrefused
      exfalso
      unfold sendGrant at hgrant
      split at hgrant
      · exact hrefused _ _ (Prod.mk.inj ‹_›).2
      · cases (Prod.mk.inj ‹_›).1
      · cases hgrant
  · rename_i now outcome
    cases h
    exact retryTurnMove_retrySpec hphase (habandons now outcome rfl rfl)
  · cases h
    refine retrySpec_call hphase.2 (fun answer => ?_) fun answer key hgrant => ?_
    · split
      · exact hphase.1
      · exact hphase.1
    · have hchanged : answer = .changed true := by
        unfold sendGrant at hgrant
        split at hgrant
        · cases hgrant
          cases (Prod.mk.inj ‹_›).1
        · exact (Prod.mk.inj ‹_›).2
        · cases hgrant
      rw [if_pos hchanged]
      exact ⟨trivial, rfl⟩
  · cases h
    refine retrySpec_call (fun _ _ => ?_) (fun _ => trivial) fun _ _ h => by cases h
    decide +kernel
  · split at h
    · cases h
    · cases h
      exact retrySpec_goto hphase
  · split at h
    · cases h
      exact retrySpec_goto hphase
    · cases h
  · cases h
    unfold verdictMove
    split
    · exact retrySpec_goto trivial
    · split
      · exact retrySpec_goto trivial
      · exact retrySpec_goto hphase
    · exact retrySpec_goto hphase
    · exact retrySpec_goto hphase
  · split at h
    · cases h
      exact retrySpec_goto hphase
    · cases h
      exact retrySpec_goto trivial
  · cases h
    exact retrySpec_call trivial (fun _ => trivial) fun _ _ h => by cases h
  · cases h
    exact retrySpec_call trivial (fun _ => trivial) fun _ _ h => by cases h
  · cases h
    exact retrySpec_goto trivial
  · cases h

/-! ## Sends to QQ -/

/-- Whether the worker leaves a send to QQ without a verdict. -/
def WorkerAction.leavesSend (w : Worker) : WorkerAction → Bool
  | .cancelled | .crash => true
  | .returned attempt =>
    match classify (sendReply w.connectorId w.protocol attempt) with
    | .unknown | .raised => true
    | .failed _ | .succeeded => false
  | _ => false

theorem delivers_step (h : workerStep w (some row) phase action = some m)
    (hdelivers : phase.delivers) (hstays : action.leavesSend w = false) :
    (m.1 = none ∧ ∀ answer, (m.2 answer).delivers) ∨
      (∃ now reason, m.1 = some (.fail now w.deliveryKey.text w.owner.text reason)) ∨
        ∃ now, m.1 = some (.sent now w.deliveryKey.text w.owner.text) := by
  have hgoes {phase' : WorkerPhase} (h' : phase'.delivers) :
      (goto phase').1 = none ∧ ∀ answer, ((goto phase').2 answer).delivers := ⟨rfl, fun _ => h'⟩
  cases phase with
  | sending reply =>
    cases action with
    | post =>
      rw [workerStep] at h
      split at h
      · cases h
      · cases h
        exact Or.inl (hgoes trivial)
    | emptyReply =>
      rw [workerStep] at h
      split at h
      · cases h
        exact Or.inl (hgoes trivial)
      · cases h
    | cancelled => cases hstays
    | crash => cases hstays
    | _ => cases h
  | posting reply =>
    cases action with
    | returned attempt =>
      cases h
      rw [WorkerAction.leavesSend] at hstays
      cases hverdict : classify (sendReply w.connectorId w.protocol attempt) with
      | unknown =>
        rw [hverdict] at hstays
        cases hstays
      | raised =>
        rw [hverdict] at hstays
        cases hstays
      | failed reason => exact Or.inl (hgoes trivial)
      | succeeded => exact Or.inl (hgoes trivial)
    | cancelled => cases hstays
    | crash => cases hstays
    | _ => cases h
  | rejected reason =>
    cases action with
    | call now =>
      cases h
      exact Or.inr (Or.inl ⟨now, reason, rfl⟩)
    | crash => cases hstays
    | _ => cases h
  | accepted =>
    cases action with
    | call now =>
      cases h
      exact Or.inr (Or.inr ⟨now, rfl⟩)
    | crash => cases hstays
    | _ => cases h
  | _ => exact hdelivers.elim

end Retry

theorem sending_call {s s' : Store} {op : DeliveryOp} {answer : DeliveryAnswer} {key : String}
    {row' : DeliveryRow} (h : DeliveryMove s op answer s') (hrow' : s'.delivery key = some row')
    (hst : row'.status = .sending) (hqq : row'.connectorId = "qq") :
    s.delivery key = some row' ∨ sendGrant (op, answer) = some key ∧
      ∃ owner, row'.claimedBy = some owner ∧ op.actor = some owner := by
  by_cases hkey : target op = key
  · have hnew {new : DeliveryRow} {k : String} (hk : k = key)
        (hput : (s.putDelivery k new).delivery key = some row') : new = row' := by
      rw [Store.delivery_put, if_pos hk.symm] at hput
      exact Option.some.inj hput
    cases h with
    | refused => exact Or.inl hrow'
    | discard hr =>
      rw [Store.delivery_drop] at hrow'
      have hnone := (if_pos hkey.symm).symm.trans hrow'
      cases hnone
    | claim =>
      cases hnew hkey hrow'
      exact Or.inr ⟨congrArg some hkey, _, rfl, rfl⟩
    | promote hr hclaim =>
      cases hnew hkey hrow'
      exact Or.inr ⟨congrArg some hkey, _, hclaim, rfl⟩
    | claimRetry _ hr hfailed =>
      cases hnew hkey hrow'
      have hsame := hfailed.symm.trans hst
      cases hsame
    | @reset now _ row hr hreset =>
      cases hnew hkey hrow'
      have hstatus : (row.reset now).status = if row.status = .sending then .failed else row.status :=
        rfl
      rw [hstatus] at hst
      split at hst
      · cases hst
      · exact absurd hst ‹_›
    | record => cases hnew hkey hrow'; cases hst
    | failTurn => cases hnew hkey hrow'; cases hst
    | recoverStale => cases hnew hkey hrow'; cases hst
    | releaseRetry => cases hnew hkey hrow'; cases hst
    | sent => cases hnew hkey hrow'; cases hst
    | resolveDelivered => cases hnew hkey hrow'; cases hst
    | resolveFailed => cases hnew hkey hrow'; cases hst
    | fail => cases hnew hkey hrow'; cases hst
  · rw [delivery_other h hkey] at hrow'
    exact Or.inl hrow'

theorem record_ends {s s' : Store} {key owner : String} {op : DeliveryOp} {answer : DeliveryAnswer}
    {row row' : DeliveryRow} (hrow : s.delivery key = some row) (hclaim : row.claimedBy = some owner)
    (hst : row.status = .sending)
    (hop : (∃ now reason, op = .fail now key owner reason) ∨ ∃ now, op = .sent now key owner)
    (h : applyDelivery s op = (s', answer)) (hrow' : s'.delivery key = some row') :
    row'.status ≠ .sending := by
  have hguard : row.claimedIn owner .sending = true := decide_eq_true ⟨hclaim, hst⟩
  have hupdate (set : DeliveryRow → DeliveryRow) :
      updateDelivery s key (fun row => row.claimedIn owner .sending) set =
        (s.putDelivery key (set row), true) := by
    rw [updateDelivery, hrow]
    exact if_pos hguard
  rcases hop with ⟨now, reason, rfl⟩ | ⟨now, rfl⟩
  · rw [applyDelivery, markConnectorDeliveryFailed, hupdate] at h
    cases h
    have hput := (Store.delivery_put s key key _).symm.trans hrow'
    rw [if_pos rfl] at hput
    cases hput
    intro hsending
    cases hsending
  · rw [applyDelivery, markConnectorDeliverySent, hupdate] at h
    cases h
    have hput := (Store.delivery_put s key key _).symm.trans hrow'
    rw [if_pos rfl] at hput
    cases hput
    intro hsending
    cases hsending

/-! ## Runs -/

section System

variable {ι : Type} [DecidableEq ι] (workers : ι → Worker) (key : String)

/-- The steps that strand a message: the turn of a retry that holds its row is given up before
there is a reply, or a worker leaves its send to QQ without a verdict. -/
inductive Stranding (sys : RouteSystem ι) : RouteLabel ι → Prop
  | abandoned (i : ι) (now : ℚ) (outcome : TurnOutcome)
      (call : Option (DeliveryOp × DeliveryAnswer)) (row : DeliveryRow)
      (hkey : (workers i).deliveryKey.text = key) (hrow : sys.store.delivery key = some row)
      (hclaim : row.claimedBy = some (workers i).owner.text) (hnone : row.replyText = none)
      (hphase : sys.phase i = .regenerating) (houtcome : outcome.abandons = true) :
      Stranding sys (.worker i (.turn now outcome) call)
  | left (i : ι) (action : WorkerAction) (call : Option (DeliveryOp × DeliveryAnswer))
      (row : DeliveryRow) (hkey : (workers i).deliveryKey.text = key)
      (hrow : sys.store.delivery key = some row)
      (hclaim : row.claimedBy = some (workers i).owner.text) (hst : row.status = .sending)
      (hqq : row.connectorId = "qq") (hleaves : action.leavesSend (workers i) = true) :
      Stranding sys (.worker i action call)

def TendedStep (sys : RouteSystem ι) (l : RouteLabel ι) (sys' : RouteSystem ι) : Prop :=
  RouteStep workers sys l sys' ∧ ¬ Stranding workers key sys l

structure Tended (connectorId : String) (sys : RouteSystem ι) : Prop where
  opened : ∃ row, sys.store.delivery key = some row ∧ Open connectorId row
  phases : ∀ i, (workers i).deliveryKey.text = key →
    (workers i).Retrying connectorId (sys.phase i)
  sender : ∀ row, sys.store.delivery key = some row → row.status = .sending →
    row.connectorId = "qq" → ∃ i, (workers i).deliveryKey.text = key ∧
      row.claimedBy = some (workers i).owner.text ∧ (sys.phase i).delivers

variable {workers key} {connectorId : String} {sys sys' : RouteSystem ι} {l : RouteLabel ι}

theorem operator_keeps (call : OperatorCall) (row : DeliveryRow) :
    KeepsOpen connectorId row call.op := by
  cases call <;> exact trivial

omit [DecidableEq ι] in
theorem tended_abandons {i : ι} {action : WorkerAction}
    {call : Option (DeliveryOp × DeliveryAnswer)} {row : DeliveryRow}
    (htended : ¬ Stranding workers key sys (.worker i action call))
    (hkey : (workers i).deliveryKey.text = key) (hrow : sys.store.delivery key = some row) :
    ∀ now outcome, sys.phase i = .regenerating → action = .turn now outcome →
      outcome.abandons = true → row.claimedBy = some (workers i).owner.text →
      row.replyText ≠ none := by
  rintro now outcome hphase rfl houtcome hclaim hnone
  exact htended (.abandoned i now outcome call row hkey hrow hclaim hnone hphase houtcome)

omit [DecidableEq ι] in
theorem tended_stays {i : ι} {action : WorkerAction}
    {call : Option (DeliveryOp × DeliveryAnswer)} {row : DeliveryRow}
    (htended : ¬ Stranding workers key sys (.worker i action call))
    (hkey : (workers i).deliveryKey.text = key) (hrow : sys.store.delivery key = some row)
    (hclaim : row.claimedBy = some (workers i).owner.text) (hst : row.status = .sending)
    (hqq : row.connectorId = "qq") : action.leavesSend (workers i) = false := by
  by_contra hleaves
  exact htended (.left i action call row hkey hrow hclaim hst hqq (Bool.eq_true_of_not_eq_false hleaves))

theorem tended_step (h : Tended workers key connectorId sys) (hstep : TendedStep workers key sys l sys') :
    Tended workers key connectorId sys' := by
  obtain ⟨hstep, htended⟩ := hstep
  obtain ⟨row, hrow, hopen⟩ := h.opened
  cases l with
  | operator call answer =>
    obtain ⟨hcall, hphase⟩ := hstep
    have hmove := applyDelivery_move hcall
    refine ⟨open_call hmove hrow hopen fun _ => operator_keeps call row, fun i hi => ?_,
      fun row' hrow' hst hqq => ?_⟩
    · rw [hphase]
      exact h.phases i hi
    · rw [hphase]
      rcases sending_call hmove hrow' hst hqq with hold | ⟨hgrant, -⟩
      · exact h.sender row' hold hst hqq
      · cases call <;> cases hgrant
  | worker i action call =>
    obtain ⟨m, hm, hcall, hstore, hphase⟩ := hstep
    have hother {j : ι} (hj : j ≠ i) : sys'.phase j = sys.phase j := by
      rw [hphase, Function.update_of_ne hj]
    have hself : sys'.phase i = m.next call := by
      rw [hphase, Function.update_self]
    cases call with
    | none =>
      -- no call: the row stays, and a worker that has to record a send still has to
      have hnone : m.1 = none := hcall.symm
      have hsame : sys'.store = sys.store := hstore
      refine ⟨⟨row, hsame ▸ hrow, hopen⟩, fun j hj => ?_, fun row' hrow' hst hqq => ?_⟩
      · by_cases hji : j = i
        · subst hji
          rw [hj, hrow] at hm
          rw [hself]
          exact (workerStep_retrySpec hm (h.phases j hj) hopen
            (tended_abandons htended hj hrow)).next _
        · rw [hother hji]
          exact h.phases j hj
      · rw [hsame] at hrow'
        obtain ⟨j, hj, hclaim, hdelivers⟩ := h.sender row' hrow' hst hqq
        refine ⟨j, hj, hclaim, ?_⟩
        by_cases hji : j = i
        · subst hji
          rw [hj, hrow'] at hm
          rw [hself]
          have hstays := tended_stays htended hj hrow' hclaim hst hqq
          rcases delivers_step hm hdelivers hstays with ⟨-, hnext⟩ | ⟨now, reason, hop⟩ | ⟨now, hop⟩
          · exact hnext _
          · rw [hnone] at hop
            cases hop
          · rw [hnone] at hop
            cases hop
        · rw [hother hji]
          exact hdelivers
    | some c =>
      obtain ⟨op, answer⟩ := c
      have hmove := applyDelivery_move hstore
      have hop : m.1 = some op := hcall.symm
      have htarget := ((workerStep_spec hm).own op hop).1
      by_cases hi : (workers i).deliveryKey.text = key
      · have hspec : RetrySpec (workers i) connectorId row m := by
          rw [hi, hrow] at hm
          exact workerStep_retrySpec hm (h.phases i hi) hopen (tended_abandons htended hi hrow)
        refine ⟨open_call hmove hrow hopen fun _ => hspec.keeps op hop, fun j hj => ?_,
          fun row' hrow' hst hqq => ?_⟩
        · by_cases hji : j = i
          · subst hji
            rw [hself]
            exact hspec.next _
          · rw [hother hji]
            exact h.phases j hj
        · rcases sending_call hmove hrow' hst hqq with hold | ⟨hgrant, owner, hclaim, hactor⟩
          · obtain ⟨j, hj, hclaim, hdelivers⟩ := h.sender row' hold hst hqq
            refine ⟨j, hj, hclaim, ?_⟩
            by_cases hji : j = i
            · -- its owner records the send, and the row is not sending after it
              subst hji
              exfalso
              rw [hj, hold] at hm
              have hstays := tended_stays htended hj hold hclaim hst hqq
              refine record_ends hold hclaim hst ?_ hstore hrow' hst
              rcases delivers_step hm hdelivers hstays with ⟨hnone, -⟩ | ⟨now, reason, heq⟩ | ⟨now, heq⟩
              · rw [hop] at hnone
                cases hnone
              · rw [hop, hj] at heq
                exact Or.inl ⟨now, reason, Option.some.inj heq⟩
              · rw [hop, hj] at heq
                exact Or.inr ⟨now, Option.some.inj heq⟩
            · rw [hother hji]
              exact hdelivers
          · obtain ⟨hdelivers, howner⟩ := hspec.granted op answer key hop hgrant
            refine ⟨i, hi, ?_, ?_⟩
            · rw [hclaim, ← hactor, howner]
            · rw [hself]
              exact hdelivers
      · have hrows : sys'.store.delivery key = sys.store.delivery key :=
          delivery_other hmove fun heq => hi (htarget.symm.trans heq)
        refine ⟨⟨row, hrows.trans hrow, hopen⟩, fun j hj => ?_, fun row' hrow' hst hqq => ?_⟩
        · rw [hother fun hji => hi (hji ▸ hj)]
          exact h.phases j hj
        · rw [hrows] at hrow'
          obtain ⟨j, hj, hclaim, hdelivers⟩ := h.sender row' hrow' hst hqq
          refine ⟨j, hj, hclaim, ?_⟩
          rw [hother fun hji => hi (hji ▸ hj)]
          exact hdelivers

/-- A message whose turn failed is not stranded by retries and operators: in every run without
stranding steps it is delivered or can be retried, for QQ whenever no retry is at work. -/
theorem retry_again {s₀ : Store} {row : DeliveryRow}
    (hretries : ∀ i, (workers i).deliveryKey.text = key → (workers i).kind = .retry)
    (hrow : s₀.delivery key = some row) (hfailed : TurnFailed row) {hist : List (RouteLabel ι)}
    (hrun : Run (TendedStep workers key) ⟨s₀, fun i => (workers i).start⟩ hist sys)
    (hquiet : row.connectorId = "qq" → ∀ i, (workers i).deliveryKey.text = key →
      sys.phase i = .reading false ∨ sys.phase i = .done) :
    NotStranded sys.store row.connectorId key := by
  have hstart : Tended workers key row.connectorId ⟨s₀, fun i => (workers i).start⟩ := by
    refine ⟨⟨row, hrow, Open.turn rfl hfailed⟩, fun i hi => ?_, fun row' hrow' hst => ?_⟩
    · have hbegins : (workers i).start = .reading false := by
        unfold Worker.start
        rw [hretries i hi]
      show (workers i).Retrying row.connectorId (workers i).start
      rw [hbegins]
      trivial
    · have hsame := hrow.symm.trans hrow'
      cases hsame
      rw [hfailed.failed] at hst
      cases hst
  have hinv : Tended workers key row.connectorId sys :=
    hrun.invariant hstart fun s l s' h hstep => tended_step h hstep
  obtain ⟨row', hrow', hopen⟩ := hinv.opened
  -- from the end of the lease on
  have hretriable (h : ∀ now ≥ row'.claimExpiresAt.getD 0, ∀ w : Worker,
      row'.connectorId = w.connectorId → sys.store.delivery w.deliveryKey.text = some row' →
      accepts sys.store w now = true) : NotStranded sys.store row.connectorId key := by
    refine Or.inr ⟨row'.claimExpiresAt.getD 0, fun now hnow w hconnector hkey => ?_⟩
    exact h now hnow w (hopen.connector.trans hconnector.symm) (hkey ▸ hrow')
  cases hopen with
  | delivered hconnector hst => exact Or.inl (Or.inr ⟨row', hrow', hst⟩)
  | turn hconnector h => exact hretriable fun now hnow w hown hread => accepts_turn hread hown h hnow
  | reply hconnector hreply hst =>
    refine hretriable fun now hnow w hown hread => accepts_reply hread hown hreply ?_ hnow
    rcases hst with hst | hst
    · exact Or.inl hst
    · refine Or.inr ⟨hst, fun hqq => ?_⟩
      obtain ⟨i, hi, -, hdelivers⟩ := hinv.sender row' hrow' hst hqq
      rcases hquiet (hconnector.symm.trans hqq) i hi with hphase | hphase
      · rw [hphase] at hdelivers
        exact hdelivers
      · rw [hphase] at hdelivers
        exact hdelivers

/-! ## Retries that are given up, and retries that are not -/

def WorkerAction.abandons : WorkerAction → Bool
  | .turn _ outcome => outcome.abandons
  | _ => false

/-- Whether an action strands nothing, whatever the row is. -/
def WorkerAction.tends (w : Worker) (action : WorkerAction) : Bool :=
  !action.abandons && !action.leavesSend w

theorem acts_tended {steps : List (ι × WorkerAction)} {later : List (RouteLabel ι)}
    (h : acts workers sys steps = some (later, sys'))
    (htends : ∀ step ∈ steps, step.2.tends (workers step.1) = true) :
    Run (TendedStep workers key) sys later sys' := by
  induction steps generalizing sys later with
  | nil =>
    cases h
    exact Run.start
  | cons step rest ih =>
    obtain ⟨i, action⟩ := step
    obtain ⟨⟨l, sys₁⟩, hact, h⟩ := Option.bind_eq_some_iff.mp h
    obtain ⟨⟨later₁, sys₂⟩, hrest, h⟩ := Option.bind_eq_some_iff.mp h
    cases h
    have haction : ∃ call, l = .worker i action call := by
      obtain ⟨m, -, h⟩ := Option.bind_eq_some_iff.mp hact
      split at h <;> cases h <;> exact ⟨_, rfl⟩
    obtain ⟨call, rfl⟩ := haction
    have htended : ¬ Stranding workers key sys (.worker i action call) := by
      intro hstrands
      have hharmless : action.tends (workers i) = true := htends (i, action) List.mem_cons_self
      obtain ⟨hkeeps, hstays⟩ := (Bool.and_eq_true _ _).mp hharmless
      cases hstrands with
      | abandoned _ now outcome _ row hkey hrow hclaim hnone hphase houtcome =>
        have habandons : (!outcome.abandons) = true := hkeeps
        rw [houtcome] at habandons
        cases habandons
      | left _ _ _ row hkey hrow hclaim hst hqq hleaves =>
        rw [hleaves] at hstays
        cases hstays
    exact (Run.next Run.start ⟨act_step hact, htended⟩).append
      (ih hrest fun step hstep => htends step (List.mem_cons_of_mem _ hstep))

end System

/-- The row of a Telegram message whose turn failed. -/
def failedRow : DeliveryRow where
  idempotencyKey := "connector:telegram:7"
  connectorId := "telegram"
  eventId := "7"
  status := .failed
  attemptCount := 0
  claimedBy := none
  claimExpiresAt := none
  lastError := some "connector_turn_failed"
  updatedAt := 1
  deliveredAt := none
  messageJson := some (.obj [])
  replyText := none

def failedStore : Store := Store.empty.putDelivery "connector:telegram:7" failedRow

def telegramRetry : Unit → Worker := fun _ =>
  { kind := .retry
    connectorId := "telegram"
    protocol := ""
    deliveryKey := ⟨"connector:telegram:7", by decide +kernel, by decide⟩
    owner := ⟨"manual-retry:1", by decide +kernel, by decide⟩
    idempotencyKey := "connector:telegram:7"
    eventId := "7"
    message := .obj [] }

def retryEnds (outcome : TurnOutcome) : List (Unit × WorkerAction) :=
  [((), .call 10), ((), .call 10), ((), .turn 20 outcome)]

/-- A retry whose turn raised can be retried. -/
theorem retry_again_raised : ∃ hist sys,
    Run (TendedStep telegramRetry "connector:telegram:7")
      ⟨failedStore, fun i => (telegramRetry i).start⟩ hist sys ∧
    NotStranded sys.store "telegram" "connector:telegram:7" := by
  have heval : (acts telegramRetry ⟨failedStore, fun i => (telegramRetry i).start⟩
      (retryEnds .raised)).isSome = true := by decide +kernel
  obtain ⟨⟨hist, sys⟩, hacts⟩ := Option.isSome_iff_exists.mp heval
  have hrun := @acts_tended _ _ _ "connector:telegram:7" _ _ _ _ hacts (by decide +kernel)
  refine ⟨hist, sys, hrun, ?_⟩
  have hfailed : TurnFailed failedRow := ⟨rfl, rfl, by decide +kernel⟩
  exact retry_again (fun _ _ => rfl) (by decide +kernel) hfailed hrun (fun hqq => absurd hqq (by decide))

/-- A retry whose request is cancelled during the turn strands the message. -/
theorem cancelled_retry_strands : ¬ ∀ (workers : Unit → Worker) (key : String) (s₀ : Store)
    (row : DeliveryRow) (hist : List (RouteLabel Unit)) (sys : RouteSystem Unit),
    (∀ i, (workers i).kind = .retry) → s₀.delivery key = some row → TurnFailed row →
      Run (RouteStep workers) ⟨s₀, fun i => (workers i).start⟩ hist sys →
      (∀ i, sys.phase i = .done) → NotStranded sys.store row.connectorId key := by
  intro h
  have hdone (phase : WorkerPhase) : (match phase with
      | .done => true
      | _ => false) = true → phase = .done := by
    cases phase <;> first | exact fun _ => rfl | exact nofun
  -- the row it leaves, and its phase
  have heval : (acts telegramRetry ⟨failedStore, fun i => (telegramRetry i).start⟩
      (retryEnds .interrupted)).map (fun r => (r.2.store.delivery "connector:telegram:7",
        match r.2.phase () with
        | .done => true
        | _ => false)) =
      some (some { failedRow with
        attemptCount := 1, lastError := some "connector_retry_cancelled", updatedAt := 20 }, true) := by
    decide +kernel
  obtain ⟨⟨hist, sys⟩, hacts, hleft⟩ := Option.map_eq_some_iff.mp heval
  obtain ⟨hrow, hphase⟩ := Prod.mk.inj hleft
  have hrun := acts_run hacts
  have hstranded := h telegramRetry "connector:telegram:7" failedStore failedRow hist sys
    (fun _ => rfl) (by decide +kernel) ⟨rfl, rfl, by decide +kernel⟩ hrun
    (fun _ => hdone _ hphase)
  rcases hstranded with (hnone | ⟨row, hrow', hst⟩) | ⟨t, ht⟩
  · have hsome := hrow.symm.trans hnone
    cases hsome
  · have hsame := hrow.symm.trans hrow'
    cases hsame
    cases hst
  · have htaken := ht t le_rfl (telegramRetry ()) rfl rfl
    have hrefused := @not_accepts _ (telegramRetry ()) _ t hrow rfl (by decide +kernel)
      (by decide +kernel)
    rw [hrefused] at htaken
    cases htaken

end Connector
