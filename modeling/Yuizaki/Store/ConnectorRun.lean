import Yuizaki.Lib.Run
import Yuizaki.Store.Connector

/- Connector deliveries over any sequence of operations.

   `applyDelivery_move` says everything one operation can do. From it: the columns
   of a row agree with its status (`DeliveryRow.Ok`), a delivered row never changes,
   a claim is handed out only on a row no other owner holds and a held row is left to
   its owner until its lease is over, and the message and the reply of a row survive
   every operation but the discard of a row without a reply. -/
namespace TurnStore

open Transition

/-! ## What one operation can do -/

/-- The operations that change the store, with what they found, and `refused` for all
the others. -/
inductive DeliveryMove (s : Store) : DeliveryOp → DeliveryAnswer → Store → Prop
  | refused {op : DeliveryOp} {answer : DeliveryAnswer} :
      answer.accepted = false → DeliveryMove s op answer s
  | record {now lease : ℚ} {key owner : String} {subject : DeliverySubject} {message : Json} :
      s.delivery (PyStr.strip key) = none → PyStr.strip owner ≠ "" →
      DeliveryMove s (.record now key subject owner lease message) (.changed true)
        (s.putDelivery (PyStr.strip key)
          (pendingRow now subject (PyStr.strip owner) (now + leaseFloor lease) message))
  | failTurn {now : ℚ} {key owner error : String} {row : DeliveryRow} :
      s.delivery key = some row → row.claimedBy = some owner → row.status = .processing →
      DeliveryMove s (.failTurn now key owner error) (.changed true)
        (s.putDelivery key (row.failUndelivered now (PyStr.textPrefix 2000 error)))
  | discard {key owner : String} {row : DeliveryRow} :
      s.delivery key = some row → row.claimedBy = some owner → row.status = .processing →
      row.replyText = none →
      DeliveryMove s (.discard key owner) (.changed true) (s.dropDelivery key)
  | recoverStale {now : ℚ} {key : String} {row : DeliveryRow} :
      s.delivery key = some row → row.status = .processing → row.leaseOver now = true →
      DeliveryMove s (.recoverStale now key) (.changed true)
        (s.putDelivery key (row.fail now "connector_turn_interrupted"))
  | claim {now lease : ℚ} {key owner : String} {subject : DeliverySubject}
      {message : Option Json} {replyText : Option String} {attempts : ℕ} {expiresAt : ℚ} :
      PyStr.strip owner ≠ "" →
      (∀ row, s.delivery (PyStr.strip key) = some row → row.status ≠ .delivered ∧
        row.busyFor (PyStr.strip owner) now = false ∧
        ¬ (row.status = .sending ∧ row.connectorId = "qq")) →
      DeliveryMove s (.claim now key subject owner lease message replyText)
        (.claim (.claimed attempts expiresAt))
        (s.putDelivery (PyStr.strip key) (sendingRow now subject (PyStr.strip owner)
          (now + leaseFloor lease) message replyText (s.delivery (PyStr.strip key))))
  | claimRetry {now lease : ℚ} {key owner : String} {row : DeliveryRow} {attempts : ℕ}
      {expiresAt : ℚ} :
      PyStr.strip owner ≠ "" → s.delivery (PyStr.strip key) = some row →
      row.status = .failed → row.busyFor (PyStr.strip owner) now = false →
      row.replyText = none →
      DeliveryMove s (.claimRetry now key owner lease) (.claim (.claimed attempts expiresAt))
        (s.putDelivery (PyStr.strip key)
          (row.retry now (PyStr.strip owner) (now + leaseFloor lease)))
  | promote {now lease : ℚ} {key owner replyText : String} {row : DeliveryRow} :
      s.delivery key = some row → row.claimedBy = some owner → row.status = .failed →
      DeliveryMove s (.promote now key owner replyText lease) (.changed true)
        (s.putDelivery key (row.promote now replyText (now + leaseFloor lease)))
  | releaseRetry {now : ℚ} {key owner error : String} {row : DeliveryRow} :
      s.delivery key = some row → row.claimedBy = some owner → row.status = .failed →
      DeliveryMove s (.releaseRetry now key owner error) (.changed true)
        (s.putDelivery key (row.fail now (PyStr.textPrefix 2000 error)))
  | sent {now : ℚ} {key owner : String} {row : DeliveryRow} :
      s.delivery key = some row → row.claimedBy = some owner → row.status = .sending →
      DeliveryMove s (.sent now key owner) (.changed true)
        (s.putDelivery key (row.deliver now row.lastError))
  | resolveDelivered {now : ℚ} {key outcome : String} {row : DeliveryRow} :
      s.delivery (PyStr.strip key) = some row → row.orphanedSend now = true →
      PyStr.lowerAscii (PyStr.strip outcome) = "delivered" →
      DeliveryMove s (.resolve now key outcome) (.changed true)
        (s.putDelivery (PyStr.strip key) (row.deliver now none))
  | resolveFailed {now : ℚ} {key outcome : String} {row : DeliveryRow} :
      s.delivery (PyStr.strip key) = some row → row.orphanedSend now = true →
      PyStr.lowerAscii (PyStr.strip outcome) = "failed" →
      DeliveryMove s (.resolve now key outcome) (.changed true)
        (s.putDelivery (PyStr.strip key) (row.failUndelivered now "manual_resolution_failed"))
  | reset {now : ℚ} {key : String} {row : DeliveryRow} :
      s.delivery (PyStr.strip key) = some row → row.resettable now = true →
      DeliveryMove s (.reset now key) (.changed true)
        (s.putDelivery (PyStr.strip key) (row.reset now))
  | fail {now : ℚ} {key owner error : String} {row : DeliveryRow} :
      s.delivery key = some row → row.claimedBy = some owner → row.status = .sending →
      DeliveryMove s (.fail now key owner error) (.changed true)
        (s.putDelivery key (row.failUndelivered now (PyStr.textPrefix 2000 error)))

theorem updateDelivery_cases {s : Store} {key : String} {guard : DeliveryRow → Bool}
    {set : DeliveryRow → DeliveryRow} :
    updateDelivery s key guard set = (s, false) ∨
    ∃ row, s.delivery key = some row ∧ guard row = true ∧
      updateDelivery s key guard set = (s.putDelivery key (set row), true) := by
  unfold updateDelivery
  cases hrow : s.delivery key with
  | none => exact Or.inl rfl
  | some row =>
    cases hg : guard row with
    | false => exact Or.inl (by simp [hg])
    | true => exact Or.inr ⟨row, rfl, hg, by simp [hg]⟩

theorem DeliveryRow.claimedIn_eq {row : DeliveryRow} {owner : String} {status : DeliveryStatus}
    (h : row.claimedIn owner status = true) : row.claimedBy = some owner ∧ row.status = status := by
  simpa [DeliveryRow.claimedIn] using h

theorem updateDelivery_claimedIn {s s' : Store} {key owner : String} {status : DeliveryStatus}
    {set : DeliveryRow → DeliveryRow} {answer : DeliveryAnswer}
    (h : Prod.map id .changed
      (updateDelivery s key (fun row => row.claimedIn owner status) set) = (s', answer)) :
    (s' = s ∧ answer = .changed false) ∨
    ∃ row, s.delivery key = some row ∧ row.claimedBy = some owner ∧ row.status = status ∧
      s' = s.putDelivery key (set row) ∧ answer = .changed true := by
  rcases updateDelivery_cases with hu | ⟨row, hrow, hg, hu⟩
  · rw [hu] at h
    cases h
    exact Or.inl ⟨rfl, rfl⟩
  · rw [hu] at h
    cases h
    obtain ⟨hown, hst⟩ := DeliveryRow.claimedIn_eq hg
    exact Or.inr ⟨row, hrow, hown, hst, rfl, rfl⟩

theorem applyDelivery_move {s s' : Store} {op : DeliveryOp} {answer : DeliveryAnswer}
    (h : applyDelivery s op = (s', answer)) : DeliveryMove s op answer s' := by
  cases op with
  | record now key subject owner lease message =>
    simp only [applyDelivery, recordConnectorTurnPending] at h
    split at h
    · cases h
      exact .refused rfl
    · split at h
      · cases h
        exact .refused rfl
      · rename_i howner
        split at h
        · cases h
          exact .refused rfl
        · rename_i hnone
          cases h
          exact .record hnone howner
  | failTurn now key owner error =>
    rcases updateDelivery_claimedIn h with ⟨rfl, rfl⟩ | ⟨row, hrow, hown, hst, rfl, rfl⟩
    · exact .refused rfl
    · exact .failTurn hrow hown hst
  | discard key owner =>
    simp only [applyDelivery, discardConnectorTurnPending] at h
    split at h
    · rename_i row hrow
      split at h
      · rename_i hg
        cases h
        obtain ⟨hown, hst⟩ := DeliveryRow.claimedIn_eq hg.1
        exact .discard hrow hown hst hg.2
      · cases h
        exact .refused rfl
    · cases h
      exact .refused rfl
  | recoverStale now key =>
    simp only [applyDelivery, recoverStaleConnectorTurn] at h
    rcases updateDelivery_cases with hu | ⟨row, hrow, hg, hu⟩
    · rw [hu] at h
      cases h
      exact .refused rfl
    · rw [hu] at h
      cases h
      obtain ⟨hst, hover⟩ := of_decide_eq_true hg
      exact .recoverStale hrow hst hover
  | claim now key subject owner lease message replyText =>
    simp only [applyDelivery, claimConnectorDelivery] at h
    split at h
    · cases h
      exact .refused rfl
    · rename_i hne
      have howner : PyStr.strip owner ≠ "" := fun he => hne (Or.inr he)
      split at h
      · rename_i hnone
        cases h
        refine .claim howner ?_
        intro row hrow
        rw [hnone] at hrow
        cases hrow
      · rename_i row hrow
        split at h
        · cases h
          exact .refused rfl
        · rename_i hnd
          split at h
          · cases h
            exact .refused rfl
          · rename_i hbusy
            split at h
            · cases h
              exact .refused rfl
            · rename_i hqq
              cases h
              refine .claim howner ?_
              intro row' hrow'
              rw [hrow] at hrow'
              cases hrow'
              exact ⟨hnd, by simpa using hbusy, hqq⟩
  | claimRetry now key owner lease =>
    simp only [applyDelivery, claimConnectorTurnRetry] at h
    split at h
    · cases h
      exact .refused rfl
    · rename_i hne
      have howner : PyStr.strip owner ≠ "" := fun he => hne (Or.inr he)
      split at h
      · cases h
        exact .refused rfl
      · rename_i row hrow
        split at h
        · cases h
          exact .refused rfl
        · split at h
          · cases h
            exact .refused rfl
          · rename_i hfailed
            split at h
            · cases h
              exact .refused rfl
            · rename_i hbusy
              split at h
              · cases h
                exact .refused rfl
              · rename_i hreply
                cases h
                exact .claimRetry howner hrow (by simpa using hfailed) (by simpa using hbusy)
                  (by simpa using hreply)
  | promote now key owner replyText lease =>
    rcases updateDelivery_claimedIn h with ⟨rfl, rfl⟩ | ⟨row, hrow, hown, hst, rfl, rfl⟩
    · exact .refused rfl
    · exact .promote hrow hown hst
  | releaseRetry now key owner error =>
    rcases updateDelivery_claimedIn h with ⟨rfl, rfl⟩ | ⟨row, hrow, hown, hst, rfl, rfl⟩
    · exact .refused rfl
    · exact .releaseRetry hrow hown hst
  | sent now key owner =>
    rcases updateDelivery_claimedIn h with ⟨rfl, rfl⟩ | ⟨row, hrow, hown, hst, rfl, rfl⟩
    · exact .refused rfl
    · exact .sent hrow hown hst
  | resolve now key outcome =>
    simp only [applyDelivery, resolveConnectorDelivery] at h
    split at h
    · cases h
      exact .refused rfl
    · split at h
      · rename_i hout
        rcases updateDelivery_cases with hu | ⟨row, hrow, hg, hu⟩
        · rw [hu] at h
          cases h
          exact .refused rfl
        · rw [hu] at h
          cases h
          exact .resolveDelivered hrow hg hout
      · split at h
        · rename_i hout
          rcases updateDelivery_cases with hu | ⟨row, hrow, hg, hu⟩
          · rw [hu] at h
            cases h
            exact .refused rfl
          · rw [hu] at h
            cases h
            exact .resolveFailed hrow hg hout
        · cases h
          exact .refused rfl
  | reset now key =>
    simp only [applyDelivery, resetConnectorDeliveryForRetry] at h
    split at h
    · cases h
      exact .refused rfl
    · rcases updateDelivery_cases with hu | ⟨row, hrow, hg, hu⟩
      · rw [hu] at h
        cases h
        exact .refused rfl
      · rw [hu] at h
        cases h
        exact .reset hrow hg
  | fail now key owner error =>
    rcases updateDelivery_claimedIn h with ⟨rfl, rfl⟩ | ⟨row, hrow, hown, hst, rfl, rfl⟩
    · exact .refused rfl
    · exact .fail hrow hown hst

/-! ## The columns of a row -/

/-- The columns of a row agree with its status. -/
structure DeliveryRow.Ok (row : DeliveryRow) : Prop where
  delivered : row.status = .delivered ↔ row.deliveredAt ≠ none
  claim : row.claimedBy = none ↔ row.claimExpiresAt = none
  owner : row.claimedBy ≠ some ""
  processing : row.status = .processing → row.replyText = none
  retrying : row.status = .failed → row.claimedBy ≠ none → row.replyText = none

section Rows

variable {row : DeliveryRow} {now expiresAt : ℚ} {owner error : String}

theorem DeliveryRow.Ok.undelivered (h : row.Ok) (hst : row.status ≠ .delivered) :
    row.deliveredAt = none := by
  by_contra hne
  exact hst (h.delivered.mpr hne)

theorem pendingRow_ok {subject : DeliverySubject} {message : Json} (howner : owner ≠ "") :
    (pendingRow now subject owner expiresAt message).Ok where
  delivered := by simp [pendingRow]
  claim := by simp [pendingRow]
  owner := by simpa [pendingRow] using howner
  processing := fun _ => rfl
  retrying := fun hst => by cases hst

theorem sendingRow_ok {subject : DeliverySubject} {message : Option Json}
    {replyText : Option String} {old : Option DeliveryRow} (howner : owner ≠ "") :
    (sendingRow now subject owner expiresAt message replyText old).Ok where
  delivered := by simp [sendingRow]
  claim := by simp [sendingRow]
  owner := by simpa [sendingRow] using howner
  processing := fun hst => by cases hst
  retrying := fun hst => by cases hst

theorem fail_ok (hnone : row.deliveredAt = none) : (row.fail now error).Ok where
  delivered := by simp [DeliveryRow.fail, hnone]
  claim := by simp [DeliveryRow.fail]
  owner := by simp [DeliveryRow.fail]
  processing := fun hst => by cases hst
  retrying := fun _ hc => absurd rfl hc

theorem failUndelivered_ok : (row.failUndelivered now error).Ok where
  delivered := by simp [DeliveryRow.failUndelivered, DeliveryRow.fail]
  claim := by simp [DeliveryRow.failUndelivered, DeliveryRow.fail]
  owner := by simp [DeliveryRow.failUndelivered, DeliveryRow.fail]
  processing := fun hst => by cases hst
  retrying := fun _ hc => absurd rfl hc

theorem deliver_ok {lastError : Option String} : (row.deliver now lastError).Ok where
  delivered := by simp [DeliveryRow.deliver]
  claim := by simp [DeliveryRow.deliver]
  owner := by simp [DeliveryRow.deliver]
  processing := fun hst => by cases hst
  retrying := fun hst => by cases hst

theorem retry_ok (h : row.Ok) (howner : owner ≠ "") (hreply : row.replyText = none) :
    (row.retry now owner expiresAt).Ok where
  delivered := h.delivered
  claim := by simp [DeliveryRow.retry]
  owner := by simpa [DeliveryRow.retry] using howner
  processing := fun _ => hreply
  retrying := fun _ _ => hreply

theorem promote_ok {replyText : String} (h : row.Ok) (hst : row.status = .failed)
    (hclaim : row.claimedBy = some owner) : (row.promote now replyText expiresAt).Ok where
  delivered := by
    have hnone := h.undelivered (by rw [hst]; decide)
    simp [DeliveryRow.promote, hnone]
  claim := by simp [DeliveryRow.promote, hclaim]
  owner := h.owner
  processing := fun hst' => by cases hst'
  retrying := fun hst' => by cases hst'

theorem reset_ok (h : row.Ok) (hreset : row.resettable now = true) : (row.reset now).Ok := by
  have hst : row.status = .failed ∨ row.status = .sending := by
    rcases of_decide_eq_true hreset with ⟨hst, -⟩ | ⟨hst, -⟩
    · exact Or.inl hst
    · exact Or.inr hst
  have hfailed : (row.reset now).status = .failed := by
    rcases hst with hst | hst <;> simp [DeliveryRow.reset, hst]
  have hnone : row.deliveredAt = none :=
    h.undelivered (by rcases hst with hst | hst <;> rw [hst] <;> decide)
  refine ⟨?_, ?_, ?_, ?_, ?_⟩
  · rw [hfailed]
    simp [DeliveryRow.reset, hnone]
  · simp [DeliveryRow.reset]
  · simp [DeliveryRow.reset]
  · intro hst'
    rw [hfailed] at hst'
    cases hst'
  · exact fun _ hc => absurd rfl hc

end Rows

def DeliveriesOk (s : Store) : Prop := ∀ key row, s.delivery key = some row → row.Ok

theorem deliveriesOk_put {s : Store} {key : String} {row : DeliveryRow} (h : DeliveriesOk s)
    (hrow : row.Ok) : DeliveriesOk (s.putDelivery key row) := by
  intro k r hr
  rw [Store.delivery_put] at hr
  split at hr
  · cases hr
    exact hrow
  · exact h k r hr

theorem DeliveryMove.ok {s s' : Store} {op : DeliveryOp} {answer : DeliveryAnswer}
    (h : DeliveryMove s op answer s') (hok : DeliveriesOk s) : DeliveriesOk s' := by
  cases h with
  | refused => exact hok
  | record _ howner => exact deliveriesOk_put hok (pendingRow_ok howner)
  | failTurn => exact deliveriesOk_put hok failUndelivered_ok
  | discard =>
    intro k r hr
    rw [Store.delivery_drop] at hr
    split at hr
    · cases hr
    · exact hok k r hr
  | recoverStale hrow hst =>
    have hnone := (hok _ _ hrow).undelivered (by rw [hst]; decide)
    exact deliveriesOk_put hok (fail_ok hnone)
  | claim howner => exact deliveriesOk_put hok (sendingRow_ok howner)
  | claimRetry howner hrow _ _ hreply =>
    exact deliveriesOk_put hok (retry_ok (hok _ _ hrow) howner hreply)
  | promote hrow hclaim hst =>
    exact deliveriesOk_put hok (promote_ok (hok _ _ hrow) hst hclaim)
  | releaseRetry hrow _ hst =>
    have hnone := (hok _ _ hrow).undelivered (by rw [hst]; decide)
    exact deliveriesOk_put hok (fail_ok hnone)
  | sent => exact deliveriesOk_put hok deliver_ok
  | resolveDelivered => exact deliveriesOk_put hok deliver_ok
  | resolveFailed => exact deliveriesOk_put hok failUndelivered_ok
  | reset hrow hreset => exact deliveriesOk_put hok (reset_ok (hok _ _ hrow) hreset)
  | fail => exact deliveriesOk_put hok failUndelivered_ok

/-! ## Delivered rows, claims and contents across one operation -/

/-- The clock reading of an operation, if it takes one. -/
def DeliveryOp.clock : DeliveryOp → Option ℚ
  | .record now _ _ _ _ _ => some now
  | .failTurn now _ _ _ => some now
  | .discard _ _ => none
  | .recoverStale now _ => some now
  | .claim now _ _ _ _ _ _ => some now
  | .claimRetry now _ _ _ => some now
  | .promote now _ _ _ _ => some now
  | .releaseRetry now _ _ _ => some now
  | .sent now _ _ => some now
  | .resolve now _ _ => some now
  | .reset now _ => some now
  | .fail now _ _ _ => some now

/-- The owner an operation acts as; operators and the recovery of stale turns have
none. -/
def DeliveryOp.actor : DeliveryOp → Option String
  | .record _ _ _ owner _ _ => some (PyStr.strip owner)
  | .failTurn _ _ owner _ => some owner
  | .discard _ owner => some owner
  | .recoverStale _ _ => none
  | .claim _ _ _ owner _ _ _ => some (PyStr.strip owner)
  | .claimRetry _ _ owner _ => some (PyStr.strip owner)
  | .promote _ _ owner _ _ => some owner
  | .releaseRetry _ _ owner _ => some owner
  | .sent _ _ owner => some owner
  | .resolve _ _ _ => none
  | .reset _ _ => none
  | .fail _ _ owner _ => some owner

/-- The message an operation brings with it. -/
def DeliveryOp.message : DeliveryOp → Option Json
  | .claim _ _ _ _ _ message _ => message
  | _ => none

/-- The reply an operation brings with it. -/
def DeliveryOp.reply : DeliveryOp → Option String
  | .claim _ _ _ _ _ _ replyText => replyText
  | _ => none

/-- A stored value stays, or gives way to the one the caller brought. -/
def Kept {α : Type} (old brought new : Option α) : Prop :=
  ∀ v, old = some v → new = some v ∨ ∃ w, brought = some w ∧ new = some w

theorem Kept.same {α : Type} (old brought : Option α) : Kept old brought old :=
  fun _ hv => Or.inl hv

theorem Kept.empty {α : Type} {old brought new : Option α} (h : old = none) :
    Kept old brought new := by
  intro v hv
  rw [h] at hv
  cases hv

theorem Kept.orElse {α : Type} (old brought : Option α) :
    Kept old brought (brought.or old) := by
  intro v hv
  cases brought with
  | none => exact Or.inl hv
  | some w => exact Or.inr ⟨w, rfl, rfl⟩

theorem DeliveryRow.leaseOver_le {row : DeliveryRow} {now t : ℚ}
    (hover : row.leaseOver now = true) (ht : row.claimExpiresAt = some t) : t ≤ now := by
  unfold DeliveryRow.leaseOver at hover
  rw [ht] at hover
  exact of_decide_eq_true hover

theorem DeliveryRow.busyFor_le {row : DeliveryRow} {owner other : String} {now t : ℚ}
    (hok : row.Ok) (hbusy : row.busyFor owner now = false)
    (hother : row.claimedBy = some other) (ht : row.claimExpiresAt = some t) :
    other = owner ∨ t ≤ now := by
  have hne : other ≠ "" := by
    intro he
    exact hok.owner (he ▸ hother)
  unfold DeliveryRow.busyFor at hbusy
  rw [hother, ht] at hbusy
  have hno := of_decide_eq_false hbusy
  by_contra hcon
  have hcon := not_or.mp hcon
  exact hno ⟨hne, hcon.1, not_le.mp hcon.2⟩

section Move

variable {s s' : Store} {op : DeliveryOp} {answer : DeliveryAnswer} {key : String}
  {row : DeliveryRow}

/-- What an operation does to the row of one key. -/
inductive RowFate (s' : Store) (op : DeliveryOp) (key : String) (row : DeliveryRow) : Prop
  | same : s'.delivery key = some row → RowFate s' op key row
  | changed {row' : DeliveryRow} : row.status ≠ .delivered → s'.delivery key = some row' →
      (∀ o t, row.claimedBy = some o → row.claimExpiresAt = some t →
        op.actor = some o ∨ ∃ now, op.clock = some now ∧ t ≤ now) →
      Kept row.messageJson op.message row'.messageJson →
      Kept row.replyText op.reply row'.replyText → RowFate s' op key row
  | dropped {owner : String} : op = .discard key owner → row.claimedBy = some owner →
      row.status = .processing → row.replyText = none → s'.delivery key = none →
      RowFate s' op key row

theorem RowFate.put {key' : String} {new : DeliveryRow}
    (hkey : s.delivery key = some row)
    (hnd : ∀ r, s.delivery key' = some r → r.status ≠ .delivered)
    (hclaim : ∀ r, s.delivery key' = some r → ∀ o t, r.claimedBy = some o →
      r.claimExpiresAt = some t → op.actor = some o ∨ ∃ now, op.clock = some now ∧ t ≤ now)
    (hmessage : ∀ r, s.delivery key' = some r → Kept r.messageJson op.message new.messageJson)
    (hreply : ∀ r, s.delivery key' = some r → Kept r.replyText op.reply new.replyText) :
    RowFate (s.putDelivery key' new) op key row := by
  by_cases hk : key = key'
  · subst hk
    have hnew : (s.putDelivery key new).delivery key = some new := by
      rw [Store.delivery_put, if_pos rfl]
    exact .changed (hnd row hkey) hnew (hclaim row hkey) (hmessage row hkey) (hreply row hkey)
  · refine .same ?_
    rw [Store.delivery_put, if_neg hk]
    exact hkey

theorem RowFate.update {key' : String} {old new : DeliveryRow}
    (hkey : s.delivery key = some row) (hold : s.delivery key' = some old)
    (hnd : old.status ≠ .delivered)
    (hclaim : ∀ o t, old.claimedBy = some o → old.claimExpiresAt = some t →
      op.actor = some o ∨ ∃ now, op.clock = some now ∧ t ≤ now)
    (hmessage : new.messageJson = old.messageJson)
    (hreply : Kept old.replyText op.reply new.replyText) :
    RowFate (s.putDelivery key' new) op key row := by
  have heq : ∀ r, s.delivery key' = some r → r = old := by
    intro r hr
    rw [hold] at hr
    exact (Option.some.inj hr).symm
  apply RowFate.put hkey
  · intro r hr
    rw [heq r hr]
    exact hnd
  · intro r hr
    rw [heq r hr]
    exact hclaim
  · intro r hr
    rw [heq r hr, hmessage]
    exact Kept.same _ _
  · intro r hr
    rw [heq r hr]
    exact hreply

theorem holder_acts {owner : String} {row : DeliveryRow} (hclaim : row.claimedBy = some owner)
    (hactor : op.actor = some owner) : ∀ o t, row.claimedBy = some o →
      row.claimExpiresAt = some t → op.actor = some o ∨ ∃ now, op.clock = some now ∧ t ≤ now := by
  intro o t ho _
  left
  rw [hclaim] at ho
  rw [← ho]
  exact hactor

theorem DeliveryMove.fate (h : DeliveryMove s op answer s') (hok : DeliveriesOk s)
    (hkey : s.delivery key = some row) : RowFate s' op key row := by
  cases h with
  | refused => exact .same hkey
  | record hnone =>
    apply RowFate.put hkey <;> intro r hr <;> rw [hnone] at hr <;> cases hr
  | failTurn hrow hclaim hst =>
    exact .update hkey hrow (by rw [hst]; decide) (holder_acts hclaim rfl) rfl (Kept.same _ _)
  | @discard key' owner old hrow hclaim hst hreply =>
    by_cases hk : key = key'
    · subst hk
      rw [hkey] at hrow
      cases hrow
      exact .dropped rfl hclaim hst hreply (by rw [Store.delivery_drop, if_pos rfl])
    · refine .same ?_
      rw [Store.delivery_drop, if_neg hk]
      exact hkey
  | recoverStale hrow hst hover =>
    refine .update hkey hrow (by rw [hst]; decide) ?_ rfl (Kept.same _ _)
    intro o t _ ht
    exact Or.inr ⟨_, rfl, DeliveryRow.leaseOver_le hover ht⟩
  | @claim now lease key' owner subject message replyText attempts expiresAt howner hfree =>
    apply RowFate.put hkey
    · intro r hr
      exact (hfree r hr).1
    · intro r hr o t ho ht
      rcases DeliveryRow.busyFor_le (hok _ _ hr) (hfree r hr).2.1 ho ht with hme | hle
      · left
        rw [hme]
        rfl
      · exact Or.inr ⟨now, rfl, hle⟩
    · intro r hr
      simp only [sendingRow, hr]
      exact Kept.orElse _ _
    · intro r hr
      simp only [sendingRow, hr]
      exact Kept.orElse _ _
  | @claimRetry now lease key' owner old attempts expiresAt howner hrow hst hbusy hreply =>
    refine .update hkey hrow (by rw [hst]; decide) ?_ rfl (Kept.same _ _)
    intro o t ho ht
    rcases DeliveryRow.busyFor_le (hok _ _ hrow) hbusy ho ht with hme | hle
    · left
      rw [hme]
      rfl
    · exact Or.inr ⟨now, rfl, hle⟩
  | @promote now lease key' owner replyText old hrow hclaim hst =>
    -- a failed row under a claim has no reply to lose
    have hnone := (hok _ _ hrow).retrying hst (by rw [hclaim]; simp)
    exact .update hkey hrow (by rw [hst]; decide) (holder_acts hclaim rfl) rfl
      (Kept.empty hnone)
  | releaseRetry hrow hclaim hst =>
    exact .update hkey hrow (by rw [hst]; decide) (holder_acts hclaim rfl) rfl (Kept.same _ _)
  | sent hrow hclaim hst =>
    exact .update hkey hrow (by rw [hst]; decide) (holder_acts hclaim rfl) rfl (Kept.same _ _)
  | resolveDelivered hrow horphan =>
    obtain ⟨hst, hover⟩ := of_decide_eq_true horphan
    refine .update hkey hrow (by rw [hst]; decide) ?_ rfl (Kept.same _ _)
    intro o t _ ht
    rcases hover with hnone | hover
    · rw [hnone] at ht
      cases ht
    · exact Or.inr ⟨_, rfl, DeliveryRow.leaseOver_le hover ht⟩
  | resolveFailed hrow horphan =>
    obtain ⟨hst, hover⟩ := of_decide_eq_true horphan
    refine .update hkey hrow (by rw [hst]; decide) ?_ rfl (Kept.same _ _)
    intro o t _ ht
    rcases hover with hnone | hover
    · rw [hnone] at ht
      cases ht
    · exact Or.inr ⟨_, rfl, DeliveryRow.leaseOver_le hover ht⟩
  | reset hrow hreset =>
    rcases of_decide_eq_true hreset with ⟨hst, hover⟩ | ⟨hst, -, hover⟩
    · refine .update hkey hrow (by rw [hst]; decide) ?_ rfl (Kept.same _ _)
      intro o t ho ht
      rcases hover with hnone | hover
      · rw [hnone] at ho
        cases ho
      · exact Or.inr ⟨_, rfl, DeliveryRow.leaseOver_le hover ht⟩
    · refine .update hkey hrow (by rw [hst]; decide) ?_ rfl (Kept.same _ _)
      intro o t _ ht
      exact Or.inr ⟨_, rfl, DeliveryRow.leaseOver_le hover ht⟩
  | fail hrow hclaim hst =>
    exact .update hkey hrow (by rw [hst]; decide) (holder_acts hclaim rfl) rfl (Kept.same _ _)

theorem DeliveryMove.grant_free {owner other : String} {t : ℚ}
    (h : DeliveryMove s op answer s') (hok : DeliveriesOk s)
    (hgrant : op.grant answer = some (key, owner)) (hkey : s.delivery key = some row)
    (hother : row.claimedBy = some other) (hne : other ≠ owner)
    (ht : row.claimExpiresAt = some t) : ∃ now, op.clock = some now ∧ t ≤ now := by
  cases h with
  | refused hno =>
    rw [DeliveryOp.grant_accepted hgrant] at hno
    cases hno
  | record hnone =>
    cases hgrant
    rw [hnone] at hkey
    cases hkey
  | claim _ hfree =>
    cases hgrant
    rcases DeliveryRow.busyFor_le (hok _ _ hkey) (hfree row hkey).2.1 hother ht with hme | hle
    · exact absurd hme hne
    · exact ⟨_, rfl, hle⟩
  | claimRetry _ hrow _ hbusy =>
    cases hgrant
    rw [hkey] at hrow
    cases hrow
    rcases DeliveryRow.busyFor_le (hok _ _ hkey) hbusy hother ht with hme | hle
    · exact absurd hme hne
    · exact ⟨_, rfl, hle⟩
  | failTurn | discard | recoverStale | promote | releaseRetry | sent | resolveDelivered
  | resolveFailed | reset | fail => cases hgrant

end Move

/-! ## Any sequence of operations -/

def DeliveryStep (s : Store) (l : DeliveryOp × DeliveryAnswer) (s' : Store) : Prop :=
  applyDelivery s l.1 = (s', l.2)

section Sequence

variable {s s' : Store} {hist : List (DeliveryOp × DeliveryAnswer)}

theorem empty_deliveriesOk : DeliveriesOk Store.empty := by
  intro key row hrow
  simp [Store.delivery, Store.empty] at hrow

theorem deliveries_ok (hrun : Run DeliveryStep s hist s') (hok : DeliveriesOk s) :
    DeliveriesOk s' :=
  hrun.invariant hok (fun _ _ _ hI h => (applyDelivery_move h).ok hI)

theorem delivered_stays {key : String} {row : DeliveryRow} (hok : DeliveriesOk s)
    (hrun : Run DeliveryStep s hist s') (hkey : s.delivery key = some row)
    (hst : row.status = .delivered) : s'.delivery key = some row := by
  have both : DeliveriesOk s' ∧ s'.delivery key = some row := by
    refine hrun.invariant (I := fun t => DeliveriesOk t ∧ t.delivery key = some row)
      ⟨hok, hkey⟩ ?_
    rintro t l t' ⟨hokt, hrow⟩ hstep
    have hmove := applyDelivery_move hstep
    refine ⟨hmove.ok hokt, ?_⟩
    cases hmove.fate hokt hrow with
    | same hsame => exact hsame
    | changed hnd => exact absurd hst hnd
    | dropped _ _ hproc =>
      rw [hst] at hproc
      cases hproc
  exact both.2

/-- **Connector deliveries.** After any operations by any owners on any connector, with
any clock readings: `delivered` is absorbing and `delivered_at` is set exactly there;
`claimed_by` and `claim_expires_at` are null together; a claim is handed out only when
no other owner's lease on the row is alive, and a lease ends only by an operation of
its owner or on a clock past its end; and a message or a stored reply is kept, or
replaced by what a claim brings, except that a processing row without a reply can be
discarded by its owner. -/
theorem connector_deliveries (hrun : Run DeliveryStep Store.empty hist s) :
    (∀ key row, s.delivery key = some row →
      (row.status = .delivered ↔ row.deliveredAt ≠ none) ∧
      (row.claimedBy = none ↔ row.claimExpiresAt = none)) ∧
    (∀ key row later s', Run DeliveryStep s later s' → s.delivery key = some row →
      row.status = .delivered → s'.delivery key = some row) ∧
    (∀ op answer s' key owner row other t, DeliveryStep s (op, answer) s' →
      op.grant answer = some (key, owner) → s.delivery key = some row →
      row.claimedBy = some other → other ≠ owner → row.claimExpiresAt = some t →
      ∃ now, op.clock = some now ∧ t ≤ now) ∧
    (∀ op answer s' key row o t, DeliveryStep s (op, answer) s' →
      s.delivery key = some row → row.claimedBy = some o → row.claimExpiresAt = some t →
      s'.delivery key = some row ∨ op.actor = some o ∨ ∃ now, op.clock = some now ∧ t ≤ now) ∧
    (∀ op answer s' key row, DeliveryStep s (op, answer) s' → s.delivery key = some row →
      (∃ row', s'.delivery key = some row' ∧
        Kept row.messageJson op.message row'.messageJson ∧
        Kept row.replyText op.reply row'.replyText) ∨
      (∃ owner, op = .discard key owner) ∧ row.status = .processing ∧ row.replyText = none) := by
  have hok := deliveries_ok hrun empty_deliveriesOk
  refine ⟨?_, ?_, ?_, ?_, ?_⟩
  · intro key row hrow
    exact ⟨(hok key row hrow).delivered, (hok key row hrow).claim⟩
  · intro key row later s' hlater hrow hst
    exact delivered_stays hok hlater hrow hst
  · intro op answer s' key owner row other t hstep hgrant hrow hother hne ht
    exact (applyDelivery_move hstep).grant_free hok hgrant hrow hother hne ht
  · intro op answer s' key row o t hstep hrow ho ht
    cases (applyDelivery_move hstep).fate hok hrow with
    | same hsame => exact Or.inl hsame
    | changed _ _ hclaim => exact Or.inr (hclaim o t ho ht)
    | dropped hop hclaim =>
      have hactor : op.actor = row.claimedBy := by
        rw [hclaim]
        exact congrArg DeliveryOp.actor hop
      exact Or.inr (Or.inl (hactor.trans ho))
  · intro op answer s' key row hstep hrow
    cases (applyDelivery_move hstep).fate hok hrow with
    | same hsame => exact Or.inl ⟨row, hsame, Kept.same _ _, Kept.same _ _⟩
    | changed _ hrow' _ hm hr => exact Or.inl ⟨_, hrow', hm, hr⟩
    | dropped hop _ hst hreply => exact Or.inr ⟨⟨_, hop⟩, hst, hreply⟩

def runDeliveries (s : Store) : List DeliveryOp → Store
  | [] => s
  | op :: rest => runDeliveries (applyDelivery s op).1 rest

theorem runDeliveries_run (s : Store) (ops : List DeliveryOp) :
    ∃ hist, Run DeliveryStep s hist (runDeliveries s ops) := by
  induction ops generalizing s with
  | nil => exact ⟨[], Run.start⟩
  | cons op rest ih =>
    obtain ⟨hist, hrun⟩ := ih (applyDelivery s op).1
    have hstep : DeliveryStep s (op, (applyDelivery s op).2) (applyDelivery s op).1 :=
      Prod.mk.eta.symm
    exact ⟨hist ++ [(op, (applyDelivery s op).2)], (Run.next Run.start hstep).append hrun⟩

end Sequence

/-- A message that is answered and delivered by one worker. -/
def answeredOnce : List DeliveryOp :=
  [.record 0 "qq:1" ⟨"turn:1", "qq", "e1"⟩ "w1" 30 (.obj []),
    .claim 5 "qq:1" ⟨"turn:1", "qq", "e1"⟩ "w1" 60 none (some "hello"),
    .sent 6 "qq:1" "w1"]

theorem connector_deliveries_answered : ∃ hist row,
    Run DeliveryStep Store.empty hist (runDeliveries Store.empty answeredOnce) ∧
    (runDeliveries Store.empty answeredOnce).delivery "qq:1" = some row ∧
    row.status = .delivered ∧ row.deliveredAt ≠ none := by
  obtain ⟨hist, hrun⟩ := runDeliveries_run Store.empty answeredOnce
  have heval : ((runDeliveries Store.empty answeredOnce).delivery "qq:1").map (·.status) =
      some .delivered := by decide +kernel
  obtain ⟨row, hrow, hst⟩ := Option.map_eq_some_iff.mp heval
  exact ⟨hist, row, hrun, hrow, hst, ((connector_deliveries hrun).1 "qq:1" row hrow).1.mp hst⟩

end TurnStore
