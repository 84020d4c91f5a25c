import Yuizaki.Connector.Route

/- Locked rows, and what calls and workers can do to them.

   A worker may POST a reply once after each grant of its row (`sendGrant`: a claim for
   sending, or the promotion of a regenerated turn). A row that is being sent to QQ, or
   is delivered, is locked: no call grants it. Only two accepted calls unlock it, the
   holder's record of a rejection and an operator's resolution as failed (`locked_call`).
   `workerStep_spec` says the same of a worker: it calls about its own row only, and it
   is armed by a grant only. -/
namespace Connector

open Transition TurnStore

/-! ## Grants and unlocks of one call -/

/-- The key a call lets its caller POST for. -/
def sendGrant : DeliveryOp × DeliveryAnswer → Option String
  | (.claim _ key _ _ _ _ _, .claim (.claimed _ _)) => some (PyStr.strip key)
  | (.promote _ key _ _ _, .changed true) => some key
  | _ => none

/-- The key a call frees for another send: a recorded rejection, or a resolution as
failed. -/
def unlock : DeliveryOp × DeliveryAnswer → Option String
  | (.fail _ key _ _, .changed true) => some key
  | (.resolve _ key outcome, .changed true) =>
    if PyStr.lowerAscii (PyStr.strip outcome) = "failed" then some (PyStr.strip key) else none
  | _ => none

/-- A row on its way to QQ, or one that arrived. -/
def DeliveryRow.locked (row : DeliveryRow) : Prop :=
  (row.status = .sending ∧ row.connectorId = "qq") ∨ row.status = .delivered

def Locked (s : Store) (key : String) : Prop :=
  ∃ row, s.delivery key = some row ∧ DeliveryRow.locked row

theorem sendGrant_accepted {op : DeliveryOp} {answer : DeliveryAnswer} {key : String}
    (h : sendGrant (op, answer) = some key) : answer.accepted = true := by
  unfold sendGrant at h
  split at h
  · rename_i heq
    cases heq
    rfl
  · rename_i heq
    cases heq
    rfl
  · cases h

section Calls

variable {s s' : Store} {op : DeliveryOp} {answer : DeliveryAnswer} {key key' : String}
  {row old new : DeliveryRow}

theorem not_locked_of_status (h : row.status = .processing ∨ row.status = .failed) :
    ¬ DeliveryRow.locked row := by
  rintro (⟨hst, -⟩ | hst) <;> rcases h with h | h <;> rw [h] at hst <;> cases hst

/-- What becomes of a locked row: it stays, or is delivered with the same reply. -/
def StaysLocked (s' : Store) (key : String) (row : DeliveryRow) : Prop :=
  ∃ row', s'.delivery key = some row' ∧ row'.connectorId = row.connectorId ∧
    row'.replyText = row.replyText ∧ (row' = row ∨ row'.status = .delivered)

theorem staysLocked_same (hkey : s'.delivery key = some row) : StaysLocked s' key row :=
  ⟨row, hkey, rfl, rfl, Or.inl rfl⟩

theorem staysLocked_other (hkey : s.delivery key = some row) (hne : key ≠ key') :
    StaysLocked (s.putDelivery key' new) key row := by
  apply staysLocked_same
  rw [Store.delivery_put, if_neg hne]
  exact hkey

theorem staysLocked_deliver {now : ℚ} {err : Option String} (hkey : s.delivery key = some row)
    (hold : s.delivery key' = some old) :
    StaysLocked (s.putDelivery key' (old.deliver now err)) key row := by
  by_cases hk : key = key'
  · subst hk
    rw [hkey] at hold
    cases hold
    refine ⟨row.deliver now err, ?_, rfl, rfl, Or.inr rfl⟩
    rw [Store.delivery_put, if_pos rfl]
  · exact staysLocked_other hkey hk

theorem key_ne_of_unlocked (hkey : s.delivery key = some row) (hlock : DeliveryRow.locked row)
    (hold : s.delivery key' = some old) (hnot : ¬ DeliveryRow.locked old) : key ≠ key' := by
  intro heq
  rw [← heq, hkey] at hold
  cases hold
  exact hnot hlock

theorem locked_call (h : DeliveryMove s op answer s') (hkey : s.delivery key = some row)
    (hlock : DeliveryRow.locked row) (hno : unlock (op, answer) ≠ some key) :
    sendGrant (op, answer) ≠ some key ∧ StaysLocked s' key row := by
  cases h with
  | refused hrefused =>
    refine ⟨?_, staysLocked_same hkey⟩
    intro hgrant
    rw [sendGrant_accepted hgrant] at hrefused
    cases hrefused
  | @record now lease k owner subject message hnone =>
    refine ⟨by simp [sendGrant], staysLocked_other hkey ?_⟩
    intro heq
    rw [heq, hnone] at hkey
    cases hkey
  | failTurn hrow _ hst =>
    have hne := key_ne_of_unlocked hkey hlock hrow (not_locked_of_status (Or.inl hst))
    exact ⟨by simp [sendGrant], staysLocked_other hkey hne⟩
  | discard hrow _ hst =>
    have hne := key_ne_of_unlocked hkey hlock hrow (not_locked_of_status (Or.inl hst))
    refine ⟨by simp [sendGrant], staysLocked_same ?_⟩
    rw [Store.delivery_drop, if_neg hne]
    exact hkey
  | recoverStale hrow hst =>
    have hne := key_ne_of_unlocked hkey hlock hrow (not_locked_of_status (Or.inl hst))
    exact ⟨by simp [sendGrant], staysLocked_other hkey hne⟩
  | @claim now lease k owner subject message replyText attempts expiresAt howner hfree =>
    have hne : key ≠ PyStr.strip k := by
      intro heq
      obtain ⟨hnd, -, hnqq⟩ := hfree row (heq ▸ hkey)
      rcases hlock with hqq | hdel
      · exact hnqq hqq
      · exact hnd hdel
    refine ⟨?_, staysLocked_other hkey hne⟩
    intro hgrant
    exact hne (Option.some.inj hgrant).symm
  | claimRetry _ hrow hst =>
    have hne := key_ne_of_unlocked hkey hlock hrow (not_locked_of_status (Or.inr hst))
    exact ⟨by simp [sendGrant], staysLocked_other hkey hne⟩
  | promote hrow _ hst =>
    have hne := key_ne_of_unlocked hkey hlock hrow (not_locked_of_status (Or.inr hst))
    refine ⟨?_, staysLocked_other hkey hne⟩
    intro hgrant
    exact hne (Option.some.inj hgrant).symm
  | releaseRetry hrow _ hst =>
    have hne := key_ne_of_unlocked hkey hlock hrow (not_locked_of_status (Or.inr hst))
    exact ⟨by simp [sendGrant], staysLocked_other hkey hne⟩
  | sent hrow => exact ⟨by simp [sendGrant], staysLocked_deliver hkey hrow⟩
  | resolveDelivered hrow => exact ⟨by simp [sendGrant], staysLocked_deliver hkey hrow⟩
  | resolveFailed hrow _ hout =>
    refine ⟨by simp [sendGrant], staysLocked_other hkey ?_⟩
    intro heq
    simp [unlock, hout, heq] at hno
  | reset hrow hreset =>
    refine ⟨by simp [sendGrant], staysLocked_other hkey ?_⟩
    apply key_ne_of_unlocked hkey hlock hrow
    rcases of_decide_eq_true hreset with ⟨hst, -⟩ | ⟨hst, hnqq, -⟩
    · exact not_locked_of_status (Or.inr hst)
    · rintro (⟨-, hqq⟩ | hdel)
      · exact hnqq hqq
      · rw [hst] at hdel
        cases hdel
  | fail hrow =>
    refine ⟨by simp [sendGrant], staysLocked_other hkey ?_⟩
    intro heq
    simp [unlock, heq] at hno

def target : DeliveryOp → String
  | .record _ key _ _ _ _ => PyStr.strip key
  | .failTurn _ key _ _ => key
  | .discard key _ => key
  | .recoverStale _ key => key
  | .claim _ key _ _ _ _ _ => PyStr.strip key
  | .claimRetry _ key _ _ => PyStr.strip key
  | .promote _ key _ _ _ => key
  | .releaseRetry _ key _ _ => key
  | .sent _ key _ => key
  | .resolve _ key _ => PyStr.strip key
  | .reset _ key => PyStr.strip key
  | .fail _ key _ _ => key

/-- The connector an operation writes into its row. -/
def writesConnector : DeliveryOp → Option String
  | .record _ _ subject _ _ _ => some subject.connectorId
  | .claim _ _ subject _ _ _ _ => some subject.connectorId
  | _ => none

def RowsQQ (s : Store) (key : String) : Prop :=
  ∀ row, s.delivery key = some row → row.connectorId = "qq"

theorem rowsQQ_put (h : RowsQQ s key) (hnew : key = key' → new.connectorId = "qq") :
    RowsQQ (s.putDelivery key' new) key := by
  intro row hrow
  rw [Store.delivery_put] at hrow
  split at hrow
  · rename_i hk
    cases hrow
    exact hnew hk
  · exact h row hrow

theorem rowsQQ_call (h : DeliveryMove s op answer s') (hqq : RowsQQ s key)
    (hop : target op = key → ∀ c, writesConnector op = some c → c = "qq") : RowsQQ s' key := by
  have hold : ∀ {k : String} {r : DeliveryRow}, s.delivery k = some r → key = k →
      r.connectorId = "qq" := by
    intro k r hr hk
    exact hqq r (hk ▸ hr)
  cases h with
  | refused => exact hqq
  | record => exact rowsQQ_put hqq (fun hk => hop hk.symm _ rfl)
  | claim => exact rowsQQ_put hqq (fun hk => hop hk.symm _ rfl)
  | discard =>
    intro r hr
    rw [Store.delivery_drop] at hr
    split at hr
    · cases hr
    · exact hqq r hr
  | failTurn hrow | recoverStale hrow | promote hrow | releaseRetry hrow | sent hrow
  | resolveDelivered hrow | resolveFailed hrow | reset hrow | fail hrow =>
    have hconnector := hold hrow
    exact rowsQQ_put hqq hconnector
  | claimRetry _ hrow =>
    have hconnector := hold hrow
    exact rowsQQ_put hqq hconnector

theorem grant_locks (h : DeliveryMove s op answer s') (hqq : RowsQQ s' key)
    (hgrant : sendGrant (op, answer) = some key) : Locked s' key := by
  have hlocked : ∀ {k : String} {r : DeliveryRow} {t : Store}, t = s.putDelivery k r → key = k →
      RowsQQ t key → r.status = .sending → Locked t key := by
    rintro k r t rfl rfl hrows hst
    have hrow : (s.putDelivery key r).delivery key = some r := by
      rw [Store.delivery_put, if_pos rfl]
    exact ⟨r, hrow, Or.inl ⟨hst, hrows r hrow⟩⟩
  cases h with
  | refused hrefused =>
    rw [sendGrant_accepted hgrant] at hrefused
    cases hrefused
  | claim => exact hlocked rfl (Option.some.inj hgrant).symm hqq rfl
  | promote => exact hlocked rfl (Option.some.inj hgrant).symm hqq rfl
  | record | failTurn | discard | recoverStale | claimRetry | releaseRetry | sent
  | resolveDelivered | resolveFailed | reset | fail => cases hgrant

theorem grant_unlocked (h : DeliveryMove s op answer s')
    (hgrant : sendGrant (op, answer) = some key) : ¬ Locked s key := by
  rintro ⟨row, hkey, hlock⟩
  have hno : unlock (op, answer) ≠ some key := by
    unfold sendGrant at hgrant
    split at hgrant
    · rename_i heq
      cases heq
      simp [unlock]
    · rename_i heq
      cases heq
      simp [unlock]
    · cases hgrant
  exact (locked_call h hkey hlock hno).1 hgrant

theorem StaysLocked.locked (h : StaysLocked s' key row) (hlock : DeliveryRow.locked row) :
    Locked s' key := by
  obtain ⟨row', hrow', -, -, hsame | hdel⟩ := h
  · exact ⟨row', hrow', hsame ▸ hlock⟩
  · exact ⟨row', hrow', Or.inr hdel⟩

theorem StaysLocked.trans (h : StaysLocked s key row)
    (hnext : ∀ row', s.delivery key = some row' → StaysLocked s' key row') :
    StaysLocked s' key row := by
  obtain ⟨row', hrow', hc, hr, hsame⟩ := h
  obtain ⟨row'', hrow'', hc', hr', hsame'⟩ := hnext row' hrow'
  refine ⟨row'', hrow'', hc'.trans hc, hr'.trans hr, ?_⟩
  rcases hsame' with rfl | hdel
  · exact hsame
  · exact Or.inr hdel

end Calls

/-! ## What a worker can do -/

def WorkerPhase.armed : WorkerPhase → Prop
  | .sending _ => True
  | _ => False

/-- The reasons that record an answer of the provider, or a reply that was never sent. -/
def explicitReasons : List String := ["provider_rejected", "empty_reply"]

/-- A phase that is not armed, and in which a worker of QQ holds no other rejection than
an explicit one. -/
def WorkerPhase.quiet (w : Worker) : WorkerPhase → Prop
  | .sending _ => False
  | .rejected reason => w.connectorId = "qq" → reason ∈ explicitReasons
  | _ => True

/-- What a move of a worker is bound to: it calls about its own row, under its own
connector; it unlocks only by recording a rejection; it is armed only by a grant; and it
POSTs only when armed. -/
structure MoveSpec (w : Worker) (phase : WorkerPhase) (action : WorkerAction) (m : Move) :
    Prop where
  own : ∀ op, m.1 = some op → target op = w.deliveryKey.text ∧
    ∀ c, writesConnector op = some c → c = w.connectorId
  unlocks : ∀ op answer k, m.1 = some op → unlock (op, answer) = some k →
    ∃ now reason, phase = .rejected reason ∧
      op = .fail now w.deliveryKey.text w.owner.text reason
  next : ∀ answer, (m.2 answer).quiet w ∨ ((m.2 answer).armed ∧
    ∃ op, m.1 = some op ∧ sendGrant (op, answer) = some w.deliveryKey.text)
  post : action = .post → phase.armed ∧ m.1 = none

section Worker

variable {w : Worker} {phase : WorkerPhase} {action : WorkerAction}

theorem WorkerPhase.quiet_not_armed (h : phase.quiet w) : ¬ phase.armed := by
  intro ha
  cases phase with
  | sending reply => exact h
  | _ => exact ha

theorem moveSpec_goto {phase' : WorkerPhase} (h : phase'.quiet w)
    (hpost : action = .post → phase.armed) : MoveSpec w phase action (goto phase') where
  own := fun op hop => by cases hop
  unlocks := fun op answer k hop => by cases hop
  next := fun _ => Or.inl h
  post := fun hact => ⟨hpost hact, rfl⟩

theorem moveSpec_call {op : DeliveryOp} {next : DeliveryAnswer → WorkerPhase}
    (ht : target op = w.deliveryKey.text)
    (hc : ∀ c, writesConnector op = some c → c = w.connectorId)
    (hno : ∀ answer, unlock (op, answer) = none)
    (hnext : ∀ answer, (next answer).quiet w ∨ ((next answer).armed ∧
      sendGrant (op, answer) = some w.deliveryKey.text))
    (hpost : action ≠ .post) : MoveSpec w phase action (some op, next) where
  own := by
    intro op' hop
    cases hop
    exact ⟨ht, hc⟩
  unlocks := by
    intro op' answer k hop hunlock
    cases hop
    rw [hno answer] at hunlock
    cases hunlock
  next := by
    intro answer
    rcases hnext answer with hq | ⟨ha, hg⟩
    · exact Or.inl hq
    · exact Or.inr ⟨ha, op, rfl, hg⟩
  post := fun hact => absurd hact hpost

theorem moveSpec_finish {op : DeliveryOp} (ht : target op = w.deliveryKey.text)
    (hc : writesConnector op = none) (hno : ∀ answer, unlock (op, answer) = none)
    (hpost : action ≠ .post) : MoveSpec w phase action (finish op) := by
  refine moveSpec_call ht ?_ hno (fun _ => Or.inl trivial) hpost
  intro c h
  rw [hc] at h
  cases h

theorem turnMove_spec {now : ℚ} {pendingCreated : Bool} {row : Option DeliveryRow}
    {outcome : TurnOutcome} (hpost : action ≠ .post) :
    MoveSpec w phase action (turnMove w now pendingCreated row outcome) := by
  have hno : action = .post → phase.armed := fun h => absurd h hpost
  cases outcome with
  | completed replayed reply =>
    simp only [turnMove]
    split
    · exact moveSpec_goto trivial hno
    · exact moveSpec_goto trivial hno
  | raised => exact moveSpec_finish rfl rfl (fun _ => rfl) hpost
  | cancelled | unknownEffect | interrupted =>
    simp only [turnMove]
    split
    · exact moveSpec_finish rfl rfl (fun _ => rfl) hpost
    · exact moveSpec_goto trivial hno

theorem retryTurnMove_spec {now : ℚ} {outcome : TurnOutcome} (hpost : action ≠ .post) :
    MoveSpec w phase action (retryTurnMove w now outcome) := by
  cases outcome with
  | completed replayed reply =>
    simp only [retryTurnMove]
    split
    · exact moveSpec_finish rfl rfl (fun _ => rfl) hpost
    · exact moveSpec_goto trivial (fun h => absurd h hpost)
  | raised | cancelled | unknownEffect | interrupted => exact moveSpec_finish rfl rfl (fun _ => rfl) hpost

theorem retryMove_spec {now : ℚ} {recovered : Bool} {row : DeliveryRow}
    (hpost : action ≠ .post) : MoveSpec w phase action (retryMove w now recovered row) := by
  have hno : action = .post → phase.armed := fun h => absurd h hpost
  unfold retryMove
  split
  · exact moveSpec_goto trivial hno
  split
  · split
    · exact moveSpec_goto trivial hno
    · exact moveSpec_call rfl (fun c h => by cases h) (fun _ => rfl) (fun _ => Or.inl trivial) hpost
  split
  · exact moveSpec_goto trivial hno
  split
  · exact moveSpec_goto trivial hno
  split
  · exact moveSpec_goto trivial hno
  split
  · exact moveSpec_goto trivial hno
  · exact moveSpec_goto trivial hno

theorem safeDeliveryFailureReason_mem (value : Json) :
    safeDeliveryFailureReason value ∈ explicitReasons := by
  unfold safeDeliveryFailureReason
  -- whatever the candidate is, it is used only where it is one of the two
  have hbound : ∀ candidate : String, (if candidate ∈ ["provider_rejected", "empty_reply"] then
      candidate else "provider_rejected") ∈ explicitReasons := by
    intro candidate
    split
    · assumption
    · simp [explicitReasons]
  exact hbound _

theorem classify_failed {outcome : SendOutcome} {reason : String}
    (h : classify outcome = .failed reason) : reason ∈ explicitReasons := by
  cases outcome with
  | raised => cases h
  | delivery d =>
    simp only [classify] at h
    split at h
    · cases h
    split at h
    · cases h
    · cases h
      exact safeDeliveryFailureReason_mem _

theorem verdictMove_spec {outcome : SendOutcome} (hpost : action ≠ .post) :
    MoveSpec w phase action (verdictMove w (classify outcome)) := by
  have hno : action = .post → phase.armed := fun h => absurd h hpost
  cases hverdict : classify outcome with
  | raised =>
    simp only [verdictMove]
    split
    · exact moveSpec_goto trivial hno
    · rename_i hqq
      exact moveSpec_goto (fun h => absurd h hqq) hno
  | unknown => exact moveSpec_goto trivial hno
  | failed reason => exact moveSpec_goto (fun _ => classify_failed hverdict) hno
  | succeeded => exact moveSpec_goto trivial hno

theorem claimMove_spec {now : ℚ} {reply : String} (hpost : action ≠ .post) :
    MoveSpec w phase action
      (some (.claim now w.deliveryKey.text w.subject w.owner.text 30 (some w.message)
        (some reply)), onClaimed (.sending reply)) := by
  refine moveSpec_call w.deliveryKey.trimmed ?_ (fun _ => rfl) ?_ hpost
  · intro c hc
    exact (Option.some.inj hc).symm
  · intro answer
    unfold onClaimed
    split
    · exact Or.inr ⟨trivial, congrArg some w.deliveryKey.trimmed⟩
    · exact Or.inl trivial

theorem recordMove_spec {now : ℚ} (hpost : action ≠ .post) :
    MoveSpec w phase action
      (some (.record now w.deliveryKey.text w.subject w.owner.text 30 w.message),
        fun answer => .turning (answer = .changed true)) := by
  refine moveSpec_call w.deliveryKey.trimmed ?_ (fun _ => rfl) (fun _ => Or.inl trivial) hpost
  intro c hc
  exact (Option.some.inj hc).symm

theorem failMove_spec {now : ℚ} {reason : String} (hpost : action ≠ .post) :
    MoveSpec w (.rejected reason) action
      (finish (.fail now w.deliveryKey.text w.owner.text reason)) where
  own := by
    intro op hop
    cases hop
    exact ⟨rfl, fun c hc => by cases hc⟩
  unlocks := by
    intro op answer k hop _
    cases hop
    exact ⟨now, reason, rfl, rfl⟩
  next := fun _ => Or.inl trivial
  post := fun hact => absurd hact hpost

theorem workerStep_spec {row : Option DeliveryRow} {m : Move}
    (h : workerStep w row phase action = some m) : MoveSpec w phase action m := by
  unfold workerStep at h
  simp only at h
  split at h
  · cases h
    exact recordMove_spec (by simp)
  · cases h
    exact recordMove_spec (by simp)
  · cases h
    exact turnMove_spec (by simp)
  · cases h
    exact claimMove_spec (by simp)
  · split at h
    · cases h
      exact retryMove_spec (by simp)
    · cases h
      exact moveSpec_goto trivial (by simp)
  · -- a claim to run the turn again does not arm
    cases h
    refine moveSpec_call w.deliveryKey.trimmed (fun c hc => by cases hc) (fun _ => rfl) ?_
      (by simp)
    intro answer
    unfold onClaimed
    split <;> exact Or.inl trivial
  · cases h
    exact claimMove_spec (by simp)
  · cases h
    exact retryTurnMove_spec (by simp)
  · -- a promotion arms exactly when it is accepted
    cases h
    refine moveSpec_call rfl (fun c hc => by cases hc) (fun _ => rfl) ?_ (by simp)
    intro answer
    by_cases hans : answer = .changed true
    · subst hans
      exact Or.inr ⟨trivial, rfl⟩
    · rw [if_neg hans]
      exact Or.inl trivial
  · cases h
    exact moveSpec_finish rfl rfl (fun _ => rfl) (by simp)
  · split at h
    · cases h
    · cases h
      exact moveSpec_goto trivial (fun _ => trivial)
  · split at h
    · cases h
      exact moveSpec_goto (fun _ => by simp [explicitReasons]) (by simp)
    · cases h
  · cases h
    exact verdictMove_spec (by simp)
  · -- a cancelled POST is a rejection on another connector only
    split at h
    · rename_i hretry
      cases h
      exact moveSpec_goto (fun hqq => absurd hqq hretry.2) (by simp)
    · cases h
      exact moveSpec_goto trivial (by simp)
  · cases h
    exact failMove_spec (by simp)
  · cases h
    exact moveSpec_finish rfl rfl (fun _ => rfl) (by simp)
  · cases h
    exact moveSpec_goto trivial (by simp)
  · cases h

/-- A worker of either function before it has looked at its row, and after its end. -/
def WorkerPhase.idle : WorkerPhase → Prop
  | .reading _ => True
  | .done => True
  | _ => False

theorem idle_step {row : Option DeliveryRow} {m : Move} (hidle : phase.idle)
    (hrow : ∀ r, row = some r → r.connectorId ≠ w.connectorId)
    (h : workerStep w row phase action = some m) :
    (∀ op, m.1 ≠ some op) ∧ ∀ answer, (m.2 answer).idle := by
  have hdone : (∀ op, (goto .done).1 ≠ some op) ∧ ∀ answer, ((goto .done).2 answer).idle :=
    ⟨fun op hop => (by cases hop), fun _ => trivial⟩
  cases phase with
  | reading recovered =>
    cases action with
    | crash =>
      cases h
      exact hdone
    | call now =>
      simp only [workerStep] at h
      cases row with
      | none =>
        cases h
        exact hdone
      | some r =>
        cases h
        rw [retryMove, if_pos (hrow r rfl)]
        exact hdone
    | turn | post | emptyReply | returned | cancelled => cases h
  | done =>
    cases action with
    | crash =>
      cases h
      exact hdone
    | call | turn | post | emptyReply | returned | cancelled => cases h
  | received | turning | claiming | reclaiming | regenerating | promoting | releasing | sending
  | posting | rejected | accepted => exact hidle.elim

end Worker

end Connector
