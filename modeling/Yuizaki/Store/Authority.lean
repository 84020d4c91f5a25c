import Yuizaki.Lib.Run
import Yuizaki.Store.Turn

/- The turn store under concurrent executors.

   Executors with distinct owner ids claim, renew, release and commit in any
   order, with any clock readings. A claim row always belongs to the last
   executor whose claim succeeded, so a fenced commit that finds its claim alive
   is the last claimer's; the two inserts of `persist` keep `turn_commits` and
   `turn_outbox` in step; and no operation writes over a commit row, so whatever
   is read back after a commit is that one row. -/
namespace TurnStore

open Transition

/-! ## What each method can do -/

section Methods

variable {s s' : Store} {now leaseSeconds : ℚ} {key fp ownerId : String} {token : ℤ}

theorem claim_cases {outcome : ClaimOutcome}
    (h : claim s now key fp ownerId leaseSeconds = (s', outcome)) :
    (s' = s ∧ ∀ t l, outcome ≠ .claimed t l) ∨
    ∃ row : ClaimRow, s.turnCommits.lookup key = none ∧
      outcome = .claimed row.fencingToken row.leaseExpiresAt ∧ row.ownerId = ownerId ∧
      s' = { s with turnClaims := s.turnClaims.insert key row } := by
  unfold claim at h
  split at h
  · -- the key is committed
    left
    simp only [Prod.mk.injEq] at h
    obtain ⟨rfl, rfl⟩ := h
    refine ⟨rfl, ?_⟩
    intro t l
    split <;> simp
  · rename_i hnone
    simp only at h
    split at h
    · left
      simp only [Prod.mk.injEq] at h
      obtain ⟨rfl, rfl⟩ := h
      exact ⟨rfl, by simp⟩
    · split at h
      · right
        simp only [Prod.mk.injEq] at h
        obtain ⟨rfl, rfl⟩ := h
        exact ⟨_, hnone, rfl, rfl, rfl⟩
      · left
        simp only [Prod.mk.injEq] at h
        obtain ⟨rfl, rfl⟩ := h
        exact ⟨rfl, by simp⟩

theorem renewClaim_cases {renewed : Bool}
    (h : renewClaim s now key ownerId token leaseSeconds = (s', renewed)) :
    s' = s ∨ ∃ row row' : ClaimRow, s.turnClaims.lookup key = some row ∧
      row'.ownerId = row.ownerId ∧ row'.fencingToken = row.fencingToken ∧
      s' = { s with turnClaims := s.turnClaims.insert key row' } := by
  unfold renewClaim at h
  split at h
  · rename_i row hrow
    split at h
    · right
      simp only [Prod.mk.injEq] at h
      obtain ⟨rfl, rfl⟩ := h
      refine ⟨row, _, hrow, ?_, ?_, rfl⟩ <;> rfl
    · simp only [Prod.mk.injEq] at h
      exact Or.inl h.1.symm
  · simp only [Prod.mk.injEq] at h
    exact Or.inl h.1.symm

theorem deleteClaim_lookup {claims : AList (fun _ : String => ClaimRow)} {k : String}
    {row : ClaimRow} (h : (deleteClaim claims key ownerId token).1.lookup k = some row) :
    claims.lookup k = some row := by
  unfold deleteClaim at h
  split at h
  · split at h
    · by_cases hk : k = key
      · subst hk
        simp at h
      · rwa [AList.lookup_erase_ne hk] at h
    · exact h
  · exact h

theorem deleteClaim_held (h : claimHeld s key ownerId token now = true) :
    (deleteClaim s.turnClaims key ownerId token).1.lookup key = none := by
  unfold claimHeld at h
  unfold deleteClaim
  split at h
  · rename_i row hrow
    simp only [decide_eq_true_eq] at h
    simp [h.1, h.2.1]
  · simp at h

theorem persist_ok {epoch : String} {c : TurnCommit} (h : persist s epoch now c = .ok s') :
    (∀ row, s.turnCommits.lookup c.idempotencyKey.text = some row →
      row.semanticFingerprint = c.semanticFingerprint) ∧
    (commitOwner c ≠ "" →
      claimHeld s c.idempotencyKey.text (commitOwner c) (commitToken c) now = true) ∧
    s' = { s with
      turnCommits := insertCommit s.turnCommits c.idempotencyKey.text (commitRow epoch now c)
      turnOutbox := s.turnOutbox.insertOrIgnore c.idempotencyKey.text (outboxRow epoch now c)
      turnClaims := if commitOwner c ≠ "" then
          (deleteClaim s.turnClaims c.idempotencyKey.text (commitOwner c) (commitToken c)).1
        else s.turnClaims } := by
  unfold persist at h
  simp only at h
  split at h
  · simp at h
  · rename_i hfp
    split at h
    · simp at h
    · rename_i hheld
      simp only [Except.ok.injEq] at h
      refine ⟨?_, ?_, h.symm⟩
      · intro row hrow
        by_contra hne
        rw [hrow] at hfp
        simp [hne] at hfp
      · intro howner
        by_contra hne
        exact hheld ⟨howner, by simpa using hne⟩

theorem insertCommit_lookup (commits : AList (fun _ : String => CommitRow)) (row : CommitRow)
    (k : String) :
    (insertCommit commits key row).lookup k =
      if k = key then some ((commits.lookup key).getD row) else commits.lookup k := by
  unfold insertCommit
  split
  · rename_i old hold
    by_cases hk : k = key
    · subst hk
      simp [hold]
    · simp [hk]
  · rename_i hnone
    by_cases hk : k = key
    · subst hk
      simp [hnone]
    · simp [hk, AList.lookup_insert_ne hk]

end Methods

/-! ## Executors -/

/-- What an executor did and what the store answered. -/
inductive TurnEvent (ι : Type) where
  | claim (e : ι) (now : ℚ) (idempotencyKey semanticFingerprint : String) (leaseSeconds : ℚ)
      (outcome : ClaimOutcome)
  | renew (e : ι) (now : ℚ) (idempotencyKey : String) (fencingToken : ℤ) (leaseSeconds : ℚ)
      (renewed : Bool)
  | release (e : ι) (idempotencyKey : String) (fencingToken : ℤ) (released : Bool)
  | persist (e : ι) (processEpoch : String) (now : ℚ) (c : TurnCommit)
      (raised : Option PersistError)

/-- The commit under an executor's fence. -/
def TurnCommit.fencedBy (c : TurnCommit) (owner : Ident) : TurnCommit :=
  { c with claimOwner := some owner.text }

theorem commitOwner_fencedBy (c : TurnCommit) (owner : Ident) :
    commitOwner (c.fencedBy owner) = owner.text := by
  simp [commitOwner, TurnCommit.fencedBy, owner.trimmed]

section Executors

variable {ι : Type} (owner : ι → Ident)

def TurnStep (s : Store) : TurnEvent ι → Store → Prop
  | .claim e now key fp leaseSeconds outcome, s' =>
    claim s now key fp (owner e).text leaseSeconds = (s', outcome)
  | .renew e now key token leaseSeconds renewed, s' =>
    renewClaim s now key (owner e).text token leaseSeconds = (s', renewed)
  | .release e key token released, s' =>
    releaseClaim s key (owner e).text token = (s', released)
  | .persist e epoch now c none, s' =>
    persist s epoch now (c.fencedBy (owner e)) = .ok s'
  | .persist e epoch now c (some err), s' =>
    persist s epoch now (c.fencedBy (owner e)) = .error err ∧ s' = s

/-- The executor and the token of the last claim that succeeded on a key. -/
def lastClaim (key : String) : List (TurnEvent ι) → Option (ι × ℤ)
  | .claim e _ k _ _ (.claimed token _) :: rest =>
    if k = key then some (e, token) else lastClaim key rest
  | _ :: rest => lastClaim key rest
  | [] => none

/-- `turn_commits` and `turn_outbox` hold the same keys with the same payloads. -/
def TablesAgree (s : Store) : Prop :=
  ∀ key payload,
    (∃ row, s.turnCommits.lookup key = some row ∧ row.resultJson = payload) ↔
      ∃ x ∈ s.turnOutbox.entries, x.key = key ∧ x.row.payloadJson = payload

/-- What holds of the store after any history of calls. -/
structure TurnInv (hist : List (TurnEvent ι)) (s : Store) : Prop where
  claimIsLast : ∀ key row, s.turnClaims.lookup key = some row →
    ∃ e, lastClaim key hist = some (e, row.fencingToken) ∧ row.ownerId = (owner e).text
  committedUnclaimed : ∀ key row, s.turnCommits.lookup key = some row →
    s.turnClaims.lookup key = none
  tablesAgree : TablesAgree s

theorem empty_inv : TurnInv owner [] Store.empty where
  claimIsLast := by simp [Store.empty]
  committedUnclaimed := by simp [Store.empty]
  tablesAgree := by simp [TablesAgree, Store.empty, Journal.empty]

variable {owner} {hist : List (TurnEvent ι)} {s s' : Store}

theorem claim_inv {e : ι} {now leaseSeconds : ℚ} {key fp : String} {outcome : ClaimOutcome}
    (hinv : TurnInv owner hist s)
    (h : claim s now key fp (owner e).text leaseSeconds = (s', outcome)) :
    TurnInv owner (.claim e now key fp leaseSeconds outcome :: hist) s' := by
  rcases claim_cases h with ⟨rfl, hout⟩ | ⟨row, hfree, rfl, howner, rfl⟩
  · -- refused: the last successful claim is the one before
    have hlast : ∀ k, lastClaim k (.claim e now key fp leaseSeconds outcome :: hist) =
        lastClaim k hist := by
      intro k
      cases outcome with
      | claimed t l => exact absurd rfl (hout t l)
      | committed | conflict | busy => rfl
    refine ⟨?_, hinv.committedUnclaimed, hinv.tablesAgree⟩
    intro k row hrow
    rw [hlast]
    exact hinv.claimIsLast k row hrow
  · refine ⟨?_, ?_, hinv.tablesAgree⟩
    · intro k r hr
      simp only [lastClaim]
      by_cases hk : k = key
      · subst hk
        rw [AList.lookup_insert] at hr
        cases hr
        exact ⟨e, by simp, howner⟩
      · rw [AList.lookup_insert_ne hk] at hr
        rw [if_neg (Ne.symm hk)]
        exact hinv.claimIsLast k r hr
    · intro k r hr
      by_cases hk : k = key
      · subst hk
        simp [hfree] at hr
      · rw [AList.lookup_insert_ne hk]
        exact hinv.committedUnclaimed k r hr

theorem renew_inv {e : ι} {now leaseSeconds : ℚ} {key : String} {token : ℤ} {renewed : Bool}
    (hinv : TurnInv owner hist s)
    (h : renewClaim s now key (owner e).text token leaseSeconds = (s', renewed)) :
    TurnInv owner (.renew e now key token leaseSeconds renewed :: hist) s' := by
  rcases renewClaim_cases h with rfl | ⟨row, row', hrow, hown, htok, rfl⟩
  · exact ⟨hinv.claimIsLast, hinv.committedUnclaimed, hinv.tablesAgree⟩
  · refine ⟨?_, ?_, hinv.tablesAgree⟩
    · intro k r hr
      by_cases hk : k = key
      · subst hk
        rw [AList.lookup_insert] at hr
        cases hr
        rw [hown, htok]
        exact hinv.claimIsLast k row hrow
      · rw [AList.lookup_insert_ne hk] at hr
        exact hinv.claimIsLast k r hr
    · intro k r hr
      have hnone := hinv.committedUnclaimed k r hr
      by_cases hk : k = key
      · subst hk
        rw [hrow] at hnone
        cases hnone
      · rw [AList.lookup_insert_ne hk]
        exact hnone

theorem release_inv {e : ι} {key : String} {token : ℤ} {released : Bool}
    (hinv : TurnInv owner hist s)
    (h : releaseClaim s key (owner e).text token = (s', released)) :
    TurnInv owner (.release e key token released :: hist) s' := by
  simp only [releaseClaim, Prod.mk.injEq] at h
  obtain ⟨rfl, -⟩ := h
  refine ⟨?_, ?_, hinv.tablesAgree⟩
  · intro k r hr
    exact hinv.claimIsLast k r (deleteClaim_lookup hr)
  · intro k r hr
    cases hd : (deleteClaim s.turnClaims key (owner e).text token).1.lookup k with
    | none => rfl
    | some row =>
      have := hinv.committedUnclaimed k r hr
      rw [deleteClaim_lookup hd] at this
      cases this

theorem inserts_agree {key epoch : String} {now : ℚ} {c : TurnCommit}
    {claims : AList (fun _ : String => ClaimRow)} (h : TablesAgree s) :
    TablesAgree { s with
      turnCommits := insertCommit s.turnCommits key (commitRow epoch now c)
      turnOutbox := s.turnOutbox.insertOrIgnore key (outboxRow epoch now c)
      turnClaims := claims } := by
  intro k payload
  simp only [insertCommit_lookup, Journal.mem_insertOrIgnore]
  -- the key is new in one table exactly when it is new in the other
  have hfresh : s.turnCommits.lookup key = none ↔ ∀ x ∈ s.turnOutbox.entries, x.key ≠ key := by
    constructor
    · intro hnone x hx hkey
      obtain ⟨row, hrow, -⟩ := (h key x.row.payloadJson).mpr ⟨x, hx, hkey, rfl⟩
      rw [hnone] at hrow
      cases hrow
    · intro hall
      cases hrow : s.turnCommits.lookup key with
      | none => rfl
      | some row =>
        obtain ⟨x, hx, hkey, -⟩ := (h key row.resultJson).mp ⟨row, hrow, rfl⟩
        exact absurd hkey (hall x hx)
  constructor
  · rintro ⟨row, hrow, hpay⟩
    by_cases hk : k = key
    · subst hk
      simp only [if_true, Option.some.injEq] at hrow
      cases hold : s.turnCommits.lookup k with
      | none =>
        rw [hold] at hrow
        simp only [Option.getD_none] at hrow
        refine ⟨_, Or.inr ⟨hfresh.mp hold, rfl⟩, rfl, ?_⟩
        rw [← hpay, ← hrow]
        rfl
      | some old =>
        rw [hold] at hrow
        simp only [Option.getD_some] at hrow
        subst hrow
        obtain ⟨x, hx, hkey, hp⟩ := (h k payload).mp ⟨old, hold, hpay⟩
        exact ⟨x, Or.inl hx, hkey, hp⟩
    · rw [if_neg hk] at hrow
      obtain ⟨x, hx, hkey, hp⟩ := (h k payload).mp ⟨row, hrow, hpay⟩
      exact ⟨x, Or.inl hx, hkey, hp⟩
  · rintro ⟨x, hx | ⟨hnew, rfl⟩, hkey, hp⟩
    · obtain ⟨row, hrow, hpay⟩ := (h k payload).mpr ⟨x, hx, hkey, hp⟩
      refine ⟨row, ?_, hpay⟩
      by_cases hk : k = key
      · subst hk
        simp [hrow]
      · simp [hk, hrow]
    · simp only at hkey
      subst hkey
      refine ⟨commitRow epoch now c, ?_, hp⟩
      simp [hfresh.mpr hnew]

theorem persist_inv {e : ι} {epoch : String} {now : ℚ} {c : TurnCommit}
    (hinv : TurnInv owner hist s) (h : persist s epoch now (c.fencedBy (owner e)) = .ok s') :
    TurnInv owner (.persist e epoch now c none :: hist) s' := by
  obtain ⟨-, hheld, rfl⟩ := persist_ok h
  have howner : commitOwner (c.fencedBy (owner e)) ≠ "" := by
    rw [commitOwner_fencedBy]
    exact (owner e).nonempty
  simp only [if_pos howner]
  refine ⟨?_, ?_, inserts_agree hinv.tablesAgree⟩
  · intro k r hr
    exact hinv.claimIsLast k r (deleteClaim_lookup hr)
  · intro k r hr
    by_cases hk : k = c.idempotencyKey.text
    · subst hk
      exact deleteClaim_held (hheld howner)
    · simp only [insertCommit_lookup, TurnCommit.fencedBy, if_neg hk] at hr
      cases hd : (deleteClaim s.turnClaims (c.fencedBy (owner e)).idempotencyKey.text
          (commitOwner (c.fencedBy (owner e))) (commitToken (c.fencedBy (owner e)))).1.lookup k with
      | none => rfl
      | some row =>
        have := hinv.committedUnclaimed k r hr
        rw [deleteClaim_lookup hd] at this
        cases this

theorem step_inv {ev : TurnEvent ι} (hinv : TurnInv owner hist s)
    (h : TurnStep owner s ev s') : TurnInv owner (ev :: hist) s' := by
  cases ev with
  | claim e now key fp leaseSeconds outcome => exact claim_inv hinv h
  | renew e now key token leaseSeconds renewed => exact renew_inv hinv h
  | release e key token released => exact release_inv hinv h
  | persist e epoch now c raised =>
    cases raised with
    | none => exact persist_inv hinv h
    | some err =>
      obtain ⟨-, rfl⟩ := h
      exact ⟨hinv.claimIsLast, hinv.committedUnclaimed, hinv.tablesAgree⟩

theorem run_inv (hrun : Run (TurnStep owner) Store.empty hist s) : TurnInv owner hist s :=
  hrun.history (empty_inv owner) (fun _ _ _ _ hinv h => step_inv hinv h)

/-! ## Commits over a run -/

theorem step_commits {ev : TurnEvent ι} (h : TurnStep owner s ev s') {key : String}
    {row : CommitRow} (hrow : s.turnCommits.lookup key = some row) :
    s'.turnCommits.lookup key = some row := by
  cases ev with
  | claim e now k fp leaseSeconds outcome =>
    rcases claim_cases h with ⟨rfl, -⟩ | ⟨r, -, -, -, rfl⟩ <;> exact hrow
  | renew e now k token leaseSeconds renewed =>
    rcases renewClaim_cases h with rfl | ⟨r, r', -, -, -, rfl⟩ <;> exact hrow
  | release e k token released =>
    simp only [TurnStep, releaseClaim, Prod.mk.injEq] at h
    obtain ⟨rfl, -⟩ := h
    exact hrow
  | persist e epoch now c raised =>
    cases raised with
    | some err =>
      obtain ⟨-, rfl⟩ := h
      exact hrow
    | none =>
      obtain ⟨-, -, rfl⟩ := persist_ok h
      simp only [insertCommit_lookup]
      split
      · rename_i hk
        rw [← hk, hrow]
        rfl
      · exact hrow

theorem run_commits {later : List (TurnEvent ι)} (hrun : Run (TurnStep owner) s later s')
    {key : String} {row : CommitRow} (hrow : s.turnCommits.lookup key = some row) :
    s'.turnCommits.lookup key = some row :=
  hrun.invariant (I := fun t => t.turnCommits.lookup key = some row) hrow
    (fun _ _ _ hI h => step_commits h hI)

theorem persist_stored {e : ι} {epoch : String} {now : ℚ} {c : TurnCommit}
    (h : TurnStep owner s (.persist e epoch now c none) s') :
    ∃ row, s'.turnCommits.lookup c.idempotencyKey.text = some row ∧
      row.semanticFingerprint = c.semanticFingerprint := by
  obtain ⟨hfp, -, rfl⟩ := persist_ok h
  cases hold : s.turnCommits.lookup c.idempotencyKey.text with
  | none =>
    refine ⟨commitRow epoch now (c.fencedBy (owner e)), ?_, rfl⟩
    simp [insertCommit_lookup, TurnCommit.fencedBy, hold]
  | some row =>
    refine ⟨row, ?_, hfp row hold⟩
    simp [insertCommit_lookup, TurnCommit.fencedBy, hold]

theorem load_ident (s : Store) (epoch : String) (key : Ident) :
    load s epoch key.text =
      (s.turnCommits.lookup key.text).map (CommitRow.loaded epoch key.text) := by
  unfold load
  rw [key.trimmed]
  simp [key.nonempty]

theorem persist_fence (hinj : Function.Injective owner) (hinv : TurnInv owner hist s)
    {e : ι} {epoch : String} {now : ℚ} {c : TurnCommit}
    (h : TurnStep owner s (.persist e epoch now c none) s') :
    lastClaim c.idempotencyKey.text hist = some (e, commitToken c) ∧
      ∃ row, s.turnClaims.lookup c.idempotencyKey.text = some row ∧
        row.ownerId = (owner e).text ∧ row.fencingToken = commitToken c ∧
        now < row.leaseExpiresAt := by
  obtain ⟨-, hheld, -⟩ := persist_ok h
  rw [commitOwner_fencedBy] at hheld
  have hheld := hheld (owner e).nonempty
  unfold claimHeld at hheld
  split at hheld
  · rename_i row hrow
    simp only [decide_eq_true_eq] at hheld
    obtain ⟨hown, htok, hlive⟩ := hheld
    obtain ⟨e', hlast, hown'⟩ := hinv.claimIsLast _ _ hrow
    -- distinct owner ids: the row's owner names one executor
    have he : e' = e := hinj (Ident.ext_text (hown'.symm.trans hown))
    refine ⟨?_, row, hrow, hown, htok, hlive⟩
    have htok' : row.fencingToken = commitToken c := htok
    rw [← htok', ← he]
    exact hlast
  · simp at hheld

/-- **The store is the authority for a turn.** Over every run of executors with
distinct owner ids: a commit row is never written over; the first write of a key
carries the owner and token of the last successful claim, its lease unexpired; every
commit that returns reads back the one stored row, however late; and the commit
table and the outbox agree. -/
theorem turn_authority (hinj : Function.Injective owner)
    (hrun : Run (TurnStep owner) Store.empty hist s) :
    (∀ key row later s', Run (TurnStep owner) s later s' →
      s.turnCommits.lookup key = some row → s'.turnCommits.lookup key = some row) ∧
    (∀ e epoch now c s', TurnStep owner s (.persist e epoch now c none) s' →
      s.turnCommits.lookup c.idempotencyKey.text = none →
      lastClaim c.idempotencyKey.text hist = some (e, commitToken c) ∧
      ∃ row, s.turnClaims.lookup c.idempotencyKey.text = some row ∧
        row.ownerId = (owner e).text ∧ row.fencingToken = commitToken c ∧
        now < row.leaseExpiresAt) ∧
    (∀ e epoch now c s', TurnStep owner s (.persist e epoch now c none) s' →
      ∃ row, s'.turnCommits.lookup c.idempotencyKey.text = some row ∧
        ∀ epoch' later s'', Run (TurnStep owner) s' later s'' →
          persistedResult c (load s'' epoch' c.idempotencyKey.text) =
            (replayResult (loadResult epoch' row.resultJson))) ∧
    TablesAgree s := by
  have hinv := run_inv hrun
  refine ⟨?_, ?_, ?_, hinv.tablesAgree⟩
  · intro key row later s' hlater hrow
    exact run_commits hlater hrow
  · intro e epoch now c s' h _
    exact persist_fence hinj hinv h
  · intro e epoch now c s' h
    obtain ⟨row, hrow, hfp⟩ := persist_stored h
    refine ⟨row, hrow, ?_⟩
    intro epoch' later s'' hlater
    rw [load_ident, run_commits hlater hrow]
    simp only [Option.map_some, persistedResult, loadPersisted, CommitRow.loaded, hfp,
      ne_eq, not_true_eq_false, if_false]
    cases replayResult (loadResult epoch' row.resultJson) <;> rfl

end Executors

/-! A takeover: `claim:a` lets its lease run out, `claim:b` takes the key with the
next token and commits. -/

/-- Two owner ids as the service mints them. -/
def takeoverOwner (b : Bool) : Ident :=
  if b then ⟨"claim:b", by decide, by decide⟩ else ⟨"claim:a", by decide, by decide⟩

theorem takeoverOwner_injective : Function.Injective takeoverOwner := by
  intro a b h
  have ht := congrArg Ident.text h
  cases a <;> cases b <;> simp [takeoverOwner] at ht ⊢

/-- The commit of the second executor, under token 2. -/
def takeoverCommit : TurnCommit := { sampleTurn sampleKey with claimFencingToken := some 2 }

def takeoverStore : Store :=
  (claim (claim Store.empty 0 "turn:1" "fp" "claim:a" 30).1 100 "turn:1" "fp" "claim:b" 30).1

theorem takeover_run : ∃ hist, Run (TurnStep takeoverOwner) Store.empty hist takeoverStore :=
  ⟨[.claim true 100 "turn:1" "fp" 30 _, .claim false 0 "turn:1" "fp" 30 _],
    Run.next (Run.next Run.start (Prod.mk.eta).symm) (Prod.mk.eta).symm⟩

theorem turn_authority_takeover : ∃ hist s',
    TurnStep takeoverOwner takeoverStore (.persist true "p" 110 takeoverCommit none) s' ∧
    lastClaim "turn:1" hist = some (true, 2) ∧ TablesAgree takeoverStore := by
  obtain ⟨hist, hrun⟩ := takeover_run
  have hok : (persist takeoverStore "p" 110
      (takeoverCommit.fencedBy (takeoverOwner true))).isOk = true := by decide +kernel
  cases hp : persist takeoverStore "p" 110
      (takeoverCommit.fencedBy (takeoverOwner true)) with
  | error e =>
    rw [hp] at hok
    cases hok
  | ok s' =>
    obtain ⟨-, hfence, -, hagree⟩ := turn_authority takeoverOwner_injective hrun
    refine ⟨hist, s', hp, ?_, hagree⟩
    exact (hfence true "p" 110 takeoverCommit s' hp (by decide +kernel)).1

end TurnStore
