import Yuizaki.Store.Authority

/- The fencing tokens of a key (`TurnCommitStore.claim`, `release_claim`).

   The count of tokens is a column of the claim row. A takeover goes on counting from the row that it
   writes over, but a release deletes the row, and the next claim of the key starts at 1 again. A
   commit deletes the row too, and no claim of its key is granted after it. So the tokens of a key
   go up as long as no claim comes to a key that a release has set free. -/
namespace TurnStore

open Transition

/-! ## Calls -/

inductive ClaimCall where
  | claim (now : ℚ) (idempotencyKey semanticFingerprint ownerId : String) (leaseSeconds : ℚ)
  | renew (now : ℚ) (idempotencyKey ownerId : String) (fencingToken : ℤ) (leaseSeconds : ℚ)
  | release (idempotencyKey ownerId : String) (fencingToken : ℤ)
  | persist (processEpoch : String) (now : ℚ) (c : TurnCommit)

/-- The store after a call; a commit that raises leaves it alone. -/
def ClaimCall.store (s : Store) : ClaimCall → Store
  | .claim now key fingerprint ownerId leaseSeconds => (TurnStore.claim s now key fingerprint ownerId leaseSeconds).1
  | .renew now key ownerId token leaseSeconds => (renewClaim s now key ownerId token leaseSeconds).1
  | .release key ownerId token => (releaseClaim s key ownerId token).1
  | .persist epoch now c => (TurnStore.persist s epoch now c).toOption.getD s

/-- Whether a claim makes its caller the owner: the key is free, or another's, or its lease has ended. -/
def changesOwner (current : Option ClaimRow) (ownerId : String) (now : ℚ) : Bool :=
  match current with
  | none => true
  | some row => row.ownerId ≠ ownerId ∨ row.leaseExpiresAt ≤ now

/-- A change of ownership: its key, and the token that was handed out. -/
structure Handover where
  key : String
  token : ℤ
deriving DecidableEq

/-- The change of ownership that a call makes. -/
def ClaimCall.handover (s : Store) : ClaimCall → Option Handover
  | .claim now key fingerprint ownerId leaseSeconds =>
    match (TurnStore.claim s now key fingerprint ownerId leaseSeconds).2 with
    | .claimed token _ => if changesOwner (s.turnClaims.lookup key) ownerId now = true then some ⟨key, token⟩ else none
    | _ => none
  | _ => none

/-- The store, and the changes of ownership, newest first. -/
structure Claims where
  store : Store
  handovers : List Handover

namespace Claims

def call (s : Claims) (c : ClaimCall) : Claims := ⟨c.store s.store, (c.handover s.store).toList ++ s.handovers⟩

def Step (s : Claims) (c : ClaimCall) (s' : Claims) : Prop := s.call c = s'

def start : Claims := ⟨Store.empty, []⟩

/-- A token of a later owner of a key is greater than that of an earlier one. -/
def TokensIncrease (s : Claims) : Prop :=
  s.handovers.Pairwise fun newer older => newer.key = older.key → older.token < newer.token

/-- No claim comes to a key that is not committed, that nobody holds, and that was handed out before. -/
def StaysHeld (s : Claims) : ClaimCall → Prop
  | .claim _ key _ _ _ =>
    s.store.turnCommits.lookup key = none → s.store.turnClaims.lookup key = none → ∀ h ∈ s.handovers, h.key ≠ key
  | _ => True

end Claims

/-! ## What a call does -/

section Calls

variable {s : Store} {now leaseSeconds : ℚ} {key fingerprint ownerId : String}

theorem claim_free (hcommit : s.turnCommits.lookup key = none) (hclaim : s.turnClaims.lookup key = none) :
    (claim s now key fingerprint ownerId leaseSeconds).2 = .claimed 1 (now + leaseFloor leaseSeconds) := by
  unfold claim
  rw [hcommit]
  dsimp only
  rw [hclaim]
  rfl

theorem nextFencingToken_kept {row : ClaimRow} (h : changesOwner (some row) ownerId now = false) :
    nextFencingToken (some row) ownerId now = row.fencingToken := by
  unfold nextFencingToken
  dsimp only
  rw [if_neg (of_decide_eq_false h), add_zero]

theorem nextFencingToken_changed {current : Option ClaimRow} (h : changesOwner current ownerId now = true) :
    nextFencingToken current ownerId now = current.elim 1 (·.fencingToken + 1) := by
  cases current with
  | none => rfl
  | some row =>
    unfold nextFencingToken
    dsimp only
    rw [if_pos (of_decide_eq_true h), Option.elim_some]

theorem claim_spec (s : Store) (now : ℚ) (key fingerprint ownerId : String) (leaseSeconds : ℚ) :
    ((claim s now key fingerprint ownerId leaseSeconds).1 = s ∧
      ∀ token ends, (claim s now key fingerprint ownerId leaseSeconds).2 ≠ .claimed token ends) ∨
    ∃ row : ClaimRow, row.fencingToken = nextFencingToken (s.turnClaims.lookup key) ownerId now ∧
      claim s now key fingerprint ownerId leaseSeconds =
        ({ s with turnClaims := s.turnClaims.insert key row }, .claimed row.fencingToken row.leaseExpiresAt) := by
  unfold claim
  split
  · refine Or.inl ⟨rfl, fun token ends h => ?_⟩
    dsimp only at h
    split at h
    · cases h
    · cases h
  · dsimp only
    split
    · exact Or.inl ⟨rfl, fun _ _ h => by cases h⟩
    · split
      · exact Or.inr ⟨_, rfl, rfl⟩
      · exact Or.inl ⟨rfl, fun _ _ h => by cases h⟩

/-- No token of a row is another one after a call. -/
def SameTokens (s s' : Store) : Prop :=
  ∀ key row, s'.turnClaims.lookup key = some row → ∃ old, s.turnClaims.lookup key = some old ∧ old.fencingToken = row.fencingToken

theorem SameTokens.refl (s : Store) : SameTokens s s := fun _ row h => ⟨row, h, rfl⟩

theorem sameTokens_insert {row row' : ClaimRow} (hrow : s.turnClaims.lookup key = some row)
    (htoken : row.fencingToken = row'.fencingToken) :
    SameTokens s { s with turnClaims := s.turnClaims.insert key row' } := by
  intro other r hr
  by_cases hother : other = key
  · subst hother
    rw [AList.lookup_insert] at hr
    obtain rfl := Option.some.inj hr
    exact ⟨row, hrow, htoken⟩
  · rw [AList.lookup_insert_ne hother] at hr
    exact ⟨r, hr, rfl⟩

theorem call_cases (s : Store) (c : ClaimCall) :
    (c.handover s = none ∧ SameTokens s (c.store s)) ∨
    ∃ key row, c.handover s = some ⟨key, row.fencingToken⟩ ∧
      (c.store s).turnClaims = s.turnClaims.insert key row ∧
      row.fencingToken = (s.turnClaims.lookup key).elim 1 (·.fencingToken + 1) ∧
      ∃ now fingerprint ownerId leaseSeconds, c = .claim now key fingerprint ownerId leaseSeconds ∧
        s.turnCommits.lookup key = none := by
  cases c with
  | claim now key fingerprint ownerId leaseSeconds =>
    obtain ⟨hsame, hrefused⟩ | ⟨row, htoken, hclaim⟩ := claim_spec s now key fingerprint ownerId leaseSeconds
    · refine Or.inl ⟨?_, ?_⟩
      · unfold ClaimCall.handover
        dsimp only
        split
        · rename_i houtcome
          exact absurd houtcome (hrefused _ _)
        · rfl
      · show SameTokens s (claim s now key fingerprint ownerId leaseSeconds).1
        rw [hsame]
        exact SameTokens.refl s
    · have hstore : (ClaimCall.claim now key fingerprint ownerId leaseSeconds).store s =
          { s with turnClaims := s.turnClaims.insert key row } := congrArg Prod.fst hclaim
      have hhandover : (ClaimCall.claim now key fingerprint ownerId leaseSeconds).handover s =
          if changesOwner (s.turnClaims.lookup key) ownerId now = true then some ⟨key, row.fencingToken⟩ else none := by
        unfold ClaimCall.handover
        dsimp only
        rw [hclaim]
      rw [hstore, hhandover]
      cases hchanges : changesOwner (s.turnClaims.lookup key) ownerId now with
      | true =>
        rw [nextFencingToken_changed hchanges] at htoken
        have hcommit : s.turnCommits.lookup key = none := by
          obtain ⟨-, hrefused⟩ | ⟨_, hcommit, -⟩ := claim_cases hclaim
          · exact absurd rfl (hrefused _ _)
          · exact hcommit
        exact Or.inr ⟨key, row, if_pos rfl, rfl, htoken, now, fingerprint, ownerId, leaseSeconds, rfl, hcommit⟩
      | false =>
        refine Or.inl ⟨if_neg Bool.false_ne_true, ?_⟩
        cases hlookup : s.turnClaims.lookup key with
        | none =>
          rw [hlookup] at hchanges
          cases hchanges
        | some old =>
          rw [hlookup] at hchanges htoken
          rw [nextFencingToken_kept hchanges] at htoken
          exact sameTokens_insert hlookup htoken.symm
  | renew now key ownerId token leaseSeconds =>
    refine Or.inl ⟨rfl, ?_⟩
    show SameTokens s (renewClaim s now key ownerId token leaseSeconds).1
    obtain hsame | ⟨row, row', hrow, -, htoken, hstore⟩ := renewClaim_cases (Prod.mk.eta (p := renewClaim s now key ownerId token leaseSeconds)).symm
    · rw [hsame]
      exact SameTokens.refl s
    · rw [hstore]
      exact sameTokens_insert hrow htoken.symm
  | release key ownerId token =>
    exact Or.inl ⟨rfl, fun other row hrow => ⟨row, deleteClaim_lookup hrow, rfl⟩⟩
  | persist epoch now c =>
    refine Or.inl ⟨rfl, ?_⟩
    show SameTokens s ((persist s epoch now c).toOption.getD s)
    cases hpersist : persist s epoch now c with
    | error e => exact SameTokens.refl s
    | ok s' =>
      obtain ⟨-, -, rfl⟩ := persist_ok hpersist
      intro other row hrow
      refine ⟨row, ?_, rfl⟩
      dsimp only [Except.toOption, Option.getD] at hrow
      split at hrow
      · exact deleteClaim_lookup hrow
      · exact hrow

end Calls

/-! ## Runs -/

namespace Claims

variable {s s' : Claims} {c : ClaimCall}

structure Positive (s : Claims) : Prop where
  handed : ∀ h ∈ s.handovers, 0 < h.token
  held : ∀ key row, s.store.turnClaims.lookup key = some row → 0 < row.fencingToken

/-- Tokens go up, and a claim row has the last one of its key. -/
structure Counting (s : Claims) : Prop where
  increase : s.TokensIncrease
  last : ∀ key row, s.store.turnClaims.lookup key = some row → ∀ h ∈ s.handovers, h.key = key → h.token ≤ row.fencingToken

theorem Positive.step (h : Positive s) (hstep : s.Step c s') : Positive s' := by
  subst hstep
  unfold call
  obtain ⟨hnone, hsame⟩ | ⟨key, row, hsome, hclaims, htoken, -⟩ := call_cases s.store c
  · rw [hnone]
    refine ⟨h.handed, fun key row hrow => ?_⟩
    obtain ⟨old, hold, heq⟩ := hsame key row hrow
    rw [← heq]
    exact h.held key old hold
  · rw [hsome]
    have hpositive : 0 < row.fencingToken := by
      rw [htoken]
      cases hlookup : s.store.turnClaims.lookup key with
      | none => exact Int.one_pos
      | some old =>
        have hold := h.held key old hlookup
        rw [Option.elim_some]
        omega
    refine ⟨List.forall_mem_cons.mpr ⟨hpositive, h.handed⟩, fun other r hr => ?_⟩
    rw [hclaims] at hr
    by_cases hother : other = key
    · subst hother
      rw [AList.lookup_insert] at hr
      obtain rfl := Option.some.inj hr
      exact hpositive
    · rw [AList.lookup_insert_ne hother] at hr
      exact h.held other r hr

theorem Counting.step (h : Counting s) (hstep : s.Step c s') (hheld : s.StaysHeld c) : Counting s' := by
  subst hstep
  unfold call
  obtain ⟨hnone, hsame⟩ | ⟨key, row, hsome, hclaims, htoken, now, fingerprint, ownerId, leaseSeconds, rfl, hcommit⟩ :=
    call_cases s.store c
  · rw [hnone]
    refine ⟨h.increase, fun key row hrow handover hmem hkey => ?_⟩
    obtain ⟨old, hold, heq⟩ := hsame key row hrow
    rw [← heq]
    exact h.last key old hold handover hmem hkey
  · rw [hsome]
    have hnew : ∀ handover ∈ s.handovers, handover.key = key → handover.token < row.fencingToken := by
      intro handover hmem hkey
      rw [htoken]
      cases hlookup : s.store.turnClaims.lookup key with
      | none => exact absurd hkey (hheld hcommit hlookup handover hmem)
      | some old =>
        have hold := h.last key old hlookup handover hmem hkey
        rw [Option.elim_some]
        omega
    refine ⟨List.pairwise_cons.mpr ⟨fun older hmem hkey => hnew older hmem hkey.symm, h.increase⟩, ?_⟩
    intro other r hr handover hmem hkey
    rw [hclaims] at hr
    by_cases hother : other = key
    · subst hother
      rw [AList.lookup_insert] at hr
      obtain rfl := Option.some.inj hr
      obtain rfl | hmem := List.mem_cons.mp hmem
      · exact le_refl _
      · exact le_of_lt (hnew handover hmem hkey)
    · rw [AList.lookup_insert_ne hother] at hr
      obtain rfl | hmem := List.mem_cons.mp hmem
      · exact absurd hkey.symm hother
      · exact h.last other r hr handover hmem hkey

theorem staysHeld_of_increase (h : Positive s) (hstep : s.Step c s') (hincrease : s'.TokensIncrease) : s.StaysHeld c := by
  subst hstep
  cases c with
  | claim now key fingerprint ownerId leaseSeconds =>
    intro hcommit hclaim handover hmem hkey
    have hgranted : (ClaimCall.claim now key fingerprint ownerId leaseSeconds).handover s.store = some ⟨key, 1⟩ := by
      unfold ClaimCall.handover
      dsimp only
      rw [claim_free hcommit hclaim, hclaim]
      rfl
    unfold call TokensIncrease at hincrease
    rw [hgranted] at hincrease
    have hless := (List.pairwise_cons.mp hincrease).1 handover hmem hkey.symm
    have hpositive := h.handed handover hmem
    dsimp only at hless
    omega
  | renew | release | persist => exact trivial

end Claims

/-- Along a run the tokens of every key go up exactly where no claim comes to a key that a release has
set free after it was handed out. -/
theorem tokens_increase (hist : List ClaimCall) :
    Run.Always Claims.Step Claims.start Claims.TokensIncrease hist ↔
      Run.Meets Claims.Step Claims.start Claims.StaysHeld hist := by
  refine Run.always_iff_meets_kept (I := Claims.Positive) (Q := Claims.Counting) ?_ ?_ ?_ ?_ ?_ ?_
  · exact ⟨fun _ h => absurd h List.not_mem_nil, fun key row h => by cases h⟩
  · exact fun _ _ _ h hstep => h.step hstep
  · exact ⟨List.Pairwise.nil, fun key row h => by cases h⟩
  · exact fun _ _ _ _ h hstep hheld => h.step hstep hheld
  · exact fun _ _ h => h.increase
  · exact fun _ _ _ h _ hstep hincrease => Claims.staysHeld_of_increase h hstep hincrease

/-- A key is claimed, taken over, released and claimed again. -/
def reclaim : List ClaimCall :=
  [.claim 0 "turn:1" "fp" "claim:a" 30, .claim 100 "turn:1" "fp" "claim:b" 30, .release "turn:1" "claim:b" 2,
    .claim 101 "turn:1" "fp" "claim:c" 30]

/-- The third owner of the key has a smaller token than the second. -/
theorem token_starts_again : ∃ hist s, Run Claims.Step Claims.start hist s ∧ ¬ s.TokensIncrease := by
  refine ⟨_, _, Run.of_foldl Claims.call Claims.start reclaim, ?_⟩
  have hhandovers : (reclaim.foldl Claims.call Claims.start).handovers =
      [⟨"turn:1", 1⟩, ⟨"turn:1", 2⟩, ⟨"turn:1", 1⟩] := by decide +kernel
  unfold Claims.TokensIncrease
  rw [hhandovers]
  decide

end TurnStore
