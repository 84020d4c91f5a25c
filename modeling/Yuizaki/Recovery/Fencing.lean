import Yuizaki.Recovery.Store

/- Fencing of the recovery store.

   Workers call the methods in any order while the clock moves on. A claim grants a
   lease, which its worker holds until it expires; finishing under it or removing the
   marker ends it earlier. A run records the leases that were granted and how they ended,
   and `Fenced` ties the columns of a row to the leases of its marker: a claimed row
   carries the last lease granted, and every other lease still held has expired. -/
namespace Recovery

open Plan Transition

/-! ## Runs of the store -/

/-- What a claim grants, and until when. -/
structure Lease where
  owner : String
  token : String
  ends : ℚ
deriving DecidableEq

structure StoreState where
  store : RecoveryStore
  now : ℚ
deriving DecidableEq

def StoreState.initial : StoreState := ⟨Dict.empty, 0⟩

inductive StoreCall where
  | put (recoveryId : String) (step : Step) (args : PutArgs)
  | claimRecovery (recoveryId owner : String) (scope : RecoveryScope) (token : String)
  | claimDue (owner token : String)
  | finish (recoveryId : String) (success : Bool) (owner token : String) (result error : Option Json)
  | delete (recoveryId : String)
  | reapExpired

inductive StoreEvent where
  | quiet
  | granted (recoveryId : String) (lease : Lease)
  | finished (recoveryId owner token : String)
  | removed (recoveryIds : List String)
deriving DecidableEq

def called (codec : RecoveryCodec) (s : RecoveryStore) (now : ℚ) : StoreCall → RecoveryStore
  | .put recoveryId step args => (put codec s now recoveryId step args).toOption.getD s
  | .claimRecovery recoveryId owner scope token =>
    (claimRecovery codec s now recoveryId owner scope token).1
  | .claimDue owner token => (claimDue codec s now owner token).1
  | .finish recoveryId success owner token result error =>
    (finish codec s now recoveryId success owner token result error).1
  | .delete recoveryId => (delete s recoveryId).1
  | .reapExpired => reapExpired s now

/-- What the call did: a lease that was written counts, whether or not the row could be
read back. -/
def observed (codec : RecoveryCodec) (s : RecoveryStore) (now : ℚ) : StoreCall → StoreEvent
  | .put _ _ _ => .quiet
  | .claimRecovery recoveryId owner scope token =>
    match takeMarker s now recoveryId owner scope token with
    | .ok (some _) => .granted recoveryId ⟨owner, token, now + leaseSeconds⟩
    | _ => .quiet
  | .claimDue owner token =>
    match (claimDue codec s now owner token).2 with
    | .ok (some (recoveryId, _, token)) =>
      .granted recoveryId ⟨owner, token, now + leaseSeconds⟩
    | _ => .quiet
  | .finish recoveryId success owner token result error =>
    match (finish codec s now recoveryId success owner token result error).2 with
    | .ok true => .finished recoveryId owner token
    | _ => .quiet
  | .delete recoveryId => .removed [recoveryId]
  | .reapExpired => .removed ((s.filter (fun _ row => !row.alive now)).keys)

inductive StoreStep (codec : RecoveryCodec) : StoreState → StoreEvent → StoreState → Prop
  | call {s : StoreState} (c : StoreCall) :
      StoreStep codec s (observed codec s.store s.now c) ⟨called codec s.store s.now c, s.now⟩
  | tick {s : StoreState} {now : ℚ} (h : s.now ≤ now) : StoreStep codec s .quiet ⟨s.store, now⟩

/-- The leases of a marker that were granted and not ended, newest first. -/
def held (recoveryId : String) : List StoreEvent → List Lease
  | [] => []
  | .quiet :: hist => held recoveryId hist
  | .granted granted lease :: hist =>
    if granted = recoveryId then lease :: held recoveryId hist else held recoveryId hist
  | .finished finished owner token :: hist =>
    if finished = recoveryId then
      (held recoveryId hist).filter (fun l => ¬ (l.owner = owner ∧ l.token = PyStr.strip token))
    else held recoveryId hist
  | .removed removed :: hist => if recoveryId ∈ removed then [] else held recoveryId hist

def lastGrant (recoveryId : String) : List StoreEvent → Option Lease
  | [] => none
  | .granted granted lease :: hist =>
    if granted = recoveryId then some lease else lastGrant recoveryId hist
  | _ :: hist => lastGrant recoveryId hist

def RecoveryStatus.terminal : RecoveryStatus → Bool
  | .pending | .claimed => false
  | .succeeded | .failed => true

/-! ## What a call does to the rows -/

/-- A row that a claim may take: it has attempts left and is under no lease that still
runs. -/
def RecoveryRow.free (row : RecoveryRow) (now : ℚ) : Prop :=
  row.attempts < maxRecoveryAttempts ∧
    (row.status = .pending ∨
      row.status = .claimed ∧ ∀ t, row.leaseExpiresAt = some t → t = 0 ∨ t ≤ now)

theorem free_of_claimable {row : RecoveryRow} {now : ℚ} {scope : RecoveryScope}
    (h : row.claimable now scope = true) : row.free now := by
  unfold RecoveryRow.claimable at h
  obtain ⟨-, hstatus, hattempts, hlease, -⟩ := of_decide_eq_true h
  refine ⟨hattempts, ?_⟩
  rcases List.mem_cons.mp hstatus with hp | hc
  · exact Or.inl hp
  · have hclaimed : row.status = .claimed := List.mem_singleton.mp hc
    refine Or.inr ⟨hclaimed, fun t ht => ?_⟩
    by_contra hrun
    have hboth : t ≠ 0 ∧ now < t :=
      ⟨fun h0 => hrun (Or.inl h0), lt_of_not_ge (fun hle => hrun (Or.inr hle))⟩
    exact hlease ⟨hclaimed, by rw [ht]; exact decide_eq_true hboth⟩

theorem free_of_due {row : RecoveryRow} {now : ℚ} (h : row.due now = true) : row.free now := by
  unfold RecoveryRow.due at h
  obtain ⟨hstatus, hattempts, -, -⟩ := of_decide_eq_true h
  refine ⟨hattempts, hstatus.imp id (fun hc => ⟨hc.1, fun t ht => Or.inr ?_⟩)⟩
  have hany := hc.2
  rw [ht] at hany
  exact of_decide_eq_true hany

theorem foldl_earlierDue_mem {es : List (String × RecoveryRow)}
    {best : Option (String × RecoveryRow)} {e : String × RecoveryRow}
    (h : es.foldl earlierDue best = some e) : best = some e ∨ e ∈ es := by
  induction es generalizing best with
  | nil => exact Or.inl h
  | cons x rest ih =>
    rw [List.foldl_cons] at h
    rcases ih h with hx | hrest
    · have hxe : best = some e ∨ x = e := by
        cases best with
        | none => exact Or.inr (Option.some.inj hx)
        | some b =>
          unfold earlierDue at hx
          dsimp only at hx
          split at hx
          · exact Or.inl hx
          · exact Or.inr (Option.some.inj hx)
      exact hxe.imp id (fun he => by rw [he]; exact List.mem_cons_self)
    · exact Or.inr (List.mem_cons_of_mem _ hrest)

theorem firstDue_spec {s : RecoveryStore} {now : ℚ} {recoveryId : String} {row : RecoveryRow}
    (h : firstDue s now = some (recoveryId, row)) :
    s.get recoveryId = some row ∧ row.due now = true := by
  unfold firstDue at h
  have hmem : (recoveryId, row) ∈ s.entries.filter (fun e => e.2.due now) :=
    (foldl_earlierDue_mem h).resolve_left (fun hn => by cases hn)
  have hboth := List.mem_filter.mp hmem
  exact ⟨Dict.get_eq_some.mpr hboth.1, hboth.2⟩

/-- Everything a call can do: leave the rows alone, put a fresh or a still pending row,
grant a lease on a free row, finish a row under its lease, or remove rows. -/
inductive CallSpec (s : RecoveryStore) (now : ℚ) : StoreEvent → RecoveryStore → Prop
  | same : CallSpec s now .quiet s
  | pending {recoveryId : String} {row : RecoveryRow} (hpending : row.status = .pending)
      (hold : s.get recoveryId = none ∧ row.attempts = 0 ∨
        ∃ old, s.get recoveryId = some old ∧ old.status = .pending ∧
          row.attempts = old.attempts) :
      CallSpec s now .quiet (s.set recoveryId row)
  | granted {recoveryId owner token : String} {row : RecoveryRow}
      (hrow : s.get recoveryId = some row) (hfree : row.free now) :
      CallSpec s now (.granted recoveryId ⟨owner, token, now + leaseSeconds⟩)
        (s.set recoveryId (row.claim now owner token))
  | finished {recoveryId owner token : String} {row : RecoveryRow} {success : Bool}
      {completed : Option String} (hrow : s.get recoveryId = some row)
      (hheld : row.heldBy owner (PyStr.strip token) = true) :
      CallSpec s now (.finished recoveryId owner token)
        (s.set recoveryId (row.finish now success completed))
  | removed {removed : List String} {s' : RecoveryStore}
      (hget : ∀ recoveryId, s'.get recoveryId =
        if recoveryId ∈ removed then none else s.get recoveryId) :
      CallSpec s now (.removed removed) s'

section Calls

variable {codec : RecoveryCodec} {s : RecoveryStore} {now : ℚ}

theorem put_spec (recoveryId : String) (step : Step) (args : PutArgs) :
    CallSpec s now .quiet ((put codec s now recoveryId step args).toOption.getD s) := by
  unfold put
  split
  · exact CallSpec.same
  · split
    · exact CallSpec.same
    · cases codec.serializeStep step with
      | error _ => exact CallSpec.same
      | ok encoded =>
        cases serializeSnapshot codec "context" args.contextSnapshot with
        | error _ => exact CallSpec.same
        | ok context =>
          cases serializeSnapshot codec "result" args.result with
          | error _ => exact CallSpec.same
          | ok result =>
            cases hrow : s.get recoveryId with
            | none =>
              show CallSpec s now .quiet (s.set recoveryId _)
              exact CallSpec.pending rfl (Or.inl ⟨hrow, rfl⟩)
            | some row =>
              by_cases hpending : row.status = .pending
              · have hset : CallSpec s now .quiet
                    (s.set recoveryId (row.refresh now encoded args context result)) :=
                  CallSpec.pending hpending (Or.inr ⟨row, hrow, hpending, rfl⟩)
                simpa [bind, Except.bind, Except.toOption, hpending] using hset
              · simpa [bind, Except.bind, Except.toOption, hpending] using
                  (CallSpec.same : CallSpec s now .quiet s)

theorem takeMarker_cases (s : RecoveryStore) (now : ℚ) (recoveryId owner : String)
    (scope : RecoveryScope) (token : String) :
    (∃ message, takeMarker s now recoveryId owner scope token = .error message) ∨
      takeMarker s now recoveryId owner scope token = .ok none ∨
      ∃ row, s.get recoveryId = some row ∧ row.claimable now scope = true ∧
        takeMarker s now recoveryId owner scope token =
          .ok (some (row.claim now owner token, s.set recoveryId (row.claim now owner token))) := by
  unfold takeMarker
  split
  · exact Or.inl ⟨_, rfl⟩
  · cases hfound : (s.get recoveryId).filter (fun row => row.claimable now scope) with
    | none => exact Or.inr (Or.inl rfl)
    | some row =>
      obtain ⟨hrow, hclaimable⟩ := Option.filter_eq_some_iff.mp hfound
      exact Or.inr (Or.inr ⟨row, hrow, hclaimable, rfl⟩)

theorem claimRecovery_spec (recoveryId owner : String) (scope : RecoveryScope) (token : String) :
    CallSpec s now (observed codec s now (.claimRecovery recoveryId owner scope token))
      (called codec s now (.claimRecovery recoveryId owner scope token)) := by
  simp only [observed, called, claimRecovery]
  rcases takeMarker_cases s now recoveryId owner scope token with herror | hnone | htaken
  · obtain ⟨message, hmessage⟩ := herror
    rw [hmessage]
    exact CallSpec.same
  · rw [hnone]
    exact CallSpec.same
  · obtain ⟨row, hrow, hclaimable, htake⟩ := htaken
    rw [htake]
    exact CallSpec.granted hrow (free_of_claimable hclaimable)

theorem claimDue_spec (owner token : String) :
    CallSpec s now (observed codec s now (.claimDue owner token))
      (called codec s now (.claimDue owner token)) := by
  simp only [observed, called, claimDue]
  by_cases howner : ownerValid owner = false
  · simp only [if_pos howner]
    exact CallSpec.same
  · simp only [if_neg howner]
    cases hfirst : firstDue s now with
    | none => exact CallSpec.same
    | some e =>
      obtain ⟨hrow, hdue⟩ := firstDue_spec hfirst
      dsimp only
      cases codec.deserializeStep e.2.stepJson with
      | error _ => exact CallSpec.same
      | ok step => exact CallSpec.granted hrow (free_of_due hdue)

theorem finish_cases (codec : RecoveryCodec) (s : RecoveryStore) (now : ℚ) (recoveryId : String)
    (success : Bool) (owner token : String) (result error : Option Json) :
    (∃ message, finish codec s now recoveryId success owner token result error =
        (s, .error message)) ∨
      (finish codec s now recoveryId success owner token result error = (s, .ok false) ∧
        ∀ row, s.get recoveryId = some row → row.heldBy owner (PyStr.strip token) = false) ∨
      ∃ row completed, s.get recoveryId = some row ∧
        row.heldBy owner (PyStr.strip token) = true ∧
        finish codec s now recoveryId success owner token result error =
          (s.set recoveryId (row.finish now success completed), .ok true) := by
  unfold finish
  split
  · exact Or.inl ⟨_, rfl⟩
  · split
    · exact Or.inl ⟨_, rfl⟩
    · cases serializeSnapshot codec "result" (if success then result else error) with
      | error _ => exact Or.inl ⟨_, rfl⟩
      | ok completed =>
        cases hfound : (s.get recoveryId).filter
            (fun row => row.heldBy owner (PyStr.strip token)) with
        | none =>
          refine Or.inr (Or.inl ⟨by dsimp only, fun row hrow => ?_⟩)
          rw [hrow, Option.filter_some] at hfound
          cases hheld : row.heldBy owner (PyStr.strip token) with
          | false => rfl
          | true =>
            rw [hheld] at hfound
            cases hfound
        | some row =>
          obtain ⟨hrow, hheld⟩ := Option.filter_eq_some_iff.mp hfound
          exact Or.inr (Or.inr ⟨row, completed, hrow, hheld, by dsimp only⟩)

theorem finish_spec (recoveryId : String) (success : Bool) (owner token : String)
    (result error : Option Json) :
    CallSpec s now (observed codec s now (.finish recoveryId success owner token result error))
      (called codec s now (.finish recoveryId success owner token result error)) := by
  simp only [observed, called]
  rcases finish_cases codec s now recoveryId success owner token result error with
    herror | hnone | hdone
  · obtain ⟨message, heq⟩ := herror
    rw [heq]
    exact CallSpec.same
  · rw [hnone.1]
    exact CallSpec.same
  · obtain ⟨row, completed, hrow, hheld, heq⟩ := hdone
    rw [heq]
    exact CallSpec.finished hrow hheld

theorem delete_spec (recoveryId : String) :
    CallSpec s now (.removed [recoveryId]) (delete s recoveryId).1 := by
  refine CallSpec.removed (fun recoveryId' => ?_)
  show (s.erase recoveryId).get recoveryId' = _
  rw [Dict.get_erase]
  exact if_congr List.mem_singleton.symm rfl rfl

theorem reapExpired_spec :
    CallSpec s now (.removed ((s.filter (fun _ row => !row.alive now)).keys))
      (reapExpired s now) := by
  refine CallSpec.removed (fun recoveryId => ?_)
  unfold reapExpired
  rw [Dict.get_filter]
  have hkey : recoveryId ∈ (s.filter (fun _ row => !row.alive now)).keys ↔
      ∃ row, (s.get recoveryId).filter (fun row => !row.alive now) = some row := by
    rw [Dict.mem_keys]
    exact exists_congr (fun row => by rw [Dict.get_filter])
  cases hrow : s.get recoveryId with
  | none => rw [Option.filter_none, ite_self]
  | some row =>
    rw [hrow] at hkey
    cases halive : row.alive now with
    | true =>
      have hout : recoveryId ∉ (s.filter (fun _ row => !row.alive now)).keys := fun hin => by
        obtain ⟨row', h'⟩ := hkey.mp hin
        simp [Option.filter_some, halive] at h'
      rw [if_neg hout, Option.filter_some, if_pos halive]
    | false =>
      have hin : recoveryId ∈ (s.filter (fun _ row => !row.alive now)).keys :=
        hkey.mpr ⟨row, by simp [Option.filter_some, halive]⟩
      rw [if_pos hin, Option.filter_some, if_neg (by rw [halive]; exact Bool.false_ne_true)]

theorem call_spec (codec : RecoveryCodec) (s : RecoveryStore) (now : ℚ) (c : StoreCall) :
    CallSpec s now (observed codec s now c) (called codec s now c) := by
  cases c with
  | put recoveryId step args => exact put_spec recoveryId step args
  | claimRecovery recoveryId owner scope token =>
    exact claimRecovery_spec recoveryId owner scope token
  | claimDue owner token => exact claimDue_spec owner token
  | finish recoveryId success owner token result error =>
    exact finish_spec recoveryId success owner token result error
  | delete recoveryId => exact delete_spec recoveryId
  | reapExpired => exact reapExpired_spec

end Calls

/-! ## Rows and leases -/

/-- What ties a row to the leases of its marker. A claimed row carries the last lease
granted, and of the leases still held only that one may run; no other row is under a lease
that runs. -/
def MarkerFenced (now : ℚ) (leases : List Lease) (last : Option Lease) :
    Option RecoveryRow → Prop
  | none => leases = []
  | some row => row.attempts ≤ maxRecoveryAttempts ∧
      (row.status ≠ .claimed → ∀ l ∈ leases, l.ends ≤ now) ∧
      (row.status = .claimed → ∃ l rest, leases = l :: rest ∧ last = some l ∧
        row.leaseOwner = some l.owner ∧ row.fencingToken = some l.token ∧
        row.leaseExpiresAt = some l.ends ∧ 0 < l.ends ∧ ∀ l' ∈ rest, l'.ends ≤ now)

section Marker

variable {now now' : ℚ} {leases : List Lease} {last : Option Lease} {row : RecoveryRow}

theorem MarkerFenced.later {row : Option RecoveryRow} (h : MarkerFenced now leases last row)
    (hle : now ≤ now') : MarkerFenced now' leases last row := by
  cases row with
  | none => exact h
  | some row =>
    obtain ⟨hattempts, hopen, hclaimed⟩ := h
    refine ⟨hattempts, fun hne l hl => (hopen hne l hl).trans hle, fun hst => ?_⟩
    obtain ⟨l, rest, hl, hlast, howner, htoken, hends, hpos, hrest⟩ := hclaimed hst
    exact ⟨l, rest, hl, hlast, howner, htoken, hends, hpos,
      fun l' hl' => (hrest l' hl').trans hle⟩

/-- Where a claim is possible no lease runs: the lease of a claimed row ends after zero, so
the guards compare its end with the clock. -/
theorem MarkerFenced.none_runs (h : MarkerFenced now leases last (some row))
    (hfree : row.free now) : ∀ l ∈ leases, l.ends ≤ now := by
  obtain ⟨-, hopen, hclaimed⟩ := h
  rcases hfree.2 with hpending | hexpired
  · exact hopen (by rw [hpending]; exact RecoveryStatus.noConfusion)
  · obtain ⟨l, rest, hl, -, -, -, hends, hpos, hrest⟩ := hclaimed hexpired.1
    have hend : l.ends ≤ now := (hexpired.2 l.ends hends).resolve_left (ne_of_gt hpos)
    rw [hl]
    intro l' hl'
    rcases List.mem_cons.mp hl' with heq | hin
    · rw [heq]
      exact hend
    · exact hrest l' hin

theorem MarkerFenced.claim (h : MarkerFenced now leases last (some row)) (h0 : 0 ≤ now)
    (hfree : row.free now) (owner token : String) :
    MarkerFenced now (⟨owner, token, now + leaseSeconds⟩ :: leases)
      (some ⟨owner, token, now + leaseSeconds⟩) (some (row.claim now owner token)) := by
  have hpos : 0 < now + leaseSeconds := add_pos_of_nonneg_of_pos h0 (by decide +kernel)
  refine ⟨hfree.1, fun hne => absurd rfl hne, fun _ => ?_⟩
  exact ⟨_, leases, rfl, rfl, rfl, rfl, rfl, hpos, h.none_runs hfree⟩

theorem MarkerFenced.holder (h : MarkerFenced now leases last (some row)) {owner token : String}
    (hheld : row.heldBy owner token = true) :
    ∃ l rest, leases = l :: rest ∧ last = some l ∧ l.owner = owner ∧ l.token = token ∧
      ∀ l' ∈ rest, l'.ends ≤ now := by
  unfold RecoveryRow.heldBy at hheld
  obtain ⟨hst, howner, htoken⟩ := of_decide_eq_true hheld
  obtain ⟨l, rest, hl, hlast, howner', htoken', -, -, hrest⟩ := h.2.2 hst
  rw [howner'] at howner
  rw [htoken'] at htoken
  exact ⟨l, rest, hl, hlast, Option.some.inj howner, Option.some.inj htoken, hrest⟩

theorem MarkerFenced.finish (h : MarkerFenced now leases last (some row)) {owner token : String}
    (hheld : row.heldBy owner token = true) (success : Bool) (completed : Option String) :
    MarkerFenced now (leases.filter (fun l => ¬ (l.owner = owner ∧ l.token = token))) last
      (some (row.finish now success completed)) := by
  obtain ⟨l, rest, hl, -, howner, htoken, hrest⟩ := h.holder hheld
  have hst : (row.finish now success completed).status ≠ .claimed := by
    cases success <;> exact RecoveryStatus.noConfusion
  refine ⟨h.1, fun _ l' hl' => ?_, fun hc => absurd hc hst⟩
  obtain ⟨hin, hnot⟩ := List.mem_filter.mp hl'
  rw [hl] at hin
  rcases List.mem_cons.mp hin with heq | hin
  · rw [heq] at hnot
    exact absurd ⟨howner, htoken⟩ (of_decide_eq_true hnot)
  · exact hrest l' hin

theorem MarkerFenced.one_runs {row : Option RecoveryRow} (h : MarkerFenced now leases last row) :
    (leases.filter (fun l => now < l.ends)).length ≤ 1 := by
  have none_of {ls : List Lease} (hls : ∀ l ∈ ls, l.ends ≤ now) :
      ls.filter (fun l => now < l.ends) = [] :=
    List.filter_eq_nil_iff.mpr (fun l hl => by
      rw [decide_eq_true_eq]
      exact not_lt_of_ge (hls l hl))
  cases row with
  | none =>
    have hnil : leases = [] := h
    rw [hnil]
    exact Nat.zero_le 1
  | some row =>
    by_cases hst : row.status = .claimed
    · obtain ⟨l, rest, hl, -, -, -, -, -, hrest⟩ := h.2.2 hst
      rw [hl, List.filter_cons, none_of hrest]
      split
      · exact Nat.le_refl 1
      · exact Nat.zero_le 1
    · rw [none_of (h.2.1 hst)]
      exact Nat.zero_le 1

end Marker

/-- The rows of the store and the leases of its run. -/
structure Fenced (hist : List StoreEvent) (s : StoreState) : Prop where
  clock : 0 ≤ s.now
  markers : ∀ recoveryId, MarkerFenced s.now (held recoveryId hist) (lastGrant recoveryId hist)
    (s.store.get recoveryId)

theorem initial_fenced : Fenced [] StoreState.initial :=
  ⟨le_refl 0, fun _ => rfl⟩

/-- A call keeps every marker fenced: the one it is about by its own rule, the others
because neither their row nor their leases change. -/
theorem call_fenced {s s' : RecoveryStore} {now : ℚ} {e : StoreEvent} {hist : List StoreEvent}
    (hcall : CallSpec s now e s') (h0 : 0 ≤ now)
    (h : ∀ id, MarkerFenced now (held id hist) (lastGrant id hist) (s.get id)) (id : String) :
    MarkerFenced now (held id (e :: hist)) (lastGrant id (e :: hist)) (s'.get id) := by
  have hid := h id
  cases hcall with
  | same => exact hid
  | @pending recoveryId row hpending hold =>
    show MarkerFenced now (held id hist) (lastGrant id hist) _
    rw [Dict.get_set]
    split
    · rename_i heq
      rw [heq] at hid ⊢
      have hne : row.status ≠ .claimed := by rw [hpending]; exact RecoveryStatus.noConfusion
      rcases hold with hnone | hsome
      · rw [hnone.1] at hid
        have hnil : held recoveryId hist = [] := hid
        rw [hnil]
        refine ⟨by rw [hnone.2]; exact Nat.zero_le _, fun _ l hl => ?_, fun hc => absurd hc hne⟩
        exact absurd hl List.not_mem_nil
      · obtain ⟨old, hold, hstatus, hattempts⟩ := hsome
        rw [hold] at hid
        have hne' : old.status ≠ .claimed := by rw [hstatus]; exact RecoveryStatus.noConfusion
        exact ⟨by rw [hattempts]; exact hid.1, fun _ => hid.2.1 hne', fun hc => absurd hc hne⟩
    · exact hid
  | @granted recoveryId owner token row hrow hfree =>
    rw [Dict.get_set, held, lastGrant]
    by_cases heq : id = recoveryId
    · rw [if_pos heq, if_pos heq.symm, if_pos heq.symm]
      rw [heq, hrow] at hid
      rw [heq]
      exact hid.claim h0 hfree owner token
    · rw [if_neg heq, if_neg (Ne.symm heq), if_neg (Ne.symm heq)]
      exact hid
  | @finished recoveryId owner token row success completed hrow hheld =>
    rw [Dict.get_set, held]
    show MarkerFenced now _ (lastGrant id hist) _
    by_cases heq : id = recoveryId
    · rw [if_pos heq, if_pos heq.symm]
      rw [heq, hrow] at hid
      rw [heq]
      exact hid.finish hheld success completed
    · rw [if_neg heq, if_neg (Ne.symm heq)]
      exact hid
  | @removed removed s' hget =>
    rw [hget, held]
    show MarkerFenced now _ (lastGrant id hist) _
    split
    · exact rfl
    · exact hid

theorem step_fenced {codec : RecoveryCodec} {hist : List StoreEvent} {s s' : StoreState}
    {e : StoreEvent} (h : Fenced hist s) (hstep : StoreStep codec s e s') :
    Fenced (e :: hist) s' := by
  cases hstep with
  | call c => exact ⟨h.clock, call_fenced (call_spec codec _ _ c) h.clock h.markers⟩
  | tick hle => exact ⟨h.clock.trans hle, fun id => (h.markers id).later hle⟩

theorem run_fenced {codec : RecoveryCodec} {hist : List StoreEvent} {s : StoreState}
    (hrun : Run (StoreStep codec) StoreState.initial hist s) : Fenced hist s :=
  hrun.history initial_fenced (fun _ _ _ _ h hstep => step_fenced h hstep)

/-! ## Terminal rows -/

theorem step_terminal {codec : RecoveryCodec} {s s' : StoreState} {e : StoreEvent}
    {id : String} {row : RecoveryRow} (hstep : StoreStep codec s e s')
    (hrow : s.store.get id = some row) (hterminal : row.status.terminal = true)
    (hkept : ∀ removed, e = .removed removed → id ∉ removed) :
    s'.store.get id = some row := by
  cases hstep with
  | tick _ => exact hrow
  | call c =>
    have hcall := call_spec codec s.store s.now c
    show (called codec s.store s.now c).get id = some row
    -- a row that a call sets was pending or claimed before, so it is another marker's
    have other {id' : String} {row' old : RecoveryRow} (hold : s.store.get id' = some old)
        (hopen : old.status.terminal = false) :
        (s.store.set id' row').get id = some row := by
      have hne : id ≠ id' := fun heq => by
        rw [heq, hold] at hrow
        rw [← Option.some.inj hrow, hopen] at hterminal
        cases hterminal
      rw [Dict.get_set_of_ne hne]
      exact hrow
    generalize called codec s.store s.now c = s' at hcall ⊢
    generalize observed codec s.store s.now c = e at hcall hkept
    cases hcall with
    | same => exact hrow
    | pending _ hold =>
      rcases hold with hnone | hsome
      · rw [Dict.get_set_of_ne (fun heq => by rw [heq, hnone.1] at hrow; cases hrow)]
        exact hrow
      · obtain ⟨old, hold, hstatus, -⟩ := hsome
        exact other hold (by rw [hstatus]; rfl)
    | granted hold hfree =>
      refine other hold ?_
      rcases hfree.2 with hp | hc
      · rw [hp]
        rfl
      · rw [hc.1]
        rfl
    | finished hold hheld =>
      unfold RecoveryRow.heldBy at hheld
      exact other hold (by rw [(of_decide_eq_true hheld).1]; rfl)
    | removed hget =>
      rw [hget, if_neg (hkept _ rfl)]
      exact hrow

theorem run_terminal {codec : RecoveryCodec} {s s' : StoreState} {hist : List StoreEvent}
    {id : String} {row : RecoveryRow} (hrun : Run (StoreStep codec) s hist s')
    (hrow : s.store.get id = some row) (hterminal : row.status.terminal = true)
    (hkept : ∀ removed, .removed removed ∈ hist → id ∉ removed) :
    s'.store.get id = some row := by
  induction hrun with
  | start => exact hrow
  | next _ hstep ih =>
    have hbefore := ih (fun removed hin => hkept removed (List.mem_cons_of_mem _ hin))
    exact step_terminal hstep hbefore hterminal
      (fun removed he => hkept removed (by rw [he]; exact List.mem_cons_self))

/-! ## Fencing -/

theorem finished_holder {codec : RecoveryCodec} {hist : List StoreEvent} {s s' : StoreState}
    {e : StoreEvent} {id owner token : String} (h : Fenced hist s)
    (hstep : StoreStep codec s e s') (he : e = .finished id owner token) :
    ∃ l ∈ held id hist, lastGrant id hist = some l ∧ l.owner = owner ∧
      l.token = PyStr.strip token := by
  cases hstep with
  | tick _ => cases he
  | call c =>
    have hcall := call_spec codec s.store s.now c
    rw [he] at hcall
    generalize called codec s.store s.now c = s' at hcall
    cases hcall with
    | finished hrow hheld =>
      have hmarker := h.markers id
      rw [hrow] at hmarker
      obtain ⟨l, rest, hl, hlast, howner, htoken, -⟩ := hmarker.holder hheld
      exact ⟨l, by rw [hl]; exact List.mem_cons_self, hlast, howner, htoken⟩

/-- In every run, each marker is under at most one lease that runs, is finished only by the
last claim's owner and token, has at most the attempts the store allows, and once terminal
keeps its row until it is removed. -/
theorem store_fencing (codec : RecoveryCodec) {hist : List StoreEvent} {s : StoreState}
    (hrun : Run (StoreStep codec) StoreState.initial hist s) (id : String) :
    ((held id hist).filter (fun l => s.now < l.ends)).length ≤ 1 ∧
    (∀ owner token s', StoreStep codec s (.finished id owner token) s' →
      ∃ l ∈ held id hist, lastGrant id hist = some l ∧ l.owner = owner ∧
        l.token = PyStr.strip token) ∧
    (∀ row, s.store.get id = some row → row.attempts ≤ maxRecoveryAttempts) ∧
    (∀ row hist' s', s.store.get id = some row → row.status.terminal = true →
      Run (StoreStep codec) s hist' s' → (∀ removed, .removed removed ∈ hist' → id ∉ removed) →
        s'.store.get id = some row) := by
  have h := run_fenced hrun
  refine ⟨(h.markers id).one_runs, fun _ _ _ hstep => finished_holder h hstep rfl, ?_, ?_⟩
  · intro row hrow
    have hmarker := h.markers id
    rw [hrow] at hmarker
    exact hmarker.1
  · intro row hist' s' hrow hterminal hrun' hkept
    exact run_terminal hrun' hrow hterminal hkept

/-! A marker that is put, claimed and finished, and that a second worker then asks for. -/

def readStep : Step where
  id := "read"
  title := "Read"
  description := ""
  payload := none
  dependsOn := []
  condition := none
  ownerAgentId := none
  ownerAgentRole := none
  routeReason := none
  successCriteria := some defaultCriteria
  planVersion := 2
  compatibilityTrace := none
  body := .tool (some "read_file") [("path", .str "notes.md")] (some (.int 30)) 0
    "step_executor" "plan:read"

/-- The codec at that step and at the error of a marker without a context. -/
def readCodec : RecoveryCodec where
  serializeStep := fun _ => .ok ("\x7b\"arguments\":\x7b\"path\":\"notes.md\"\x7d," ++
    "\"compatibility_trace\":null,\"condition\":null,\"depends_on\":[],\"description\":\"\"," ++
    "\"id\":\"read\",\"idempotency_key\":\"plan:read\",\"kind\":\"tool\"," ++
    "\"owner_agent_id\":null,\"owner_agent_role\":null,\"payload\":null,\"plan_version\":2," ++
    "\"retry_budget\":0,\"retry_owner\":\"step_executor\",\"route_reason\":null," ++
    "\"success_criteria\":\x7b\"op\":\"status_in\",\"values\":[\"ok\",\"created\"]\x7d," ++
    "\"timeout_seconds\":30,\"title\":\"Read\",\"tool_name\":\"read_file\"\x7d")
  deserializeStep := fun _ => .ok readStep
  dumps := fun _ => .ok "\x7b\"code\":\"recovery_context_missing\"\x7d"
  loads := fun _ => .ok (.obj [("code", .str "recovery_context_missing")])
  wide := id

def readScope : RecoveryScope := ⟨some "home", none, none, none⟩

/-- The events of calls made at one time, newest first, and the database after them. -/
def callAll (codec : RecoveryCodec) (now : ℚ) :
    List StoreCall → List StoreEvent × RecoveryStore → List StoreEvent × RecoveryStore
  | [], acc => acc
  | c :: rest, acc =>
    callAll codec now rest (observed codec acc.2 now c :: acc.1, called codec acc.2 now c)

theorem callAll_run (codec : RecoveryCodec) {s₀ : StoreState} {now : ℚ} (calls : List StoreCall)
    {acc : List StoreEvent × RecoveryStore}
    (h : Run (StoreStep codec) s₀ acc.1 ⟨acc.2, now⟩) :
    Run (StoreStep codec) s₀ (callAll codec now calls acc).1
      ⟨(callAll codec now calls acc).2, now⟩ := by
  induction calls generalizing acc with
  | nil => exact h
  | cons c rest ih => exact ih (h.next (StoreStep.call c))

/-- A worker of each claim path takes the marker, and one of them finishes it. -/
def firstCalls : List StoreCall :=
  [.put "rh" readStep ⟨none, some 600, readScope, none, none, none⟩,
    .claimRecovery "rh" "first" readScope "a1", .claimDue "second" "b2",
    .finish "rh" true "first" "a1" none none]

def laterCalls : List StoreCall :=
  [.claimRecovery "rh" "first" readScope "c3", .claimDue "second" "d4",
    .finish "rh" false "first" "a1" none none]

def finishedStore : RecoveryStore := (callAll readCodec 0 firstCalls ([], Dict.empty)).2

def finishedRow : RecoveryRow :=
  ((newRow 0 ((readCodec.serializeStep readStep).toOption.getD "")
    ⟨none, some 600, readScope, none, none, none⟩ none none).claim 0 "first" "a1").finish 0 true none

/-- The finished marker is under no lease, and the later calls cannot change it. -/
theorem store_fencing_finished :
    ((held "rh" (callAll readCodec 0 firstCalls ([], Dict.empty)).1).filter
        (fun l => 0 < l.ends)).length ≤ 1 ∧
      (callAll readCodec 0 laterCalls ([], finishedStore)).2.get "rh" = some finishedRow := by
  have hfirst : Run (StoreStep readCodec) StoreState.initial
      (callAll readCodec 0 firstCalls ([], Dict.empty)).1 ⟨finishedStore, 0⟩ :=
    callAll_run readCodec firstCalls Run.start
  have hlater : Run (StoreStep readCodec) ⟨finishedStore, 0⟩
      (callAll readCodec 0 laterCalls ([], finishedStore)).1
      ⟨(callAll readCodec 0 laterCalls ([], finishedStore)).2, 0⟩ :=
    callAll_run readCodec laterCalls Run.start
  have hquiet : (callAll readCodec 0 laterCalls ([], finishedStore)).1 =
      [.quiet, .quiet, .quiet] := by decide +kernel
  have hall := store_fencing readCodec hfirst "rh"
  refine ⟨hall.1, hall.2.2.2 finishedRow _ _ (by decide +kernel) rfl hlater ?_⟩
  intro removed hin
  rw [hquiet] at hin
  simp at hin

end Recovery
