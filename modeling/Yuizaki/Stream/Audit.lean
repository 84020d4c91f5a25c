import Yuizaki.Stream.Outcome

/- The audit of a stream action along a run.

   Every entry of a ticket is made by the one request that claimed it: `sending` at the claim
   and the outcome at its end. `StreamSystem.Move` lists what a step may do to the entries;
   from it follow that nothing is recorded for a ticket whose request ended, and that one
   whose request has not ended has no outcome yet. `action_audit` says exactly when an audit
   is conclusive. -/
namespace Streaming

open Transition

/-! ## Audits -/

/-- The entries of a ticket, oldest first. -/
def StreamSystem.audit (s : StreamSystem) (id : String) : List AuditEntry :=
  s.runtime.actions.filter (fun e => e.requestId = id)

/-- The audit of a ticket is conclusive: its last entry is the outcome, which is the only one
besides `sending`, and whatever happens later, nothing is added to it. -/
structure StreamSystem.Conclusive (casefold : String → String) (s : StreamSystem) (id : String)
    (proved : Bool) : Prop where
  outcome : ∃ before entry, s.audit id = before ++ [entry] ∧ entry.status = outcomeStatus proved ∧
    ∀ e ∈ before, e.status = .sending
  final : ∀ hist s', Run (StreamStep casefold) s hist s' → s'.audit id <:+ s.audit id

/-! ## What a step does to the audit -/

/-- A request has claimed a ticket and has not ended. -/
def StreamSystem.Busy (s : StreamSystem) (n : ℕ) (id : String) : Prop :=
  ∃ claim, (s.executions.get n = some (.claimed claim) ∨ s.executions.get n = some (.called claim)) ∧
    claim.request.requestId = id

/-- What a step may do: nothing, a new ticket, a claim with its entry, or an end with its
outcome. Tickets and entries may be lost, and requests may end, in each. -/
inductive StreamSystem.Move (s : StreamSystem) (l : StreamLabel) (s' : StreamSystem) : Prop
  | quiet (issued : s'.issued = s.issued) (free : ∀ id, s'.Free id → s.Free id)
      (busy : ∀ n id, s'.Busy n id → s.Busy n id) (actions : s'.runtime.actions <:+ s.runtime.actions)
  | issue (id : String) (new : id ∉ s.issued.map Prod.fst)
      (label : ∃ hex action params, l = .preview hex action params ∧ id = StreamSystem.previewId hex)
      (issued : s'.issued.map Prod.fst = id :: s.issued.map Prod.fst)
      (free : ∀ j, s'.Free j → s.Free j ∨ j = id) (busy : ∀ n j, s'.Busy n j → s.Busy n j)
      (actions : s'.runtime.actions = s.runtime.actions)
  | claim (n : ℕ) (id : String) (short : id.length ≤ 160) (issued : s'.issued = s.issued)
      (was : s.Free id) (free : ∀ j, s'.Free j → s.Free j ∧ j ≠ id)
      (busy : ∀ m j, s'.Busy m j → s.Busy m j ∨ m = n ∧ j = id)
      (actions : ∃ kept entry, kept <:+ s.runtime.actions ∧ s'.runtime.actions = kept ++ [entry] ∧
        entry.requestId = id ∧ entry.status = .sending)
  | conclude (n : ℕ) (id : String) (issued : s'.issued = s.issued)
      (was : s.Busy n id) (free : ∀ j, s'.Free j → s.Free j)
      (busy : ∀ m j, s'.Busy m j → s.Busy m j ∧ m ≠ n)
      (actions : ∃ kept entry, kept <:+ s.runtime.actions ∧ s'.runtime.actions = kept ++ [entry] ∧
        entry.requestId = id)

section Moves

variable {casefold : String → String} {s s' : StreamSystem} {l : StreamLabel} {n : ℕ}

theorem conclude_entry {r : StreamRuntime} (action : StreamAction) (requestId : String) (stamp : Stamp)
    (outcome : Except Raised (Json × String)) (disk : Bool) :
    (r.conclude action requestId stamp outcome disk).2.actions <:+ r.actions ∨
      ∃ kept entry, kept <:+ r.actions ∧
        (r.conclude action requestId stamp outcome disk).2.actions = kept ++ [entry] ∧
        entry.requestId = requestId := by
  have hrecord (r' : StreamRuntime) (entry : AuditEntry) (outcome : Except Raised Json)
      (hr : r'.actions = r.actions) (hid : entry.requestId = requestId) :
      (r'.recordOutcome entry disk outcome).2.actions <:+ r.actions ∨
        ∃ kept last, kept <:+ r.actions ∧
          (r'.recordOutcome entry disk outcome).2.actions = kept ++ [last] ∧ last.requestId = requestId := by
    obtain ⟨hkept, hlost⟩ := recordOutcome_actions (r := r') disk entry outcome
    rw [hr] at hkept hlost
    cases hentry : entry.kept with
    | false => exact Or.inl (hlost hentry)
    | true =>
      obtain ⟨kept, hsuffix, hactions⟩ := hkept hentry
      exact Or.inr ⟨kept, entry, hsuffix, hactions, hid⟩
  unfold StreamRuntime.conclude
  split
  · split
    · exact Or.inl List.suffix_rfl
    · apply hrecord
      · rfl
      · rfl
  · split
    · apply hrecord
      · rfl
      · rfl
    · apply hrecord
      · rfl
      · rfl

theorem preview_actions {r r' : StreamRuntime} {requestId : String} {action : StreamAction}
    {params : Dict String Json} {now : ℚ}
    (h : r.preview casefold requestId action params now = .ok r') : r'.actions = r.actions := by
  unfold StreamRuntime.preview at h
  obtain ⟨-, -, h⟩ := Fallible.bind_ok.mp h
  obtain ⟨-, -, h⟩ := Fallible.bind_ok.mp h
  obtain rfl := Except.ok.inj h
  rfl

theorem look_actions (r : StreamRuntime) (request : ExecuteRequest) (now : ℚ) :
    (r.look request now).2.actions = r.actions := by
  unfold StreamRuntime.look
  split
  · rfl
  · split
    · rfl
    · split
      · rfl
      · split
        · rfl
        · split
          · dsimp only
            split
            · rfl
            · rfl
          · rfl

theorem busy_erase {m : ℕ} {j : String} {runtime : StreamRuntime}
    (h : ({ s with runtime, executions := s.executions.erase n } : StreamSystem).Busy m j) :
    s.Busy m j ∧ m ≠ n := by
  obtain ⟨claim, hget, hid⟩ := h
  rw [Dict.get_erase] at hget
  split at hget
  · obtain h | h := hget
    · cases h
    · cases h
  · rename_i hne
    exact ⟨⟨claim, hget, hid⟩, hne⟩

theorem conclude_move {claim : ClaimRecord} {result : ProviderResult} {stamp : Stamp} {disk : Bool}
    (hget : s.executions.get n = some (.claimed claim) ∨ s.executions.get n = some (.called claim)) :
    s.Move l (s.concludeStep n claim result stamp disk) := by
  have hpreviews : (s.concludeStep n claim result stamp disk).runtime.previews = s.runtime.previews :=
    conclude_previews claim.action stamp _ disk
  have hfree (j : String) (hj : (s.concludeStep n claim result stamp disk).Free j) : s.Free j := by
    obtain ⟨ticket, hmem⟩ := hj
    rw [hpreviews] at hmem
    exact ⟨ticket, hmem⟩
  obtain hsuffix | hentry := conclude_entry (r := s.runtime) claim.action claim.request.requestId stamp
    (s.runtime.call claim.action claim.request.params result) disk
  · exact .quiet rfl hfree (fun m j h => (busy_erase h).1) hsuffix
  · exact .conclude n claim.request.requestId rfl ⟨claim, hget, rfl⟩ hfree (fun m j h => busy_erase h) hentry

theorem claim_move {request : ExecuteRequest} {action : StreamAction} {stamp : Stamp} {disk : Bool} :
    s.Move l (s.claimStep casefold n request action stamp disk) := by
  unfold StreamSystem.claimStep
  split
  · rename_i e runtime hclaim
    refine .quiet rfl (fun id h => ?_) (fun m j h => (busy_erase h).1) (claim_error_actions hclaim)
    obtain ⟨ticket, hmem⟩ := h
    exact ⟨ticket, claim_error hclaim _ hmem⟩
  · rename_i ticket runtime hclaim
    obtain ⟨⟨hmem, -⟩, hpreviews, -⟩ := claim_ok hclaim
    obtain ⟨hshort, kept, hsuffix, hactions⟩ := claim_ok_actions hclaim
    refine .claim n request.requestId hshort rfl ⟨ticket, hmem⟩ (fun j hj => ?_) (fun m j hj => ?_)
      ⟨kept, _, hsuffix, hactions, rfl, rfl⟩
    · obtain ⟨found, hfound⟩ := hj
      obtain ⟨hold, hne⟩ := hpreviews _ hfound
      exact ⟨⟨found, hold⟩, hne⟩
    · obtain ⟨claim, hget, hid⟩ := hj
      rw [Dict.get_set] at hget
      split at hget
      · rename_i heq
        obtain hnew | hnew := hget
        · obtain rfl := Execution.claimed.inj (Option.some.inj hnew)
          exact Or.inr ⟨heq, hid.symm⟩
        · cases hnew
      · exact Or.inl ⟨claim, hget, hid⟩

theorem cross_move {claim : ClaimRecord} (hget : s.executions.get n = some (.claimed claim))
    (hstep : s.crossStep n claim = some s') : s.Move l s' := by
  obtain ⟨request, -, rfl⟩ := Option.map_eq_some_iff.mp hstep
  refine .quiet rfl (fun _ h => h) (fun m j h => ?_) List.suffix_rfl
  obtain ⟨claim', hget', hid⟩ := h
  rw [Dict.get_set] at hget'
  split at hget'
  · rename_i heq
    obtain hnew | hnew := hget'
    · cases hnew
    · obtain rfl := Execution.called.inj (Option.some.inj hnew)
      rw [heq]
      exact ⟨_, Or.inl hget, hid⟩
  · exact ⟨claim', hget', hid⟩

theorem quiet_move (hissued : s'.issued = s.issued)
    (hpreviews : ∀ e ∈ s'.runtime.previews, e ∈ s.runtime.previews)
    (hactions : s'.runtime.actions = s.runtime.actions)
    (hexecutions : ∀ m e, s'.executions.get m = some e → s.executions.get m = some e ∨
      ∃ request action, e = .looked request action) : s.Move l s' := by
  refine .quiet hissued (fun id h => ?_) (fun m j h => ?_) (hactions ▸ List.suffix_rfl)
  · obtain ⟨ticket, hmem⟩ := h
    exact ⟨ticket, hpreviews _ hmem⟩
  · obtain ⟨claim, hget, hid⟩ := h
    refine ⟨claim, ?_, hid⟩
    obtain hclaimed | hcalled := hget
    · obtain hold | ⟨request, action, hnew⟩ := hexecutions m _ hclaimed
      · exact Or.inl hold
      · cases hnew
    · obtain hold | ⟨request, action, hnew⟩ := hexecutions m _ hcalled
      · exact Or.inr hold
      · cases hnew

theorem stream_step_move (hstep : StreamStep casefold s l s') : s.Move l s' := by
  have hkept : ∀ m e, s.executions.get m = some e → s.executions.get m = some e ∨
      ∃ request action, e = .looked request action := fun _ _ he => Or.inl he
  cases l with
  | tick now =>
    simp only [StreamStep, StreamSystem.next] at hstep
    split at hstep
    · obtain rfl := Option.some.inj hstep
      exact quiet_move rfl (fun _ he => he) rfl hkept
    · cases hstep
  | preview hex action params =>
    simp only [StreamStep, StreamSystem.next] at hstep
    split at hstep
    · cases hstep
    · rename_i hnew
      split at hstep
      · obtain rfl := Option.some.inj hstep
        exact quiet_move rfl (fun _ he => he) rfl hkept
      · split at hstep
        · obtain rfl := Option.some.inj hstep
          exact quiet_move rfl (fun _ he => he) rfl hkept
        · rename_i runtime hpreview
          obtain rfl := Option.some.inj hstep
          refine .issue (StreamSystem.previewId hex) hnew ⟨hex, action, params, rfl, rfl⟩ rfl (fun j hj => ?_)
            (fun _ _ h => h) (preview_actions hpreview)
          obtain ⟨ticket, hmem⟩ := hj
          obtain hold | heq := preview_spec hpreview _ hmem
          · exact Or.inl ⟨ticket, hold⟩
          · exact Or.inr (Prod.mk.inj heq).1
  | execute n request =>
    have hpreviews : ∀ e ∈ (s.runtime.look request s.clock).2.previews, e ∈ s.runtime.previews :=
      (look_spec request).2
    have hactions := look_actions s.runtime request s.clock
    simp only [StreamStep, StreamSystem.next] at hstep
    split at hstep
    · cases hstep
    · split at hstep
      · rename_i e runtime hlook
        obtain rfl := Option.some.inj hstep
        rw [hlook] at hpreviews hactions
        exact quiet_move rfl hpreviews hactions hkept
      · rename_i action runtime hlook
        obtain rfl := Option.some.inj hstep
        rw [hlook] at hpreviews hactions
        refine quiet_move rfl hpreviews hactions fun m e hm => ?_
        rw [Dict.get_set] at hm
        split at hm
        · exact Or.inr ⟨request, action, (Option.some.inj hm).symm⟩
        · exact Or.inl hm
  | claim n stamp disk =>
    simp only [StreamStep, StreamSystem.next] at hstep
    split at hstep
    · obtain rfl := Option.some.inj hstep
      exact claim_move
    · cases hstep
  | cross n =>
    simp only [StreamStep, StreamSystem.next] at hstep
    split at hstep
    · rename_i claim hget
      exact cross_move hget hstep
    · cases hstep
  | conclude n result stamp disk =>
    simp only [StreamStep, StreamSystem.next] at hstep
    split at hstep
    · rename_i claim hget
      obtain rfl := Option.some.inj hstep
      exact conclude_move (Or.inr hget)
    · rename_i claim hget
      split at hstep
      · obtain rfl := Option.some.inj hstep
        exact conclude_move (Or.inl hget)
      · cases hstep
    · cases hstep
  | takeover enabled =>
    obtain rfl := Option.some.inj hstep
    exact quiet_move rfl (fun _ he => he) rfl hkept
  | revoke =>
    obtain rfl := Option.some.inj hstep
    exact quiet_move rfl (fun _ he => he) rfl hkept
  | resetRevocation =>
    obtain rfl := Option.some.inj hstep
    exact quiet_move rfl (fun _ he => he) rfl hkept
  | configure config =>
    obtain rfl := Option.some.inj hstep
    exact quiet_move rfl (fun _ he => he) rfl hkept

end Moves

/-! ## Audits along a run -/

/-- A preview draws an id that no entry has, as `uuid4` does. -/
def StreamLabel.fresh (l : StreamLabel) (actions : List AuditEntry) : Bool :=
  match l with
  | .preview hex _ _ => actions.all (fun e => e.requestId ≠ StreamSystem.previewId hex)
  | _ => true

def FreshStep (casefold : String → String) (s : StreamSystem) (l : StreamLabel) (s' : StreamSystem) : Prop :=
  StreamStep casefold s l s' ∧ l.fresh s.runtime.actions = true

/-- What fresh steps keep: a ticket has one request at most, a free ticket has no entries, and
one that a request holds has no outcome yet. -/
structure StreamSystem.Tallied (s : StreamSystem) : Prop where
  custody : Custody s.Free s.Busy []
  free : ∀ id, s.Free id → id ∈ s.issued.map Prod.fst ∧ s.audit id = []
  busy : ∀ n id, s.Busy n id → id ∈ s.issued.map Prod.fst ∧ id.length ≤ 160 ∧
    ∀ e ∈ s.audit id, e.status = .sending

/-- A ticket that is neither free nor in a request's hands. -/
structure StreamSystem.Ended (s : StreamSystem) (id : String) : Prop where
  issued : id ∈ s.issued.map Prod.fst
  free : ¬ s.Free id
  busy : ∀ n, ¬ s.Busy n id

section Tally

variable {casefold : String → String} {s s' : StreamSystem} {l : StreamLabel} {n : ℕ} {id : String}

theorem audit_suffix (h : s'.runtime.actions <:+ s.runtime.actions) : s'.audit id <:+ s.audit id :=
  h.filter _

theorem audit_entry {kept : List AuditEntry} {entry : AuditEntry} (hkept : kept <:+ s.runtime.actions)
    (hactions : s'.runtime.actions = kept ++ [entry]) :
    (entry.requestId ≠ id → s'.audit id <:+ s.audit id) ∧
      (entry.requestId = id → ∃ before, before <:+ s.audit id ∧ s'.audit id = before ++ [entry]) := by
  have hbefore : kept.filter (fun e => e.requestId = id) <:+ s.audit id := hkept.filter _
  unfold StreamSystem.audit
  rw [hactions, List.filter_append]
  refine ⟨fun hne => ?_, fun heq => ⟨_, hbefore, ?_⟩⟩
  · rw [List.filter_singleton, decide_eq_false hne, cond_false, List.append_nil]
    exact hbefore
  · rw [List.filter_singleton, decide_eq_true heq, cond_true]

theorem ended_step (h : s.Ended id) (hstep : StreamStep casefold s l s') :
    s'.Ended id ∧ s'.audit id <:+ s.audit id := by
  obtain ⟨hissued, hfree, hbusy⟩ := h
  obtain ⟨issued, free, busy, actions⟩ | ⟨j, new, -, issued, free, busy, actions⟩ |
    ⟨m, j, -, issued, was, free, busy, actions⟩ | ⟨m, j, issued, was, free, busy, actions⟩ :=
      stream_step_move hstep
  · refine ⟨⟨by rw [issued]; exact hissued, fun h => hfree (free id h), fun m h => hbusy m (busy m id h)⟩, ?_⟩
    exact audit_suffix actions
  · refine ⟨⟨?_, fun h => ?_, fun m h => hbusy m (busy m id h)⟩, audit_suffix (actions ▸ List.suffix_rfl)⟩
    · rw [issued]
      exact List.mem_cons_of_mem _ hissued
    · obtain hold | rfl := free id h
      · exact hfree hold
      · exact new hissued
  · obtain ⟨kept, entry, hkept, hactions, hentry, -⟩ := actions
    have hne : id ≠ j := fun heq => hfree (heq ▸ was)
    refine ⟨⟨by rw [issued]; exact hissued, fun h => hfree (free id h).1, fun m' h => ?_⟩, ?_⟩
    · obtain hold | ⟨-, heq⟩ := busy m' id h
      · exact hbusy m' hold
      · exact hne heq
    · exact (audit_entry hkept hactions).1 (by rw [hentry]; exact hne.symm)
  · obtain ⟨kept, entry, hkept, hactions, hentry⟩ := actions
    have hne : id ≠ j := fun heq => hbusy m (heq ▸ was)
    refine ⟨⟨by rw [issued]; exact hissued, fun h => hfree (free id h), fun m' h => hbusy m' (busy m' id h).1⟩, ?_⟩
    exact (audit_entry hkept hactions).1 (by rw [hentry]; exact hne.symm)

theorem ended_run {hist : List StreamLabel} (h : s.Ended id) (hrun : Run (StreamStep casefold) s hist s') :
    s'.audit id <:+ s.audit id := by
  have hboth : s'.Ended id ∧ s'.audit id <:+ s.audit id :=
    hrun.invariant (I := fun t => t.Ended id ∧ t.audit id <:+ s.audit id) ⟨h, List.suffix_rfl⟩
      fun t l t' ⟨hended, hsuffix⟩ hstep => by
        obtain ⟨hended', hsuffix'⟩ := ended_step hended hstep
        exact ⟨hended', hsuffix'.trans hsuffix⟩
  exact hboth.2

theorem start_tallied (clock : ℚ) (runtime : StreamRuntime) : (StreamSystem.start clock runtime).Tallied where
  custody := Custody.start fun n id h => by
    obtain ⟨claim, hget, -⟩ := h
    rcases hget with h | h <;> cases h
  free id h := by
    obtain ⟨ticket, hmem⟩ := h
    cases hmem
  busy n id h := by
    obtain ⟨claim, hget, -⟩ := h
    rcases hget with h | h <;> cases h

theorem fresh_step_tallied (h : s.Tallied) (hstep : FreshStep casefold s l s') : s'.Tallied := by
  obtain ⟨hcustody, hfree, hbusy⟩ := h
  obtain ⟨hstep, hfresh⟩ := hstep
  obtain ⟨issued, free, busy, actions⟩ | ⟨j, new, ⟨hex, action, params, hlabel, hid⟩, issued, free, busy, actions⟩ |
    ⟨m, j, short, issued, was, free, busy, actions⟩ | ⟨m, j, issued, was, free, busy, actions⟩ :=
      stream_step_move hstep
  · refine ⟨hcustody.mono free busy, fun id h => ?_, fun m id h => ?_⟩
    · obtain ⟨hissued, haudit⟩ := hfree id (free id h)
      have hsuffix : s'.audit id <:+ s.audit id := audit_suffix actions
      rw [haudit] at hsuffix
      exact ⟨by rw [issued]; exact hissued, List.suffix_nil.mp hsuffix⟩
    · obtain ⟨hissued, hshort, hsending⟩ := hbusy m id (busy m id h)
      refine ⟨by rw [issued]; exact hissued, hshort, fun e he => hsending e ?_⟩
      exact (audit_suffix actions).subset he
  · have haudit (id : String) : s'.audit id = s.audit id := by
      rw [StreamSystem.audit, actions]
      rfl
    have hnone : s.audit j = [] := by
      refine List.filter_eq_nil_iff.mpr fun e he => ?_
      rw [hlabel] at hfresh
      rw [hid]
      have hne : e.requestId ≠ StreamSystem.previewId hex := of_decide_eq_true (List.all_eq_true.mp hfresh e he)
      rw [decide_eq_true_eq]
      exact hne
    refine ⟨?_, fun id h => ?_, fun m id h => ?_⟩
    · refine (hcustody.issue (fun k hk => new (hbusy k j hk).1) (by simp) free).mono (fun _ h => h) busy
    · rw [issued, haudit]
      obtain hold | rfl := free id h
      · obtain ⟨hissued, hempty⟩ := hfree id hold
        exact ⟨List.mem_cons_of_mem _ hissued, hempty⟩
      · exact ⟨List.mem_cons_self, hnone⟩
    · rw [issued, haudit]
      obtain ⟨hissued, hshort, hsending⟩ := hbusy m id (busy m id h)
      exact ⟨List.mem_cons_of_mem _ hissued, hshort, hsending⟩
  · obtain ⟨kept, entry, hkept, hactions, hentry, hstatus⟩ := actions
    obtain ⟨hj, hempty⟩ := hfree j was
    refine ⟨hcustody.take was free busy, fun id h => ?_, fun m' id h => ?_⟩
    · obtain ⟨hold, hne⟩ := free id h
      obtain ⟨hissued, haudit⟩ := hfree id hold
      have hsuffix : s'.audit id <:+ s.audit id :=
        (audit_entry hkept hactions).1 (by rw [hentry]; exact hne.symm)
      rw [haudit] at hsuffix
      exact ⟨by rw [issued]; exact hissued, List.suffix_nil.mp hsuffix⟩
    · rw [issued]
      by_cases heq : j = id
      · subst heq
        obtain ⟨before, hbefore, haudit⟩ := (audit_entry hkept hactions).2 hentry
        rw [hempty] at hbefore
        refine ⟨hj, short, fun e he => ?_⟩
        rw [haudit, List.suffix_nil.mp hbefore] at he
        rw [List.mem_singleton.mp he]
        exact hstatus
      · obtain hold | ⟨-, hsame⟩ := busy m' id h
        · obtain ⟨hissued, hshort, hsending⟩ := hbusy m' id hold
          refine ⟨hissued, hshort, fun e he => hsending e ?_⟩
          exact ((audit_entry hkept hactions).1 (by rw [hentry]; exact heq)).subset he
        · exact absurd hsame.symm heq
  · obtain ⟨kept, entry, hkept, hactions, hentry⟩ := actions
    refine ⟨hcustody.mono free fun m' id h => (busy m' id h).1, fun id h => ?_, fun m' id h => ?_⟩
    · obtain ⟨hissued, haudit⟩ := hfree id (free id h)
      have hne : j ≠ id := fun heq => hcustody.free_held id m (free id h) (heq ▸ was)
      have hsuffix : s'.audit id <:+ s.audit id := (audit_entry hkept hactions).1 (by rw [hentry]; exact hne)
      rw [haudit] at hsuffix
      exact ⟨by rw [issued]; exact hissued, List.suffix_nil.mp hsuffix⟩
    · obtain ⟨hold, hother⟩ := busy m' id h
      obtain ⟨hissued, hshort, hsending⟩ := hbusy m' id hold
      -- the request that ended was the only one with its ticket
      have hne : j ≠ id := fun heq => hother (hcustody.holder id m' m hold (heq ▸ was))
      refine ⟨by rw [issued]; exact hissued, hshort, fun e he => hsending e ?_⟩
      exact ((audit_entry hkept hactions).1 (by rw [hentry]; exact hne)).subset he

theorem conclude_ended (h : s.Tallied) {claim : ClaimRecord} (result : ProviderResult) (stamp : Stamp)
    (disk : Bool) (hget : s.executions.get n = some (.called claim)) :
    (s.concludeStep n claim result stamp disk).Ended claim.request.requestId := by
  have hbusy : s.Busy n claim.request.requestId := ⟨claim, Or.inr hget, rfl⟩
  refine ⟨(h.busy n _ hbusy).1, fun hfree => ?_, fun m hm => ?_⟩
  · obtain ⟨ticket, hmem⟩ := hfree
    have hpreviews : (s.concludeStep n claim result stamp disk).runtime.previews = s.runtime.previews :=
      conclude_previews claim.action stamp _ disk
    rw [hpreviews] at hmem
    exact h.custody.free_held _ n ⟨ticket, hmem⟩ hbusy
  · obtain ⟨hold, hne⟩ := busy_erase hm
    exact hne (h.custody.holder _ m n hold hbusy)

end Tally

def freshNext (casefold : String → String) (s : StreamSystem) (l : StreamLabel) : Option StreamSystem :=
  if l.fresh s.runtime.actions then s.next casefold l else none

theorem freshNext_step {casefold : String → String} {s s' : StreamSystem} {l : StreamLabel}
    (h : freshNext casefold s l = some s') : FreshStep casefold s l s' := by
  unfold freshNext at h
  split at h
  · rename_i hfresh
    exact ⟨h, hfresh⟩
  · cases h

def broadcastRun : List StreamLabel :=
  [.preview "a" "stream.broadcast_start" Dict.empty,
    .execute 0 (studioRequest "a" "stream.broadcast_start"), .claim 0 studioStamp true, .cross 0]

/-- OBS starts the stream and answers with `response`. -/
def obsAnswer (response : Frame) : ObsSession where
  dependency := true
  connect := none
  hello := .ok (.json (.obj [("op", .int 0)]))
  identify := none
  identified := .ok (.json (.obj [("op", .int 2)]))
  request := none
  response := .ok response
  close := none

def startedFrame : Frame :=
  .json (.obj [("op", .int 7), ("d", .obj [("requestStatus", .obj [("result", .bool true)]),
    ("responseData", .obj [("outputActive", .bool true)])])])

/-- The answers of OBS to a broadcast that is started and looked at. -/
def obsResult (response : Frame) : ProviderResult where
  effect := obsRequest (fun _ => "") (obsAnswer response) "r"
  verification := obsRequest (fun _ => "") (obsAnswer startedFrame) "r"
  subscriptions := .ok []

def broadcastCrossing : Crossing where
  claim :=
    { request := studioRequest "a" "stream.broadcast_start"
      action := .broadcastStart
      ticket := ⟨.broadcastStart, Dict.empty, 120⟩
      time := 0
      takeover := false
      revoked := false
      hasFile := true
      written := true }
  request := .obs "StartStream" none
  time := 0
  takeover := false
  revoked := false

theorem broadcast_reaches : ∃ s, Run (FreshStep id) (StreamSystem.start 0 studio) broadcastRun.reverse s ∧
    broadcastCrossing ∈ s.crossings ∧ s.executions.get 0 = some (.called broadcastCrossing.claim) ∧
    s.audit broadcastCrossing.requestId =
      [auditEntry .broadcastStart broadcastCrossing.requestId studioStamp .sending none none none] := by
  have hrun : (Run.exec (freshNext id) (StreamSystem.start 0 studio) broadcastRun).map (fun s =>
      (s.crossings, s.executions.get 0, s.audit broadcastCrossing.requestId)) =
        some ([broadcastCrossing], some (.called broadcastCrossing.claim),
          [auditEntry .broadcastStart broadcastCrossing.requestId studioStamp .sending none none none]) := by
    decide +kernel
  obtain ⟨s, hs, hfound⟩ := Option.map_eq_some_iff.mp hrun
  obtain ⟨hcrossings, hcalled, haudit⟩ : s.crossings = [broadcastCrossing] ∧
      s.executions.get 0 = some (.called broadcastCrossing.claim) ∧ s.audit broadcastCrossing.requestId =
        [auditEntry .broadcastStart broadcastCrossing.requestId studioStamp .sending none none none] := by
    simpa using hfound
  refine ⟨s, (Run.of_exec hs).mono fun _ _ _ => freshNext_step, ?_, hcalled, haudit⟩
  rw [hcrossings]
  exact List.mem_singleton_self _

end Streaming
