import Yuizaki.Recovery.Fencing
import Yuizaki.Recovery.Handle

/- Single use of recovery handles.

   A handle may be used through the process or through its marker. The process hands it out
   once. The marker of a tool that is no durable read has no context, and a claim of it is
   finished without a run. The marker of a durable read would have one, but the context
   always has the key `max_tokens`, which `_check_args` takes for a credential, so that such
   a marker is never written. No marker of an issued handle has a context (`Bare`), and the
   durable path runs nothing for it. -/
namespace Recovery

open Plan Transition Dict

/-! ## Uses -/

/-- How often the step of a handle ended successfully. -/
def successes (handle : String) : List HandleEvent → ℕ
  | [] => 0
  | .succeeded h :: hist => (if h = handle then 1 else 0) + successes handle hist
  | _ :: hist => successes handle hist

/-- The events that hand a handle to an execution, run it or end it successfully. -/
def HandleEvent.uses (handle : String) : HandleEvent → Bool
  | .resumed h => h = handle
  | .claimed h _ => h = handle
  | .invoked h => h = handle
  | .succeeded h => h = handle
  | _ => false

/-- At most one execution through the handle ends successfully, and after it every use is
rejected: nothing is retried, claimed or run. -/
def SingleUse (handle : String) (hist : List HandleEvent) : Prop :=
  successes handle hist ≤ 1 ∧
    ∀ newer older, hist = newer ++ .succeeded handle :: older →
      ∀ e ∈ newer, e.uses handle = false

/-! ## Markers without a context -/

theorem checkEntries_secret {wide : String → String} {depth : ℕ} {kvs : List (String × Json)}
    {key : String} {value : Json} (hmem : (key, value) ∈ kvs) (hsecret : secretKey wide key = true) :
    checkEntries wide depth kvs ≠ .ok () := by
  induction kvs with
  | nil => cases hmem
  | cons e rest ih =>
    obtain ⟨k, v⟩ := e
    unfold checkEntries
    split
    · exact fun h => by cases h
    · split
      · exact fun h => by cases h
      · rename_i hk
        have hne : (key, value) ≠ (k, v) := fun heq => by
          cases heq
          exact hk hsecret
        cases checkArgs wide (depth + 1) v with
        | error _ => exact fun h => by cases h
        | ok _ => exact ih ((List.mem_cons.mp hmem).resolve_left hne)

theorem serializeSnapshot_secret (codec : RecoveryCodec) (label : String)
    {kvs : List (String × Json)} {key : String} {value : Json} (hmem : (key, value) ∈ kvs)
    (hsecret : secretKey codec.wide key = true) :
    ∃ message, serializeSnapshot codec label (some (.obj kvs)) = .error message := by
  unfold serializeSnapshot
  dsimp only
  rw [if_neg (fun h => by cases h.2)]
  cases hcheck : checkArgs codec.wide 0 (.obj kvs) with
  | error message => exact ⟨message, rfl⟩
  | ok u =>
    unfold checkArgs at hcheck
    rw [if_neg (by decide)] at hcheck
    split at hcheck
    · cases hcheck
    · exact absurd hcheck (checkEntries_secret hmem hsecret)

theorem maxTokens_secret (wide : String → String) : secretKey wide "max_tokens" = true := by
  have hlower : PyStr.lower wide "max_tokens" = "max_tokens" := by
    unfold PyStr.lower
    rw [if_pos (by decide)]
    decide +kernel
  unfold secretKey
  rw [hlower]
  decide +kernel

theorem snapshot_refused (codec : RecoveryCodec) (ctx : RequestIdentity) (handle : String) :
    ∃ message, serializeSnapshot codec "context" (some (recoveryContextSnapshot ctx handle)) =
      .error message := by
  have hmem : ("max_tokens",
      Json.int (max 1 (min 262144 (if ctx.maxTokens = 0 then 8192 else ctx.maxTokens)))) ∈
      recoveryContextEntries ctx handle := by
    unfold recoveryContextEntries
    simp
  exact serializeSnapshot_secret codec "context" hmem (maxTokens_secret codec.wide)

/-- A store whose markers have no context. -/
def Bare (s : RecoveryStore) : Prop :=
  ∀ handle row, s.get handle = some row → row.contextJson = none

theorem Bare.within {s s' : RecoveryStore} (h : Bare s) (hwithin : Within s' s) : Bare s' :=
  fun handle row hrow => h handle row (hwithin _ _ hrow)

theorem Bare.set {s : RecoveryStore} (h : Bare s) {handle : String} {row : RecoveryRow}
    (hrow : row.contextJson = none) : Bare (s.set handle row) := by
  intro handle' row' hrow'
  rw [Dict.get_set] at hrow'
  split at hrow'
  · cases hrow'
    exact hrow
  · exact h handle' row' hrow'

theorem Bare.mark {s : RecoveryStore} (h : Bare s) (codec : RecoveryCodec) (now : ℚ)
    (handle : String) (args : IssueArgs) : Bare (markHandle codec s now handle args) := by
  unfold markHandle
  cases args.step with
  | none => exact h
  | some step =>
    dsimp only
    unfold put
    split
    · exact h
    · split
      · exact h
      · cases codec.serializeStep step with
        | error _ => exact h
        | ok encoded =>
          dsimp only [bind, Except.bind]
          cases args.durableRead with
          | some ctx =>
            obtain ⟨message, hrefused⟩ := snapshot_refused codec ctx handle
            rw [Option.map_some, hrefused]
            exact h
          | none =>
            dsimp only [Option.map_none, serializeSnapshot, Except.toOption, Option.getD_some]
            split
            · exact h.set rfl
            · split
              · exact h.set rfl
              · exact h

/-! ## What a use does -/

section Use

variable {s s' : HandleState} {handle token : String} {scope : HandleScope}

theorem prune_store (s : HandleState) : Within s.prune.store s.store := filter_within _

theorem prune_registry (s : HandleState) : Within s.prune.registry s.registry :=
  (keepNewest_within _).trans (filter_within _)

theorem take_some {r : LocalHandle} (h : s.take handle scope = (s', some r)) :
    s' = { s with registry := s.registry.erase handle } ∧ s.registry.get handle = some r := by
  unfold HandleState.take at h
  cases hr : s.registry.get handle with
  | none =>
    rw [hr] at h
    cases h
  | some r' =>
    rw [hr] at h
    dsimp only at h
    split at h
    · cases h
    · split at h
      · cases h
      · cases h
        exact ⟨rfl, rfl⟩

theorem take_none (h : s.take handle scope = (s', none)) :
    ∃ store registry, s' = { s with store := store, registry := registry } ∧
      Within store s.store ∧ Within registry s.registry := by
  unfold HandleState.take at h
  cases hr : s.registry.get handle with
  | none =>
    rw [hr] at h
    cases h
    exact ⟨s.store, s.registry, rfl, Within.refl _, Within.refl _⟩
  | some r =>
    rw [hr] at h
    dsimp only at h
    split at h
    · cases h
      exact ⟨_, _, rfl, erase_within _, erase_within _⟩
    · split at h
      · cases h
        exact ⟨s.store, s.registry, rfl, Within.refl _, Within.refl _⟩
      · cases h

theorem readClaim_bare {codec : RecoveryCodec} {row : RecoveryRow} {claim : RecoveryClaim}
    (hrow : row.contextJson = none) (h : readClaim codec handle token row = .ok claim) :
    claim.contextSnapshot = none := by
  unfold readClaim at h
  rw [hrow] at h
  dsimp only [bind, Except.bind, deserializeSnapshot] at h
  split at h
  · cases h
  · split at h
    · cases h
    · cases h
      rfl

/-- Everything a submitted handle can lead to: its registered retry, or a rejection. -/
inductive UseSpec (s : HandleState) (handle : String) : HandleEvent → HandleState → Prop
  | resumed {store : RecoveryStore} {registry : Dict String LocalHandle} {r : LocalHandle}
      (hbare : Bare store) (hregistry : Within registry s.registry)
      (hgone : registry.get handle = none) (hr : s.registry.get handle = some r) :
      UseSpec s handle (.resumed handle)
        { s with store := store, registry := registry,
                 resumes := s.resumes.set handle .running }
  | rejected {store : RecoveryStore} {registry : Dict String LocalHandle}
      (hbare : Bare store) (hregistry : Within registry s.registry) :
      UseSpec s handle (.rejected handle) { s with store := store, registry := registry }

theorem resumeDurable_spec (codec : RecoveryCodec) (s : HandleState) (handle : String)
    (scope : HandleScope) (token : String) (hbare : Bare s.store) :
    UseSpec s handle (s.resumeDurable codec handle scope token).2
      (s.resumeDurable codec handle scope token).1 := by
  have rejected {store : RecoveryStore} (hbare : Bare store) :
      UseSpec s handle (.rejected handle) { s with store := store } :=
    UseSpec.rejected hbare (Within.refl _)
  unfold HandleState.resumeDurable claimRecovery
  rcases takeMarker_cases s.store s.now handle s.executor scope.columns token with
    herror | hnone | htaken
  · obtain ⟨message, hmessage⟩ := herror
    rw [hmessage]
    exact rejected hbare
  · rw [hnone]
    exact rejected hbare
  · obtain ⟨row, hrow, -, htake⟩ := htaken
    have hcontext : (row.claim s.now s.executor token).contextJson = none := hbare handle row hrow
    have hclaimed : Bare (s.store.set handle (row.claim s.now s.executor token)) :=
      hbare.set hcontext
    rw [htake]
    dsimp only
    cases hread : readClaim codec handle token (row.claim s.now s.executor token) with
    | error message => exact rejected hclaimed
    | ok claim =>
      dsimp only [Except.map]
      rw [readClaim_bare hcontext hread]
      dsimp only
      rcases finish_cases codec (s.store.set handle (row.claim s.now s.executor token)) s.now
        handle false s.executor token none (some (errorCode "recovery_context_missing")) with
        herror | hnone | hdone
      · obtain ⟨message, heq⟩ := herror
        rw [heq]
        exact rejected hclaimed
      · rw [hnone.1]
        exact rejected hclaimed
      · obtain ⟨row', completed, hrow', -, heq⟩ := hdone
        rw [heq]
        exact rejected (hclaimed.set (hclaimed handle row' hrow'))

theorem use_spec (codec : RecoveryCodec) (s : HandleState) (handle : String)
    (scope : HandleScope) (token : String) (accepted : Bool) (hbare : Bare s.store) :
    UseSpec s handle (s.use codec handle scope token accepted).2
      (s.use codec handle scope token accepted).1 := by
  have hpruned : Bare s.prune.store := hbare.within (prune_store s)
  unfold HandleState.use
  cases htake : s.prune.take handle scope with
  | mk s' found =>
    cases found with
    | some r =>
      obtain ⟨hs', hr⟩ := take_some htake
      have hgone : (s.prune.registry.erase handle).get handle = none := by
        rw [Dict.get_erase, if_pos rfl]
      have hregistry : Within (s.prune.registry.erase handle) s.registry :=
        (erase_within _).trans (prune_registry s)
      rw [hs']
      dsimp only
      cases accepted with
      | true => exact UseSpec.resumed hpruned hregistry hgone (prune_registry s _ _ hr)
      | false => exact UseSpec.rejected hpruned hregistry
    | none =>
      obtain ⟨store, registry, hs', hstore, hregistry⟩ := take_none htake
      have hregistry' : Within registry s.registry := hregistry.trans (prune_registry s)
      rw [hs']
      dsimp only
      have hspec := resumeDurable_spec codec
        { s.prune with store := store, registry := registry } handle scope token
        (hpruned.within hstore)
      generalize HandleState.resumeDurable codec
        { s.prune with store := store, registry := registry } handle scope token = after at hspec ⊢
      obtain ⟨s', e⟩ := after
      cases hspec with
      | resumed hbare₂ hregistry₂ hgone hr =>
        exact UseSpec.resumed hbare₂ (hregistry₂.trans hregistry') hgone (hregistry' _ _ hr)
      | rejected hbare₂ hregistry₂ =>
        exact UseSpec.rejected hbare₂ (hregistry₂.trans hregistry')

end Use

/-! ## Runs -/

/-- No marker has a context and no durable attempt is under way; a registered handle was not
retried. -/
structure Handles (s : HandleState) : Prop where
  bare : Bare s.store
  idle : ∀ token, s.attempts.get token = none
  registered : ∀ handle r, s.registry.get handle = some r →
    handle ∈ s.issued ∧ s.resumes.get handle = none
  retried : ∀ handle phase, s.resumes.get handle = some phase → handle ∈ s.issued

theorem initial_handles (executor : String) : Handles (HandleState.initial executor) where
  bare := fun _ _ h => by cases h
  idle := fun _ => rfl
  registered := fun _ _ h => by cases h
  retried := fun _ _ h => by cases h

/-- A handle whose step succeeded is not registered and is not being retried. -/
structure Spent (s : HandleState) (handle : String) : Prop where
  issued : handle ∈ s.issued
  gone : s.registry.get handle = none
  still : s.resumes.get handle ≠ some .running

section Steps

variable {codec : RecoveryCodec} {s s' : HandleState} {e : HandleEvent} {handle : String}

theorem Handles.shrink (h : Handles s) {store : RecoveryStore}
    {registry : Dict String LocalHandle} (hbare : Bare store)
    (hregistry : Within registry s.registry) :
    Handles { s with store := store, registry := registry } where
  bare := hbare
  idle := h.idle
  registered := fun id r hr => h.registered id r (hregistry _ _ hr)
  retried := h.retried

theorem Handles.setResume (h : Handles s) (hissued : handle ∈ s.issued)
    (hgone : s.registry.get handle = none) (phase : ResumePhase) :
    Handles { s with resumes := s.resumes.set handle phase } where
  bare := h.bare
  idle := h.idle
  registered := fun id r hr => by
    have hne : id ≠ handle := fun heq => by
      rw [heq, hgone] at hr
      cases hr
    dsimp only
    rw [Dict.get_set_of_ne hne]
    exact h.registered id r hr
  retried := fun id phase' hphase => by
    dsimp only at hphase
    rw [Dict.get_set] at hphase
    split at hphase
    · rename_i heq
      rw [heq]
      exact hissued
    · exact h.retried id phase' hphase

theorem Handles.issue (h : Handles s) (codec : RecoveryCodec) (hnew : handle ∉ s.issued)
    (args : IssueArgs) : Handles (s.issue codec handle args) := by
  have hissued : Handles { s with
      store := markHandle codec s.store s.now handle args
      registry := s.registry.set handle ⟨args.scope, args.expiresAt s.now⟩
      issued := handle :: s.issued } := by
    refine ⟨h.bare.mark codec s.now handle args, h.idle, ?_, ?_⟩
    · intro id r hr
      dsimp only at hr
      rw [Dict.get_set] at hr
      split at hr
      · rename_i heq
        rw [heq]
        refine ⟨List.mem_cons_self, ?_⟩
        cases hres : s.resumes.get handle with
        | none => rfl
        | some phase => exact absurd (h.retried handle phase hres) hnew
      · obtain ⟨hin, hres⟩ := h.registered id r hr
        exact ⟨List.mem_cons_of_mem _ hin, hres⟩
    · exact fun id phase hphase => List.mem_cons_of_mem _ (h.retried id phase hphase)
  exact hissued.shrink (hissued.bare.within (prune_store _)) (prune_registry _)

theorem Handles.running (h : Handles s) (hrunning : s.resumes.get handle = some .running) :
    handle ∈ s.issued ∧ s.registry.get handle = none := by
  refine ⟨h.retried handle _ hrunning, ?_⟩
  cases hr : s.registry.get handle with
  | none => rfl
  | some r =>
    rw [(h.registered handle r hr).2] at hrunning
    cases hrunning

theorem step_handles (h : Handles s) (hstep : HandleStep codec s e s') : Handles s' := by
  cases hstep with
  | issue handle args hnew => exact h.issue codec hnew args
  | use handle scope token accepted hdrawn =>
    have huse := use_spec codec s handle scope token accepted h.bare
    generalize s.use codec handle scope token accepted = after at huse ⊢
    obtain ⟨s', e⟩ := after
    cases huse with
    | resumed hbare hregistry hgone hr =>
      exact (h.shrink hbare hregistry).setResume (h.registered handle _ hr).1 hgone .running
    | rejected hbare hregistry => exact h.shrink hbare hregistry
  | resumeEnds hrunning success =>
    exact h.setResume (h.running hrunning).1 (h.running hrunning).2 _
  | decline ha _ _ => exact absurd ha (by rw [h.idle]; exact fun heq => by cases heq)
  | invoke ha _ => exact absurd ha (by rw [h.idle]; exact fun heq => by cases heq)
  | attemptEnds ha _ _ => exact absurd ha (by rw [h.idle]; exact fun heq => by cases heq)
  | record ha _ _ _ => exact absurd ha (by rw [h.idle]; exact fun heq => by cases heq)
  | abandon =>
    exact ⟨h.bare, fun token => (erase_within _).none (h.idle token), h.registered, h.retried⟩
  | restart executor =>
    refine ⟨h.bare, fun _ => rfl, (fun _ _ hr => by cases hr), fun id phase hphase => ?_⟩
    exact h.retried id phase (filter_within _ _ _ hphase)
  | prune => exact h.shrink (h.bare.within (prune_store s)) (prune_registry s)
  | withdraw id => exact h.shrink h.bare (erase_within _)
  | tick _ => exact ⟨h.bare, h.idle, h.registered, h.retried⟩

theorem success_spent (h : Handles s) (hstep : HandleStep codec s e s')
    (he : e = .succeeded handle) : Spent s' handle := by
  cases hstep with
  | @resumeEnds retried hrunning success =>
    cases success with
    | false => cases he
    | true =>
      cases he
      refine ⟨(h.running hrunning).1, (h.running hrunning).2, ?_⟩
      dsimp only
      rw [Dict.get_set_self]
      exact fun heq => by cases heq
  | attemptEnds ha _ _ => exact absurd ha (by rw [h.idle]; exact fun heq => by cases heq)
  | use id scope token accepted hdrawn =>
    have huse := use_spec codec s id scope token accepted h.bare
    generalize s.use codec id scope token accepted = after at huse he
    rw [he] at huse
    cases huse
  | _ => cases he

theorem Spent.shrink (hspent : Spent s handle) {store : RecoveryStore}
    {registry : Dict String LocalHandle} (hregistry : Within registry s.registry) :
    Spent { s with store := store, registry := registry } handle :=
  ⟨hspent.issued, hregistry.none hspent.gone, hspent.still⟩

theorem Spent.setResume (hspent : Spent s handle) {other : String} (hne : handle ≠ other)
    (phase : ResumePhase) : Spent { s with resumes := s.resumes.set other phase } handle := by
  refine ⟨hspent.issued, hspent.gone, ?_⟩
  dsimp only
  rw [Dict.get_set_of_ne hne]
  exact hspent.still

theorem step_spent (h : Handles s) (hspent : Spent s handle) (hstep : HandleStep codec s e s') :
    Spent s' handle ∧ e.uses handle = false := by
  cases hstep with
  | issue new args hnew =>
    have hne : handle ≠ new := fun heq => hnew (heq ▸ hspent.issued)
    refine ⟨⟨List.mem_cons_of_mem _ hspent.issued, (prune_registry _).none ?_, hspent.still⟩, rfl⟩
    dsimp only
    rw [Dict.get_set_of_ne hne]
    exact hspent.gone
  | use id scope token accepted hdrawn =>
    have huse := use_spec codec s id scope token accepted h.bare
    generalize s.use codec id scope token accepted = after at huse ⊢
    obtain ⟨s', e⟩ := after
    cases huse with
    | resumed hbare hregistry hgone hr =>
      have hne : handle ≠ id := fun heq => by
        rw [← heq, hspent.gone] at hr
        cases hr
      exact ⟨(hspent.shrink hregistry).setResume hne .running, decide_eq_false (Ne.symm hne)⟩
    | rejected hbare hregistry => exact ⟨hspent.shrink hregistry, rfl⟩
  | @resumeEnds retried hrunning success =>
    have hne : handle ≠ retried := fun heq => hspent.still (by rw [heq]; exact hrunning)
    refine ⟨hspent.setResume hne _, ?_⟩
    cases success with
    | false => rfl
    | true => exact decide_eq_false (Ne.symm hne)
  | decline ha _ _ => exact absurd ha (by rw [h.idle]; exact fun heq => by cases heq)
  | invoke ha _ => exact absurd ha (by rw [h.idle]; exact fun heq => by cases heq)
  | attemptEnds ha _ _ => exact absurd ha (by rw [h.idle]; exact fun heq => by cases heq)
  | record ha _ _ _ => exact absurd ha (by rw [h.idle]; exact fun heq => by cases heq)
  | abandon => exact ⟨⟨hspent.issued, hspent.gone, hspent.still⟩, rfl⟩
  | restart executor =>
    refine ⟨⟨hspent.issued, rfl, fun heq => ?_⟩, rfl⟩
    exact hspent.still (filter_within _ _ _ heq)
  | prune => exact ⟨hspent.shrink (prune_registry s), rfl⟩
  | withdraw id => exact ⟨hspent.shrink (erase_within _), rfl⟩
  | tick _ => exact ⟨⟨hspent.issued, hspent.gone, hspent.still⟩, rfl⟩

end Steps

theorem successes_zero {handle : String} {hist : List HandleEvent}
    (h : .succeeded handle ∉ hist) : successes handle hist = 0 := by
  induction hist with
  | nil => rfl
  | cons e rest ih =>
    have hrest := ih (fun hin => h (List.mem_cons_of_mem _ hin))
    cases e with
    | succeeded id =>
      have hne : id ≠ handle := fun heq => h (by rw [heq]; exact List.mem_cons_self)
      rw [successes, if_neg hne, hrest]
    | _ => exact hrest

theorem successes_cons {handle : String} {e : HandleEvent} {hist : List HandleEvent}
    (h : e.uses handle = false) : successes handle (e :: hist) = successes handle hist := by
  cases e with
  | succeeded id => rw [successes, if_neg (of_decide_eq_false h), Nat.zero_add]
  | _ => rfl

/-- What a run keeps: the handles, the single use of each, and that a success spends. -/
structure RunSingle (handle : String) (hist : List HandleEvent) (s : HandleState) : Prop where
  handles : Handles s
  single : SingleUse handle hist
  spent : .succeeded handle ∈ hist → Spent s handle

theorem next_single {codec : RecoveryCodec} {handle : String} {hist : List HandleEvent}
    {s s' : HandleState} {e : HandleEvent} (h : RunSingle handle hist s)
    (hstep : HandleStep codec s e s') : RunSingle handle (e :: hist) s' := by
  have hhandles := step_handles h.handles hstep
  by_cases hin : .succeeded handle ∈ hist
  · -- the handle is spent, so the step is about something else
    obtain ⟨hspent, hother⟩ := step_spent h.handles (h.spent hin) hstep
    refine ⟨hhandles, ⟨by rw [successes_cons hother]; exact h.single.1, ?_⟩, fun _ => hspent⟩
    intro newer older heq e' he'
    cases newer with
    | nil => cases he'
    | cons e₀ newer =>
      obtain ⟨he₀, hrest⟩ := List.cons.inj heq
      rcases List.mem_cons.mp he' with hnew | hold
      · rw [hnew, ← he₀]
        exact hother
      · exact h.single.2 newer older hrest e' hold
  · have hzero : successes handle hist = 0 := successes_zero hin
    by_cases he : e = .succeeded handle
    · refine ⟨hhandles, ⟨?_, ?_⟩, fun _ => success_spent h.handles hstep he⟩
      · rw [he, successes, if_pos rfl, hzero]
      · intro newer older heq e' he'
        cases newer with
        | nil => cases he'
        | cons e₀ newer =>
          obtain ⟨-, hrest⟩ := List.cons.inj heq
          exact absurd (by rw [hrest]; exact List.mem_append_right _ List.mem_cons_self) hin
    · have hnone : .succeeded handle ∉ e :: hist := fun hmem =>
        (List.mem_cons.mp hmem).elim (fun heq => he heq.symm) hin
      refine ⟨hhandles, ⟨?_, ?_⟩, fun hmem => absurd hmem hnone⟩
      · rw [successes_zero hnone]
        exact Nat.zero_le 1
      · intro newer older heq
        exact absurd (by rw [heq]; exact List.mem_append_right _ List.mem_cons_self) hnone

/-- In every run, every handle is used once: at most one execution through it ends
successfully, and once one has, it is neither retried nor claimed nor run again. -/
theorem handle_single_use (codec : RecoveryCodec) {executor : String} {hist : List HandleEvent}
    {s : HandleState} (hrun : Run (HandleStep codec) (HandleState.initial executor) hist s)
    (handle : String) : SingleUse handle hist := by
  have hstart : RunSingle handle [] (HandleState.initial executor) :=
    ⟨initial_handles executor, ⟨Nat.zero_le 1, fun newer older heq => by
      cases newer <;> cases heq⟩, fun hin => by cases hin⟩
  have hend : RunSingle handle hist s :=
    hrun.history hstart (fun _ _ _ _ h hstep => next_single h hstep)
  exact hend.single

/-! A durable read that failed, is resumed in the process and then asked for again. -/

def readTurn : HandleScope := ⟨"home", "chat", "turn-1", "read"⟩

def readIssue : IssueArgs where
  step := some readStep
  scope := readTurn
  planHash := none
  durableRead := some ⟨"sid-1", "home", "chat", "req-1", "turn-1", "gen-1", 0, .int 1, "", 8192, "",
    "companion"⟩
  ttlSeconds := 900

def issuedState : HandleState := (HandleState.initial "first").issue readCodec "rh" readIssue

def resumedState : HandleState := (issuedState.use readCodec "rh" readTurn "a1" true).1

def succeededState : HandleState :=
  { resumedState with resumes := resumedState.resumes.set "rh" .succeeded }

def reusedState : HandleState := (succeededState.use readCodec "rh" readTurn "b2" true).1

/-- After the retry the handle is rejected. -/
theorem handle_single_use_resumed :
    SingleUse "rh" [.rejected "rh", .succeeded "rh", .resumed "rh", .issued "rh"] := by
  have hresumed : HandleStep readCodec issuedState (.resumed "rh") resumedState := by
    have hlabel : (issuedState.use readCodec "rh" readTurn "a1" true).2 = .resumed "rh" := by
      decide +kernel
    rw [← hlabel]
    exact HandleStep.use "rh" readTurn "a1" true (And.intro (by decide +kernel) (by decide +kernel))
  have hsucceeded : HandleStep readCodec resumedState (.succeeded "rh") succeededState := by
    have hrunning : resumedState.resumes.get "rh" = some .running := by decide +kernel
    exact HandleStep.resumeEnds hrunning true
  have hrejected : HandleStep readCodec succeededState (.rejected "rh") reusedState := by
    have hlabel : (succeededState.use readCodec "rh" readTurn "b2" true).2 = .rejected "rh" := by
      decide +kernel
    rw [← hlabel]
    exact HandleStep.use "rh" readTurn "b2" true (And.intro (by decide +kernel) (by decide +kernel))
  have hissued : HandleStep readCodec (HandleState.initial "first") (.issued "rh") issuedState :=
    HandleStep.issue "rh" readIssue (by decide)
  have hrun := (((Run.start.next hissued).next hresumed).next hsucceeded).next hrejected
  exact handle_single_use readCodec hrun "rh"

end Recovery
