import Yuizaki.Tool.Loop

/- What the tool loops spend.

   A loop ends whatever the model sends, after at most as many questions to the model as it
   has iterations and at most as many executions as its tool budget. The questions are
   counted by the rounds. The executions are counted in the usage when they come back, and
   each is begun only where the usage is below the budget; one that raises is not counted,
   and ends the loop. The parts that neither ask nor execute keep both counts, and the two
   loops are put together from the same parts. -/
namespace Tool

open Hoare

/-- So many questions so far, and every execution counted, at most so many. -/
structure InBudget {ω : Type} (questions tools : ℕ) (s : LoopState ω) : Prop where
  asked : modelCalls s.effects = questions
  counted : executions s.effects = s.usage.toolCalls
  bounded : s.usage.toolCalls ≤ tools

/-- How a loop may end: within both budgets, and an answer tells how many tools it has run. -/
structure EndsInBudget {ω : Type} (questions tools : ℕ) (stop : LoopEnd) (s : LoopState ω) : Prop where
  asked : modelCalls s.effects ≤ questions
  bounded : executions s.effects ≤ tools
  told : ∀ result, stop = .returned result → result.consumedUsage.toolCalls = executions s.effects

section Quiet

variable {ω α : Type} {m n c b : ℕ} {host : LoopHost ω} {configured : ConfiguredBudget}
  {Q : α → LoopState ω → Prop}

theorem InBudget.raised {s : LoopState ω} (h : InBudget m c s) (hm : m ≤ n) (hc : c ≤ b) (e : Raised) :
    EndsInBudget n b (.raised e) s := by
  have hasked := h.asked
  have hcounted := h.counted
  have hbounded := h.bounded
  exact ⟨by omega, by omega, fun result hresult => by cases hresult⟩

variable (hm : m ≤ n) (hc : c ≤ b)
include hm hc

/-! ## Parts that neither ask nor execute -/

theorem orRaise_keeps (x : Except Raised α) :
    Triple (InBudget m c) (orRaise (ω := ω) x) (fun _ => InBudget m c) (EndsInBudget n b) := by
  unfold orRaise
  cases x with
  | ok a => exact Triple.pure fun _ hs => hs
  | error e => exact Triple.throw fun _ hs => hs.raised hm hc e

theorem finishLoop_ends (fields : LoopState ω → List (String × Json)) (receipt : Option PermissionReceipt)
    (reason : String) :
    Triple (InBudget m c) (finishLoop (α := α) configured fields receipt reason) Q (EndsInBudget n b) := by
  refine Triple.get fun s hs => Triple.throw fun s' hs' => ?_
  rw [hs']
  have hasked := hs.asked
  have hcounted := hs.counted
  have hbounded := hs.bounded
  refine ⟨by omega, by omega, fun result hresult => ?_⟩
  obtain rfl := LoopEnd.returned.inj hresult
  exact hs.counted.symm

omit hm hc in
theorem askWorld_keeps (f : ω → α × ω) :
    Triple (InBudget m c) (askWorld f) (fun _ => InBudget m c) (EndsInBudget n b) :=
  Triple.modifyGet fun _ hs => ⟨hs.asked, hs.counted, hs.bounded⟩

omit hm hc in
theorem appendMessage_keeps (message : Json) :
    Triple (InBudget (ω := ω) m c) (appendMessage message) (fun _ => InBudget m c) (EndsInBudget n b) :=
  Triple.modify fun _ hs => ⟨hs.asked, hs.counted, hs.bounded⟩

omit hm hc in
theorem seeCall_keeps (record : Json) :
    Triple (InBudget (ω := ω) m c) (seeCall record) (fun _ => InBudget m c) (EndsInBudget n b) :=
  Triple.modify fun _ hs => ⟨hs.asked, hs.counted, hs.bounded⟩

omit hm hc in
theorem countIteration_keeps :
    Triple (InBudget (ω := ω) m c) countIteration (fun _ => InBudget m c) (EndsInBudget n b) :=
  Triple.modify fun _ hs => ⟨hs.asked, hs.counted, hs.bounded⟩

omit hm hc in
theorem countTokens_keeps (result : List (String × Json)) :
    Triple (InBudget (ω := ω) m c) (countTokens result) (fun _ => InBudget m c) (EndsInBudget n b) :=
  Triple.modify fun _ hs => ⟨hs.asked, hs.counted, hs.bounded⟩

omit hm hc in
theorem recordOutcome_keeps (outcome : ToolOutcome) (toolName : String) :
    Triple (InBudget m c) (recordOutcome host outcome toolName) (fun _ => InBudget m c) (EndsInBudget n b) :=
  Triple.modify fun _ hs => ⟨hs.asked, hs.counted, hs.bounded⟩

theorem settleOutcome_keeps (outcome : ToolOutcome) :
    Triple (InBudget m c) (settleOutcome host configured outcome) (fun _ => InBudget m c) (EndsInBudget n b) := by
  unfold settleOutcome
  refine Triple.ite (fun _ => finishLoop_ends hm hc _ _ _) fun _ => ?_
  cases outcome.permissionReceipt with
  | none => exact Triple.pure fun _ hs => hs
  | some receipt => exact Triple.ite (fun _ => finishLoop_ends hm hc _ _ _) fun _ => Triple.pure fun _ hs => hs

theorem stopIfCancelled_keeps :
    Triple (InBudget m c) (stopIfCancelled host configured) (fun _ => InBudget m c) (EndsInBudget n b) :=
  Triple.bind (askWorld_keeps _) fun _ =>
    Triple.ite (fun _ => finishLoop_ends hm hc _ _ _) fun _ => Triple.pure fun _ hs => hs

theorem settleStreamOutcome_keeps (outcome : ToolOutcome) :
    Triple (InBudget m c) (settleStreamOutcome host configured outcome) (fun _ => InBudget m c)
      (EndsInBudget n b) := by
  unfold settleStreamOutcome
  refine Triple.ite (fun _ => finishLoop_ends hm hc _ _ _) fun _ => ?_
  refine Triple.bind (stopIfCancelled_keeps hm hc) fun _ => ?_
  cases outcome.permissionReceipt with
  | none => exact Triple.pure fun _ hs => hs
  | some receipt => exact Triple.ite (fun _ => finishLoop_ends hm hc _ _ _) fun _ => Triple.pure fun _ hs => hs

theorem providerFailed_ends (failure : ProviderRuntimeFailure) :
    Triple (InBudget m c) (providerFailed configured failure) (fun _ => InBudget (ω := ω) m c) (EndsInBudget n b) := by
  refine Triple.get fun s hs => Triple.conseq (P := InBudget m c) ?_ (fun s' hs' => hs' ▸ hs)
    (fun _ _ h => h) (fun _ _ h => h)
  exact Triple.ite (fun _ => finishLoop_ends hm hc _ _ _) fun _ => finishLoop_ends hm hc _ _ _

theorem emitReply_keeps (reply : String) :
    Triple (InBudget m c) (emitReply host reply) (fun _ => InBudget m c) (EndsInBudget n b) := by
  unfold emitReply
  cases host.emit with
  | none => exact Triple.pure fun _ hs => hs
  | some emit =>
    refine Triple.ite (fun _ => Triple.pure fun _ hs => hs) fun _ => ?_
    exact Triple.bind (askWorld_keeps _) fun answer => orRaise_keeps hm hc answer

end Quiet

/-! ## Asking and executing -/

section Spending

variable {ω : Type} {m n c b : ℕ} {host : LoopHost ω} {configured : ConfiguredBudget}
  {names : String → Option String}

theorem effect_asks :
    Triple (InBudget (ω := ω) m c) (effect .modelCall) (fun _ => InBudget (m + 1) c) (EndsInBudget n b) := by
  refine Triple.modify fun s hs => ⟨?_, ?_, hs.bounded⟩
  · show modelCalls (.modelCall :: s.effects) = m + 1
    rw [← hs.asked]
    exact List.countP_cons_of_pos rfl
  · show executions (.modelCall :: s.effects) = s.usage.toolCalls
    rw [← hs.counted]
    exact List.countP_cons_of_neg (by decide)

/-- An execution is under way: it is listed, and not counted yet. -/
structure Running {ω : Type} (questions tools : ℕ) (s : LoopState ω) : Prop where
  asked : modelCalls s.effects = questions
  listed : executions s.effects = s.usage.toolCalls + 1
  bounded : s.usage.toolCalls ≤ tools

theorem InBudget.run {s : LoopState ω} (h : InBudget m c s) (toolName : String) (args : Json) (forced : Bool) :
    Running m c { s with effects := .execution toolName args forced :: s.effects } := by
  refine ⟨?_, ?_, h.bounded⟩
  · rw [← h.asked]
    exact List.countP_cons_of_neg Bool.false_ne_true
  · show executions (.execution toolName args forced :: s.effects) = s.usage.toolCalls + 1
    rw [← h.counted]
    exact List.countP_cons_of_pos rfl

theorem executeCounted_spends (hm : m ≤ n) (hc : c + 1 ≤ b) (toolName : String) (args : Json) :
    Triple (InBudget m c) (executeCounted host toolName args) (fun _ => InBudget m (c + 1))
      (EndsInBudget n b) := by
  refine Triple.get fun s hs => ?_
  refine Triple.bind (Q := fun _ => Running m c) (Triple.modify fun s' hs' => hs' ▸ hs.run _ _ _) fun _ => ?_
  refine Triple.bind (Q := fun _ => Running m c) (Triple.modifyGet fun s' hs' => ?_) fun answer => ?_
  · exact ⟨hs'.asked, hs'.listed, hs'.bounded⟩
  refine Triple.bind (Q := fun _ => Running m c) ?_ fun outcome => ?_
  · unfold orRaise
    cases answer with
    | ok outcome => exact Triple.pure fun _ hs' => hs'
    | error e =>
      refine Triple.throw fun s' hs' => ?_
      have hasked := hs'.asked
      have hlisted := hs'.listed
      have hbounded := hs'.bounded
      exact ⟨by omega, by omega, fun result hresult => by cases hresult⟩
  refine Triple.bind (Q := fun _ => InBudget m (c + 1)) (Triple.modify fun s' hs' => ?_) fun _ =>
    Triple.pure fun _ hs' => hs'
  exact ⟨hs'.asked, hs'.listed, Nat.succ_le_succ hs'.bounded⟩

/-! ## The loop over text -/

theorem runCall_spends (hm : m ≤ n) (hc : c + 1 ≤ b) (call function : Json) (toolName : String) :
    Triple (InBudget m c) (runCall host configured call function toolName) (fun _ => InBudget m (c + 1))
      (EndsInBudget n b) := by
  have hle : c ≤ b := by omega
  refine Triple.bind (orRaise_keeps hm hle _) fun args => ?_
  refine Triple.bind (executeCounted_spends hm hc _ _) fun outcome => ?_
  refine Triple.bind (orRaise_keeps hm hc _) fun id => ?_
  exact Triple.bind (appendMessage_keeps _) fun _ => settleOutcome_keeps hm hc outcome

theorem InBudget.mono {s : LoopState ω} (h : InBudget m c s) (hc : c ≤ b) : InBudget m b s :=
  ⟨h.asked, h.counted, h.bounded.trans hc⟩

theorem guarded_keeps {stop more : LoopM ω Unit}
    (hstop : Triple (InBudget m b) stop (fun _ => InBudget m b) (EndsInBudget n b))
    (hmore : ∀ c, c + 1 ≤ b → Triple (InBudget m c) more (fun _ => InBudget m (c + 1)) (EndsInBudget n b)) :
    Triple (InBudget m b) (do let s ← get; if b ≤ s.usage.toolCalls then stop else more)
      (fun _ => InBudget m b) (EndsInBudget n b) := by
  refine Triple.get fun s hs => Triple.ite (fun _ => ?_) fun hleft => ?_
  · exact Triple.conseq hstop (fun s' hs' => hs' ▸ hs) (fun _ _ h => h) (fun _ _ h => h)
  · have hroom : s.usage.toolCalls + 1 ≤ b := by omega
    have hstart : InBudget m s.usage.toolCalls s := ⟨hs.asked, hs.counted, Nat.le_refl _⟩
    exact Triple.conseq (hmore s.usage.toolCalls hroom) (fun s' hs' => hs' ▸ hstart)
      (fun _ s' hs' => hs'.mono hroom) (fun _ _ h => h)

theorem handleCall_keeps (hm : m ≤ n) (call : Json) :
    Triple (InBudget m configured.toolBudget) (handleCall host configured names call)
      (fun _ => InBudget m configured.toolBudget) (EndsInBudget n configured.toolBudget) := by
  refine guarded_keeps (finishLoop_ends hm (Nat.le_refl _) _ _ _) fun c hc => ?_
  have hle : c ≤ configured.toolBudget := by omega
  refine Triple.bind (orRaise_keeps hm hle _) fun read => ?_
  cases names read.2 with
  | none =>
    refine Triple.bind (orRaise_keeps hm hle _) fun id => ?_
    exact Triple.conseq (appendMessage_keeps _) (fun _ h => h) (fun _ _ h => h.mono (by omega)) (fun _ _ h => h)
  | some toolName => exact runCall_spends hm hc _ _ _

theorem handleAnswer_keeps (hm : m ≤ n) (result : List (String × Json)) :
    Triple (InBudget m configured.toolBudget) (handleAnswer host configured names result)
      (fun _ => InBudget m configured.toolBudget) (EndsInBudget n configured.toolBudget) := by
  refine Triple.bind (countTokens_keeps _) fun _ => Triple.ite (fun _ => ?_) fun _ => ?_
  · refine Triple.bind (appendMessage_keeps _) fun _ => ?_
    exact Triple.bind (orRaise_keeps hm (Nat.le_refl _) _) fun calls => Triple.each (handleCall_keeps hm) calls
  · exact finishLoop_ends hm (Nat.le_refl _) _ _ _

theorem iteration_asks (hm : m + 1 ≤ n) :
    Triple (InBudget m configured.toolBudget) (iteration host configured names)
      (fun _ => InBudget (m + 1) configured.toolBudget) (EndsInBudget n configured.toolBudget) := by
  refine Triple.get fun s hs => ?_
  refine Triple.bind (Q := fun _ => InBudget (m + 1) configured.toolBudget)
    (Triple.conseq effect_asks (fun s' hs' => hs' ▸ hs) (fun _ _ h => h) (fun _ _ h => h)) fun _ => ?_
  refine Triple.bind (askWorld_keeps _) fun answer => ?_
  refine Triple.bind (orRaise_keeps hm (Nat.le_refl _) _) fun result => ?_
  refine Triple.bind countIteration_keeps fun _ => ?_
  cases result with
  | obj kvs => exact handleAnswer_keeps hm kvs
  | null | bool | int | num | str | arr => exact Triple.throw fun _ hs => hs.raised hm (Nat.le_refl _) _

/-! ## The loop over a stream -/

theorem runStreamCall_spends (hm : m ≤ n) (hc : c + 1 ≤ b) (call function : Json) (toolName : String) :
    Triple (InBudget m c) (runStreamCall host configured call function toolName) (fun _ => InBudget m (c + 1))
      (EndsInBudget n b) := by
  have hle : c ≤ b := by omega
  refine Triple.bind (orRaise_keeps hm hle _) fun args => ?_
  refine Triple.bind (executeCounted_spends hm hc _ _) fun outcome => ?_
  refine Triple.bind (recordOutcome_keeps _ _) fun _ => ?_
  refine Triple.bind (orRaise_keeps hm hc _) fun id => ?_
  exact Triple.bind (appendMessage_keeps _) fun _ => settleStreamOutcome_keeps hm hc outcome

theorem dispatchStreamCall_keeps (hm : m ≤ n) (call : Json) :
    Triple (InBudget m configured.toolBudget) (dispatchStreamCall host configured names call)
      (fun _ => InBudget m configured.toolBudget) (EndsInBudget n configured.toolBudget) := by
  refine guarded_keeps (finishLoop_ends hm (Nat.le_refl _) _ _ _) fun c hc => ?_
  have hle : c ≤ configured.toolBudget := by omega
  refine Triple.bind (orRaise_keeps hm hle _) fun read => ?_
  cases names read.2 with
  | none =>
    refine Triple.bind (seeCall_keeps _) fun _ => ?_
    refine Triple.bind (orRaise_keeps hm hle _) fun id => ?_
    exact Triple.conseq (appendMessage_keeps _) (fun _ h => h) (fun _ _ h => h.mono (by omega)) (fun _ _ h => h)
  | some toolName => exact runStreamCall_spends hm hc _ _ _

theorem handleStreamAnswer_keeps (hm : m ≤ n) (result : List (String × Json)) :
    Triple (InBudget m configured.toolBudget) (handleStreamAnswer host configured names result)
      (fun _ => InBudget m configured.toolBudget) (EndsInBudget n configured.toolBudget) := by
  have hsame : configured.toolBudget ≤ configured.toolBudget := Nat.le_refl _
  refine Triple.bind (countTokens_keeps _) fun _ => ?_
  refine Triple.bind (emitReply_keeps hm hsame _) fun _ => ?_
  refine Triple.bind (orRaise_keeps hm hsame _) fun items => Triple.ite (fun _ => ?_) fun _ => ?_
  · exact finishLoop_ends hm hsame _ _ _
  · refine Triple.bind (appendMessage_keeps _) fun _ => Triple.each (fun call => ?_) _
    exact Triple.bind (stopIfCancelled_keeps hm hsame) fun _ => dispatchStreamCall_keeps hm call

theorem handleStreamChat_keeps (hm : m ≤ n) (answer : StreamAnswer) :
    Triple (InBudget m configured.toolBudget) (handleStreamChat host configured names answer)
      (fun _ => InBudget m configured.toolBudget) (EndsInBudget n configured.toolBudget) := by
  have hsame : configured.toolBudget ≤ configured.toolBudget := Nat.le_refl _
  cases answer with
  | cancelled => exact finishLoop_ends hm hsame _ _ _
  | failed failure => exact providerFailed_ends hm hsame failure
  | raised e => exact Triple.throw fun _ hs => hs.raised hm hsame e
  | answered result =>
    refine Triple.bind countIteration_keeps fun _ => ?_
    cases result with
    | obj kvs => exact handleStreamAnswer_keeps hm kvs
    | null | bool | int | num | str | arr => exact finishLoop_ends hm hsame _ _ _

theorem streamIteration_asks (hm : m + 1 ≤ n) :
    Triple (InBudget m configured.toolBudget) (streamIteration host configured names)
      (fun _ => InBudget (m + 1) configured.toolBudget) (EndsInBudget n configured.toolBudget) := by
  refine Triple.bind (stopIfCancelled_keeps (by omega) (Nat.le_refl _)) fun _ => Triple.get fun s hs => ?_
  refine Triple.bind (Q := fun _ => InBudget (m + 1) configured.toolBudget)
    (Triple.conseq effect_asks (fun s' hs' => hs' ▸ hs) (fun _ _ h => h) (fun _ _ h => h)) fun _ => ?_
  exact Triple.bind (askWorld_keeps _) fun answer => handleStreamChat_keeps hm answer

theorem loop_ends {body : LoopM ω Unit} {fields : LoopState ω → List (String × Json)} {reason : String}
    (hbody : ∀ k, k < n → Triple (InBudget k b) body (fun _ => InBudget (k + 1) b) (EndsInBudget n b))
    (world : ω) (messages : List Json) :
    let loop : LoopM ω LoopResult := do
      times body n
      finishLoop configured fields none reason
    let last := ended loop { world, workingMessages := messages }
    EndsInBudget n b last.1 last.2 := by
  intro loop last
  have hloop : Triple (InBudget 0 b) loop (fun result => EndsInBudget n b (.returned result)) (EndsInBudget n b) :=
    Triple.bind (Triple.times hbody) fun _ => finishLoop_ends (Nat.le_refl _) (Nat.le_refl _) _ _ _
  have hstart : InBudget 0 b ({ world, workingMessages := messages } : LoopState ω) := ⟨rfl, rfl, Nat.zero_le _⟩
  have hend := hloop _ hstart
  show EndsInBudget n b (ended loop _).1 (ended loop _).2
  unfold ended
  cases hrun : loop { world, workingMessages := messages } with
  | ok result s' =>
    rw [hrun] at hend
    exact hend
  | error stop s' =>
    rw [hrun] at hend
    exact hend

end Spending

/-- Both loops end, whatever the model, the executor and everything else outside answer, with at
most as many questions to the model as they have iterations and at most as many executions as
their tool budget; and an answer tells how many tools were run. -/
theorem tool_loops_bounded {ω : Type} (host : LoopHost ω) (args : LoopArgs) (names : String → Option String)
    (messages : List Json) (world : ω) :
    EndsInBudget args.configured.maxIterations args.configured.toolBudget
      (runToolLoop host args names messages world).1 (runToolLoop host args names messages world).2 ∧
    ∀ supported last, runStreamingToolLoop host supported args names messages world = some last →
      EndsInBudget args.configured.maxIterations args.configured.toolBudget last.1 last.2 := by
  refine ⟨loop_ends (fun k hk => iteration_asks hk) world messages, fun supported last hlast => ?_⟩
  unfold runStreamingToolLoop at hlast
  split at hlast
  · cases hlast
  · obtain rfl := Option.some.inj hlast
    exact loop_ends (fun k hk => streamIteration_asks hk) world messages

end Tool
