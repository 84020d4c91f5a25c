import Yuizaki.Lib.Hoare
import Yuizaki.Tool.Call

/- The tool loops (`run_tool_loop` and `run_streaming_tool_loop` in
   `modules/agent/tool_loop.py`).

   A loop asks the model, runs the tools that the answer calls and asks again with what came
   of them. Everything outside (the model, the executor, a cancellation, the registry) is a
   function of the state of the world, so that a theorem about every host is one about every
   sequence of answers. An answer is the JSON that it is: calls that are no objects, names
   that no tool has and arguments that cannot be read go the way the code sends them, which is
   often an exception. `effects` lists what was asked for, newest first. -/
namespace Tool

open Events Fallible

/-! ## Budgets -/

/-- The value of a budget: an `int`, or anything else (a `bool` among it). -/
inductive BudgetArg where
  | int (n : ℤ)
  | other

def positiveBudget (value : BudgetArg) (default : ℕ) : ℕ :=
  match value with
  | .int n => (max 0 n).toNat
  | .other => default

/-- The configured budget of `_loop_contract`. -/
structure ConfiguredBudget where
  maxIterations : ℕ
  outputTokens : Option ℤ
  retryBudget : ℕ
  toolBudget : ℕ

/-- The consumed usage of `_loop_contract`. -/
structure ConsumedUsage where
  iterations : ℕ := 0
  outputTokens : ℕ := 0
  retries : ℕ := 0
  toolCalls : ℕ := 0
  attempts : ℕ := 0

def completionTokens (result : List (String × Json)) : ℕ :=
  match result.lookup "usage" with
  | some (.obj usage) =>
    (["completion_tokens", "output_tokens"].findSome? (fun key => match usage.lookup key with
      | some (.int n) => if 0 ≤ n then some n.toNat else none
      | _ => none)).getD 0
  | _ => 0

/-! ## The world -/

/-- What the loops read of a tool result; the error and the content are texts. -/
structure ToolOutcome where
  source : String
  toolName : String
  success : Bool
  outcome : String
  retryable : Bool
  error : Option String
  content : String
  permissionReceipt : Option PermissionReceipt

/-- `_outcome_succeeded`. -/
def ToolOutcome.succeeded (outcome : ToolOutcome) : Bool :=
  outcome.success ∧ outcome.outcome = "known_success"

structure ProviderRuntimeFailure where
  kind : String
  reason : String
  retryable : Bool

/-- What comes of a call of the stream adapter under a cancellation. -/
inductive StreamAnswer where
  | answered (result : Json)
  | cancelled
  | failed (failure : ProviderRuntimeFailure)
  | raised (e : Raised)

/-- What `json.loads` gives. -/
inductive Loaded where
  | value (j : Json)
  | decodeError
  | raised (e : Raised)

/-- Everything outside the loops, as functions of a state of the world. -/
structure LoopHost (ω : Type) where
  dumps : Json → String
  str : Json → String
  loads : String → Loaded
  completeChat : List Json → ω → Except Raised Json × ω
  streamChat : List Json → ω → StreamAnswer × ω
  execute : String → Json → Bool → ω → Except Raised ToolOutcome × ω
  serializeReceipt : PermissionReceipt → Json
  cancelled : ω → Bool × ω
  emit : Option (String → ω → Except Raised Unit × ω)
  definition : String → ω → Option ToolDefinition

inductive LoopEffect where
  | modelCall
  | execution (tool : String) (args : Json) (forceConfirmation : Bool)

def modelCalls (effects : List LoopEffect) : ℕ :=
  effects.countP (fun e => match e with
    | .modelCall => true
    | .execution .. => false)

def executions (effects : List LoopEffect) : ℕ :=
  effects.countP (fun e => match e with
    | .modelCall => false
    | .execution .. => true)

structure LoopState (ω : Type) where
  world : ω
  workingMessages : List Json
  usage : ConsumedUsage := {}
  untrustedMcpSeen : Bool := false
  toolCallsSeen : List Json := []
  stateChangingToolSucceeded : Bool := false
  effects : List LoopEffect := []

/-- What a loop returns: the entries of its answer, with the budgets of the contract. -/
structure LoopResult where
  fields : List (String × Json)
  permissionReceipt : Option PermissionReceipt := none
  configuredBudget : ConfiguredBudget
  consumedUsage : ConsumedUsage
  stopReason : String

inductive LoopEnd where
  | returned (result : LoopResult)
  | raised (e : Raised)

/-- A part of a loop: it may end the loop. -/
abbrev LoopM (ω : Type) := EStateM LoopEnd (LoopState ω)

section Parts

variable {ω α : Type}

def orRaise (x : Except Raised α) : LoopM ω α :=
  match x with
  | .ok a => pure a
  | .error e => throw (.raised e)

def askWorld (f : ω → α × ω) : LoopM ω α :=
  modifyGet fun s => ((f s.world).1, { s with world := (f s.world).2 })

def effect (e : LoopEffect) : LoopM ω Unit := modify fun s => { s with effects := e :: s.effects }

/-- `working_messages.append`. -/
def appendMessage (message : Json) : LoopM ω Unit :=
  modify fun s => { s with workingMessages := s.workingMessages ++ [message] }

/-- `tool_calls_seen.append`. -/
def seeCall (record : Json) : LoopM ω Unit :=
  modify fun s => { s with toolCallsSeen := s.toolCallsSeen ++ [record] }

def withLoopContract (configured : ConfiguredBudget) (usage : ConsumedUsage) (fields : List (String × Json))
    (receipt : Option PermissionReceipt) (stopReason : String) : LoopResult where
  fields := match fields.lookup "stopped_reason" with
    | some _ => fields
    | none => fields ++ [("stopped_reason", if stopReason = "completed" then .null else .str stopReason)]
  permissionReceipt := receipt
  configuredBudget := configured
  consumedUsage := usage
  stopReason := stopReason

def finishLoop (configured : ConfiguredBudget) (fields : LoopState ω → List (String × Json))
    (receipt : Option PermissionReceipt) (stopReason : String) : LoopM ω α := do
  let s ← get
  throw (.returned (withLoopContract configured s.usage (fields s) receipt stopReason))

/-! ## Reading what the model sent -/

/-- The exception of `value.get` where there is no `get`. -/
def noGet : Raised := .ofText "object has no attribute 'get'"

/-- `value.get(key)`. -/
def getKey (value : Json) (key : String) : Except Raised Json :=
  match value with
  | .obj kvs => .ok ((kvs.lookup key).getD .null)
  | _ => .error noGet

/-- `for item in value`. -/
def iterItems (value : Json) : Except Raised (List Json) :=
  match value with
  | .arr xs => .ok xs
  | .obj kvs => .ok (kvs.map (fun e => .str e.1))
  | .str s => .ok (s.toList.map (fun c => .str c.toString))
  | _ => .error (.ofText "object is not iterable")

/-- `str(value or "")`. -/
def strOr (host : LoopHost ω) (value : Json) : String :=
  match Json.or value (.str "") with
  | .str s => s
  | other => host.str other

/-- The function of a call and the name the model gives it. -/
def readFunction (host : LoopHost ω) (call : Json) : Except Raised (Json × String) := do
  let function ← getKey call "function"
  let function := Json.or function (.obj [])
  let name ← getKey function "name"
  pure (function, strOr host name)

/-- An object is seen as JSON only where it is one. -/
def isObject : Json → Bool
  | .obj _ => true
  | _ => false

/-! ## Messages -/

def maxToolResultChars : ℕ := 12000

def boundedToolResultText (text : String) : String :=
  if text.length ≤ maxToolResultChars then text
  else PyStr.textPrefix maxToolResultChars text ++ "\n…[tool result truncated]"

def toolMessage (host : LoopHost ω) (id : Json) (content : List (String × Json)) : Json :=
  .obj [("role", .str "tool"), ("tool_call_id", id), ("content", .str (host.dumps (.obj content)))]

/-- The answer to a call of a tool that the model was not shown. -/
def notExposed : List (String × Json) :=
  [("source", .str "policy:tool_allowlist"), ("trust", .str "untrusted"), ("instruction_authority", .str "none"),
    ("success", .bool false), ("content", .str "tool_not_exposed")]

/-- `outcome.error or outcome.content`. -/
def ToolOutcome.text (outcome : ToolOutcome) : String := (nonEmpty outcome.error).getD outcome.content

/-- The answer to a call that was executed. -/
def executed (outcome : ToolOutcome) (toolName content : String) : List (String × Json) :=
  [("source", .str (outcome.source ++ ":" ++ (if outcome.toolName = "" then toolName else outcome.toolName))),
    ("trust", .str "untrusted"), ("instruction_authority", .str "none"), ("success", .bool outcome.succeeded),
    ("outcome", .str outcome.outcome), ("content", .str content)]

def requiresUntrustedFollowupConfirmation (tool : ToolDefinition) : Bool :=
  if tool.source ≠ .builtin ∧ tool.requireConfirm = false then false else toolMayChangeState tool

def forceConfirmation (host : LoopHost ω) (s : LoopState ω) (toolName : String) : Bool :=
  s.untrustedMcpSeen ∧ (host.definition toolName s.world).any requiresUntrustedFollowupConfirmation = true

/-- `tool_executor.execute`, with what is counted when it comes back. -/
def executeCounted (host : LoopHost ω) (toolName : String) (args : Json) : LoopM ω ToolOutcome := do
  let s ← get
  let forced := forceConfirmation host s toolName
  effect (.execution toolName args forced)
  let answer ← askWorld (host.execute toolName args forced)
  let outcome ← orRaise answer
  modify fun s => { s with
    untrustedMcpSeen := s.untrustedMcpSeen ∨ outcome.source = "mcp"
    usage := { s.usage with
      toolCalls := s.usage.toolCalls + 1
      attempts := s.usage.attempts + 1 } }
  pure outcome

/-- An iteration is counted, and the tokens of its answer. -/
def countIteration : LoopM ω Unit :=
  modify fun s => { s with usage := { s.usage with iterations := s.usage.iterations + 1 } }

def countTokens (result : List (String × Json)) : LoopM ω Unit :=
  modify fun s => { s with
    usage := { s.usage with outputTokens := s.usage.outputTokens + completionTokens result } }

end Parts

section Loops

variable {ω : Type}

/-! ## The loop over text -/

def readArguments (host : LoopHost ω) (function : Json) : Except Raised Json := do
  let raw ← getKey function "arguments"
  match Json.or raw (.str "{}") with
  | .str text => match host.loads text with
    | .value args => .ok args
    | .decodeError => .ok (.obj [])
    | .raised e => .error e
  | _ => .error (.ofText "the JSON object must be str, bytes or bytearray")

def settleOutcome (host : LoopHost ω) (configured : ConfiguredBudget) (outcome : ToolOutcome) : LoopM ω Unit :=
  if outcome.outcome = "unknown_effect" then
    finishLoop configured (fun _ => [("reply", .str ""), ("tool_calls", .arr [.obj [("tool", .str outcome.toolName),
      ("success", .bool false), ("outcome", .str "unknown_effect"), ("retryable", .bool false),
      ("error", (outcome.error.map Json.str).getD .null)]]), ("pet_control", .null),
      ("outcome", .str "unknown_effect"), ("retryable", .bool false)]) none "unknown_effect"
  else match outcome.permissionReceipt with
    | some receipt =>
      if receipt.retryable = false then
        finishLoop configured (fun _ => [("reply", .str ""), ("tool_calls", .arr [.obj [("tool", .str outcome.toolName),
          ("success", .bool false), ("error", (outcome.error.map Json.str).getD .null),
          ("permission_receipt", host.serializeReceipt receipt)]]), ("pet_control", .null),
          ("stopped_reason", .str ("permission_" ++ receipt.decision.text)), ("outcome", .str "known_failure"),
          ("retryable", .bool false)]) (some receipt) ("permission_" ++ receipt.decision.text)
      else pure ()
    | none => pure ()

/-- A call of a tool that the model was shown. -/
def runCall (host : LoopHost ω) (configured : ConfiguredBudget) (call function : Json) (toolName : String) :
    LoopM ω Unit := do
  let args ← orRaise (readArguments host function)
  let outcome ← executeCounted host toolName args
  let id ← orRaise (getKey call "id")
  appendMessage (toolMessage host id (executed outcome toolName (boundedToolResultText outcome.text)))
  settleOutcome host configured outcome

def handleCall (host : LoopHost ω) (configured : ConfiguredBudget) (names : String → Option String) (call : Json) :
    LoopM ω Unit := do
  let s ← get
  if configured.toolBudget ≤ s.usage.toolCalls then
    finishLoop configured (fun _ => [("reply", .str ""), ("tool_calls", .arr []), ("pet_control", .null)]) none
      "tool_budget_exhausted"
  else do
    let read ← orRaise (readFunction host call)
    match names read.2 with
    | none => do
      let id ← orRaise (getKey call "id")
      appendMessage (toolMessage host id notExposed)
    | some toolName => runCall host configured call read.1 toolName

/-- The message of the assistant that goes before what its calls came to. -/
def assistantMessage (result : List (String × Json)) (toolCalls : Json) : Json :=
  .obj ([("role", .str "assistant"), ("content", Json.or ((result.lookup "reply").getD .null) (.str "")),
    ("tool_calls", toolCalls)] ++ (match result.lookup "reasoning_content" with
      | some (.str text) => if text = "" then [] else [("reasoning_content", .str text)]
      | _ => []))

def handleCalls (host : LoopHost ω) (configured : ConfiguredBudget) (names : String → Option String)
    (result : List (String × Json)) (toolCalls : Json) : LoopM ω Unit := do
  appendMessage (assistantMessage result toolCalls)
  let calls ← orRaise (iterItems toolCalls)
  Hoare.each (handleCall host configured names) calls

/-- What is done with an answer of the model. -/
def handleAnswer (host : LoopHost ω) (configured : ConfiguredBudget) (names : String → Option String)
    (result : List (String × Json)) : LoopM ω Unit := do
  countTokens result
  let toolCalls := Json.or ((result.lookup "tool_calls").getD .null) (.arr [])
  if toolCalls.truthy then handleCalls host configured names result toolCalls
  else finishLoop configured (fun _ => result) none "completed"

/-- One round: the model is asked, and what it calls is run. -/
def iteration (host : LoopHost ω) (configured : ConfiguredBudget) (names : String → Option String) :
    LoopM ω Unit := do
  let s ← get
  effect .modelCall
  let answer ← askWorld (host.completeChat s.workingMessages)
  let result ← orRaise answer
  countIteration
  match result with
  | .obj kvs => handleAnswer host configured names kvs
  | _ => throw (.raised noGet)

/-- The arguments of the loops that bound them. -/
structure LoopArgs where
  maxIterations : BudgetArg := .int 3
  maxOutputTokens : Option ℤ := none
  retryBudget : BudgetArg := .int 0
  toolBudget : BudgetArg := .other

def LoopArgs.configured (args : LoopArgs) : ConfiguredBudget :=
  let maxIterations := positiveBudget args.maxIterations 3
  { maxIterations
    outputTokens := args.maxOutputTokens
    retryBudget := positiveBudget args.retryBudget 0
    toolBudget := positiveBudget args.toolBudget (max 1 maxIterations * 8) }

def ended (x : LoopM ω LoopResult) (s : LoopState ω) : LoopEnd × LoopState ω :=
  match x s with
  | .ok result s' => (.returned result, s')
  | .error stop s' => (stop, s')

/-- `run_tool_loop`, from the tools that the model is shown. -/
def runToolLoop (host : LoopHost ω) (args : LoopArgs) (names : String → Option String) (messages : List Json)
    (world : ω) : LoopEnd × LoopState ω :=
  let configured := args.configured
  let loop : LoopM ω LoopResult := do
    Hoare.times (iteration host configured names) configured.maxIterations
    finishLoop configured (fun _ => [("reply", .str "工具循环达到最大迭代次数，已停止。"), ("tool_calls", .arr []),
      ("pet_control", .null)]) none "max_iterations"
  ended loop { world, workingMessages := messages }

/-! ## The loop over a stream -/

/-- `_cancelled_loop_result`, where a cancellation is asked for. -/
def stopIfCancelled (host : LoopHost ω) (configured : ConfiguredBudget) : LoopM ω Unit := do
  let cancelled ← askWorld host.cancelled
  if cancelled then
    finishLoop configured (fun s => [("reply", .str ""), ("tool_calls", .arr s.toolCallsSeen), ("outcome", .str "cancelled"),
      ("retryable", .bool false)]) none "cancelled"
  else pure ()

/-- The reply to a provider that failed. -/
def failureReply (failure : ProviderRuntimeFailure) : String :=
  if failure.reason = "provider_timeout" then "模型响应超时，请稍后重试。"
  else if failure.reason = "provider_request_rejected" then "模型请求未被服务接受，请检查模型配置。"
  else "模型服务暂时不可用，请检查连接后重试。"

/-- The answer where the provider went away after a state was changed. -/
def disconnectedFields (failure : ProviderRuntimeFailure) (calls : List Json) : List (String × Json) :=
  [("reply", .str "模型连接中断；工具可能已执行，请先查看结果后再决定是否重试。"), ("tool_calls", .arr calls),
    ("outcome", .str "unknown_effect"), ("retryable", .bool false),
    ("failure", .obj [("kind", .str failure.kind), ("message", .str "provider_disconnected_after_state_change"),
      ("status", .str "unknown_effect"), ("retryable", .bool false)]),
    ("recovery", .obj [("available", .bool false), ("action", .str "review_tool_result"), ("retryable", .bool false),
      ("confirmation_required", .bool false), ("reason", .str "provider_disconnected_after_state_change")]),
    ("persist_history", .bool false)]

/-- The answer where the provider failed and nothing was changed. -/
def failureFields (failure : ProviderRuntimeFailure) (calls : List Json) : List (String × Json) :=
  [("reply", .str (failureReply failure)), ("tool_calls", .arr calls), ("outcome", .str "failed"),
    ("retryable", .bool failure.retryable),
    ("failure", .obj [("kind", .str failure.kind), ("message", .str failure.reason), ("status", .str "failed"),
      ("retryable", .bool failure.retryable)]),
    ("recovery", .obj [("available", .bool failure.retryable),
      ("action", .str (if failure.retryable then "retry_turn" else "check_provider_settings")),
      ("retryable", .bool failure.retryable), ("confirmation_required", .bool false), ("reason", .str failure.reason)]),
    ("persist_history", .bool false)]

/-- `_provider_runtime_failure_result`. -/
def providerFailed (configured : ConfiguredBudget) (failure : ProviderRuntimeFailure) : LoopM ω Unit := do
  let s ← get
  if s.stateChangingToolSucceeded then
    finishLoop configured (fun s => disconnectedFields failure s.toolCallsSeen) none
      "provider_disconnected_after_state_change"
  else finishLoop configured (fun s => failureFields failure s.toolCallsSeen) none failure.reason

/-- The arguments of a call; what is no object counts as none. -/
def readStreamArguments (host : LoopHost ω) (function : Json) : Except Raised Json := do
  let raw ← getKey function "arguments"
  let args ← match Json.or raw (.obj []) with
    | .str text => match host.loads text with
      | .value args => .ok args
      | .decodeError => .ok (.obj [])
      | .raised e => .error e
    | other => .ok other
  pure (if isObject args then args else .obj [])

def settleStreamOutcome (host : LoopHost ω) (configured : ConfiguredBudget) (outcome : ToolOutcome) :
    LoopM ω Unit :=
  if outcome.outcome = "unknown_effect" then
    finishLoop configured (fun s => [("reply", .str ""), ("tool_calls", .arr s.toolCallsSeen),
      ("outcome", .str "unknown_effect"), ("retryable", .bool false)]) none "unknown_effect"
  else do
    stopIfCancelled host configured
    match outcome.permissionReceipt with
    | some receipt =>
      if receipt.retryable = false then
        finishLoop configured (fun s => [("reply", .str ""), ("tool_calls", .arr s.toolCallsSeen),
          ("outcome", .str "known_failure"), ("retryable", .bool false)]) (some receipt)
          ("permission_" ++ receipt.decision.text)
      else pure ()
    | none => pure ()

def recordOutcome (host : LoopHost ω) (outcome : ToolOutcome) (toolName : String) : LoopM ω Unit :=
  modify fun s => { s with
    toolCallsSeen := s.toolCallsSeen ++ [.obj [("tool", .str toolName), ("success", .bool outcome.succeeded),
      ("outcome", .str outcome.outcome), ("retryable", .bool outcome.retryable),
      ("error", (outcome.error.map Json.str).getD .null)]]
    stateChangingToolSucceeded := s.stateChangingToolSucceeded ∨
      outcome.succeeded = true ∧ (host.definition toolName s.world).any toolMayChangeState = true }

/-- A call of a tool that the model was shown. -/
def runStreamCall (host : LoopHost ω) (configured : ConfiguredBudget) (call function : Json) (toolName : String) :
    LoopM ω Unit := do
  let args ← orRaise (readStreamArguments host function)
  let outcome ← executeCounted host toolName args
  recordOutcome host outcome toolName
  let id ← orRaise (getKey call "id")
  appendMessage (toolMessage host id (executed outcome toolName outcome.text))
  settleStreamOutcome host configured outcome

/-- One call of an answer, where there is budget for it. -/
def dispatchStreamCall (host : LoopHost ω) (configured : ConfiguredBudget) (names : String → Option String)
    (call : Json) : LoopM ω Unit := do
  let s ← get
  if configured.toolBudget ≤ s.usage.toolCalls then
    finishLoop configured (fun s => [("reply", .str ""), ("tool_calls", .arr s.toolCallsSeen)]) none
      "tool_budget_exhausted"
  else do
    let read ← orRaise (readFunction host call)
    match names read.2 with
    | none => do
      seeCall (.obj [("tool", .str read.2), ("success", .bool false), ("error", .str "tool_not_exposed")])
      let id ← orRaise (getKey call "id")
      appendMessage (toolMessage host id notExposed)
    | some toolName => runStreamCall host configured call read.1 toolName

def handleStreamCall (host : LoopHost ω) (configured : ConfiguredBudget) (names : String → Option String)
    (call : Json) : LoopM ω Unit := do
  stopIfCancelled host configured
  dispatchStreamCall host configured names call

/-- The text of an answer is shown while the loop goes on. -/
def emitReply (host : LoopHost ω) (reply : String) : LoopM ω Unit :=
  match host.emit with
  | none => pure ()
  | some emit => if reply = "" then pure () else do
    let answer ← askWorld (emit reply)
    orRaise answer

/-- What is done with an answer of the model. -/
def handleStreamAnswer (host : LoopHost ω) (configured : ConfiguredBudget) (names : String → Option String)
    (result : List (String × Json)) : LoopM ω Unit := do
  countTokens result
  let reply := strOr host ((result.lookup "reply").getD .null)
  emitReply host reply
  let items ← orRaise (iterItems (Json.or ((result.lookup "tool_calls").getD .null) (.arr [])))
  let calls := items.filter isObject
  if calls = [] then
    finishLoop configured (fun s => Json.setEntry result "tool_calls" (.arr s.toolCallsSeen)) none "completed"
  else do
    appendMessage (.obj [("role", .str "assistant"), ("content", .str reply), ("tool_calls", .arr calls)])
    Hoare.each (handleStreamCall host configured names) calls

def handleStreamChat (host : LoopHost ω) (configured : ConfiguredBudget) (names : String → Option String)
    (answer : StreamAnswer) : LoopM ω Unit :=
  match answer with
  | .cancelled => finishLoop configured (fun s => [("reply", .str ""), ("tool_calls", .arr s.toolCallsSeen),
      ("outcome", .str "cancelled"), ("retryable", .bool false)]) none "cancelled"
  | .failed failure => providerFailed configured failure
  | .raised e => throw (.raised e)
  | .answered result => do
    countIteration
    match result with
    | .obj kvs => handleStreamAnswer host configured names kvs
    | _ =>
      finishLoop configured (fun s => [("reply", .str ""), ("tool_calls", .arr s.toolCallsSeen)]) none
        "invalid_stream_adapter_result"

def streamIteration (host : LoopHost ω) (configured : ConfiguredBudget) (names : String → Option String) :
    LoopM ω Unit := do
  stopIfCancelled host configured
  let s ← get
  effect .modelCall
  let answer ← askWorld (host.streamChat s.workingMessages)
  handleStreamChat host configured names answer

/-- `run_streaming_tool_loop`: none where the client does not stream tool calls. -/
def runStreamingToolLoop (host : LoopHost ω) (supported : Bool) (args : LoopArgs) (names : String → Option String)
    (messages : List Json) (world : ω) : Option (LoopEnd × LoopState ω) :=
  if supported = false then none
  else
    let configured := args.configured
    let loop : LoopM ω LoopResult := do
      Hoare.times (streamIteration host configured names) configured.maxIterations
      finishLoop configured (fun s => [("reply", .str ""), ("tool_calls", .arr s.toolCallsSeen)]) none "max_iterations"
    some (ended loop { world, workingMessages := messages })

end Loops

end Tool
