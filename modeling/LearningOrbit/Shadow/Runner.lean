import LearningOrbit.Runs
import LearningOrbit.Shadow.TriggerRuns

/-!
# The runner of the shadow agent

`AgentRunner.execute` holds the runner's own lock from its first step to its return. The
coordinator has another lock, so other callers may come in between any two of its steps; what the
callback and the provider answer is up to them.
-/

namespace LearningOrbit.Shadow

open LearningOrbit (Dict Host)

/-! ## The safety policy -/

inductive SafetyAction
  | allow | warn | hold | redact
  deriving DecidableEq

structure SafetyDecision where
  action : SafetyAction
  policyVersion : String
  reasonCodes : List String
  deriving DecidableEq

def BLOCK_PATTERNS : List (String × List String) :=
  [ ("排名", ["FORBIDDEN_PERSONAL_INFERENCE"]),
    ("心理风险", ["FORBIDDEN_PERSONAL_INFERENCE"]),
    ("心理風險", ["FORBIDDEN_PERSONAL_INFERENCE"]),
    ("system prompt", ["PROMPT_EXFILTRATION"]),
    ("系統指令", ["PROMPT_EXFILTRATION"]) ]

def WARN_PATTERNS : List (String × String) :=
  [("一定是", "UNSUPPORTED_CERTAINTY"), ("肯定是", "UNSUPPORTED_CERTAINTY")]

def evaluateAgentOutput (h : Host) (text policyVersion : String) : SafetyDecision :=
  if Text.strip text = "" then ⟨.hold, policyVersion, ["EMPTY_OUTPUT"]⟩
  else
    let blocked := (BLOCK_PATTERNS.filter fun (needle, _) =>
      Text.isSubstring (h.casefold needle) (h.casefold text)).flatMap (·.2)
    let warned := (WARN_PATTERNS.filter fun (needle, _) => Text.isSubstring needle text).map (·.2)
    if blocked ≠ [] then ⟨.hold, policyVersion, Text.sortedSet blocked⟩
    else ⟨if warned ≠ [] then .warn else .allow, policyVersion, Text.sortedSet warned⟩

/-! ## What is handed to the provider and back -/

structure ContextEvent where
  eventId : String
  roomSeq : Int
  actorId : String
  actorKind : String
  text : String
  sourceEventId : String
  deriving DecidableEq

structure ApprovedArtifact where
  artifactId : String
  sourceEventId : String
  text : String
  derivation : String
  deriving DecidableEq

structure AgentContext where
  roomId : String
  sourceRange : Int × Int
  events : List ContextEvent
  approvedArtifacts : List ApprovedArtifact
  deriving DecidableEq

def AgentContext.rendered (context : AgentContext) : String :=
  let lines := context.events.map fun e =>
    "[" ++ toString e.roomSeq ++ "] " ++ e.actorKind ++ ":" ++ e.actorId ++ " — " ++ e.text
  let approved := context.approvedArtifacts.map fun a => "[" ++ a.sourceEventId ++ "] " ++ a.text
  Text.join "\n" (if approved = [] then lines else lines ++ "Approved evidence:" :: approved)

structure ModelRequest where
  modelId : String
  system : String
  messages : List (String × String)
  maxOutputTokens : Nat
  deriving DecidableEq

structure CandidateResult where
  state : AgentRunState
  text : String
  outputSha256 : Option String
  sourceEventIds : List String
  warningCodes : List String
  failureCode : Option String
  safety : Option SafetyDecision
  deriving DecidableEq

/-- A result with nothing but a state and a code. -/
def CandidateResult.bare (state : AgentRunState) (failureCode : Option String) : CandidateResult where
  state
  text := ""
  outputSha256 := none
  sourceEventIds := []
  warningCodes := []
  failureCode
  safety := none

/-- The arguments of `execute`; of the run it reads the id. -/
structure Execution where
  agentRunId : String
  context : AgentContext
  /-- Whether a callback `cancelled` was passed. -/
  cancellable : Bool
  deriving DecidableEq

/-- Where an execution stands: what it does next. -/
inductive Phase
  /-- `coordinator.get`. -/
  | looking
  /-- `cancelled()`. -/
  | asking
  /-- `coordinator.cancel`, as the callback said so. -/
  | abandoning
  /-- `coordinator.transition` to running. -/
  | starting
  /-- `provider.prepare`. -/
  | preparing (request : ModelRequest)
  /-- `coordinator.transition` to streaming. -/
  | opening
  /-- The next chunk of `provider.open_stream`. -/
  | streaming (chunks : List String)
  /-- `coordinator.cancel`, as the provider was cancelled. -/
  | interrupted (code : String)
  /-- `coordinator.transition` to failed. -/
  | broken (code : String)
  /-- The policy, and the transition it leads to. -/
  | spoken (text : String)
  | returning (result : CandidateResult)
  deriving DecidableEq

/-- The coordinator, the results of the runner, and the execution that holds its lock. -/
structure World where
  modelId : String
  policyVersion : String
  coordinator : AgentTriggerCoordinator
  results : Dict String CandidateResult
  thread : Option (Execution × Phase)
  deriving DecidableEq

inductive Event
  /-- Another caller of the coordinator. -/
  | call (call : Call)
  /-- `execute` takes the lock. -/
  | execute (execution : Execution)
  /-- The execution takes its next step. -/
  | advance
  | answered (cancelled : Bool)
  | prepared
  | chunk (text : String)
  | ended
  /-- `ProviderCancelled`. -/
  | providerCancelled (code : String)
  /-- `ProviderError`. -/
  | providerError (code : String)
  /-- Any other exception of the callback or the provider. -/
  | crashed
  deriving DecidableEq

namespace World

def init (novaActorId modelId policyVersion : String) : World where
  modelId
  policyVersion
  coordinator := .init novaActorId
  results := .empty
  thread := none

def moveTo (w : World) (e : Execution) (phase : Phase) : World :=
  { w with thread := some (e, phase) }

/-- The lock is free again. -/
def release (w : World) : World := { w with thread := none }

/-- Keep the result and return it. -/
def settle (w : World) (e : Execution) (result : CandidateResult) : World :=
  { w with results := w.results.set e.agentRunId result }.moveTo e (.returning result)

def request (w : World) (e : Execution) : ModelRequest where
  modelId := w.modelId
  system := "Ask for evidence; connect views; surface contradictions; " ++
    "summarize without supplying the answer."
  messages := [("user", e.context.rendered)]
  maxOutputTokens := 512

/-- Go on after a call of the coordinator, unless it raised. -/
def afterCall (w : World) (outcome : Except String (AgentTriggerCoordinator × AgentRun))
    (next : World → World) : World :=
  match outcome with
  | .error _ => w.release
  | .ok (coordinator, _) => next { w with coordinator }

/-- The end of an execution whose provider spoke: the transition, and the result. -/
def verdict (h : Host) (w : World) (e : Execution) (text : String) :
    AgentRunState × Option String × CandidateResult :=
  let decision := evaluateAgentOutput h text w.policyVersion
  if decision.action = .hold then
    (.blockedByPolicy, decision.reasonCodes.head?,
      { CandidateResult.bare .blockedByPolicy decision.reasonCodes.head? with
        warningCodes := decision.reasonCodes, safety := some decision })
  else
    (.completed, none,
      { state := .completed, text, outputSha256 := some (h.sha256Hex text)
        sourceEventIds := e.context.events.map (·.eventId), warningCodes := decision.reasonCodes
        failureCode := none, safety := some decision })

/-- One step of the execution that holds the lock. -/
def progress (h : Host) (w : World) (e : Execution) : Phase → Event → World
  | .looking, .advance =>
    match w.coordinator.get e.agentRunId with
    | .error _ => w.release
    | .ok current =>
      if current.state ∈ [.cancelled, .completed, .blockedByPolicy, .failed] then
        w.settle e (.bare current.state current.failureCode)
      else w.moveTo e .asking
  | .asking, .answered cancelled =>
    w.moveTo e (if e.cancellable && cancelled then .abandoning else .starting)
  | .abandoning, .advance =>
    w.afterCall (w.coordinator.cancel e.agentRunId "CANCEL_REQUESTED") fun w =>
      w.settle e (.bare .cancelled (some "CANCEL_REQUESTED"))
  | .starting, .advance =>
    w.afterCall (w.coordinator.transition e.agentRunId .running none) fun w =>
      w.moveTo e (.preparing (w.request e))
  | .preparing _, .prepared => w.moveTo e .opening
  | .opening, .advance =>
    w.afterCall (w.coordinator.transition e.agentRunId .streaming none) fun w =>
      w.moveTo e (.streaming [])
  | .streaming chunks, .chunk text => w.moveTo e (.streaming (chunks ++ [text]))
  | .streaming chunks, .ended => w.moveTo e (.spoken (Text.strip (String.join chunks)))
  | .preparing _, .providerCancelled code | .streaming _, .providerCancelled code =>
    w.moveTo e (.interrupted code)
  | .preparing _, .providerError code | .streaming _, .providerError code => w.moveTo e (.broken code)
  | .interrupted code, .advance =>
    w.afterCall (w.coordinator.cancel e.agentRunId code) fun w =>
      w.settle e (.bare .cancelled (some code))
  | .broken code, .advance =>
    w.afterCall (w.coordinator.transition e.agentRunId .failed (some code)) fun w =>
      w.settle e (.bare .failed (some code))
  | .spoken text, .advance =>
    w.afterCall (w.coordinator.transition e.agentRunId (w.verdict h e text).1
        (w.verdict h e text).2.1) fun w' =>
      w'.settle e (w.verdict h e text).2.2
  | .returning _, .advance => w.release
  | .asking, .crashed | .preparing _, .crashed | .streaming _, .crashed => w.release
  | _, _ => w

def step (h : Host) (w : World) : Event → World
  | .call call => { w with coordinator := w.coordinator.after h call }
  | .execute e =>
    match w.thread with
    | some _ => w
    | none =>
      match w.results.get? e.agentRunId with
      | some existing => w.moveTo e (.returning existing)
      | none => w.moveTo e .looking
  | event =>
    match w.thread with
    | some (e, phase) => w.progress h e phase event
    | none => w

end World

end LearningOrbit.Shadow
