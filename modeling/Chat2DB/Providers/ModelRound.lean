import Chat2DB.Agent.Messages
import Chat2DB.Base.Transducer

/-! # One round of the model

A provider answers with a stream of server-sent events. An assembler turns them into
events that do not depend on the provider, and the runner makes one message of the
assistant out of these. The runner takes a round only whole: one completion, at the end,
that fits the calls that came before it.
-/

namespace Chat2DB.Providers

open Agent (AgentError ArgumentLimits Message MessageBlock ProviderContinuation
  ProviderContinuationPlacement ProviderKind ProviderToolCallIdentity ToolCall validateArgumentSize)

variable {J : Type}

/-! ## What providers say -/

inductive StopReason where
  | stop
  | toolCalls
  | length
  | contentFilter
  | other (reason : String)
deriving DecidableEq

def statusReason (value : String) : StopReason :=
  if value = "stop" ∨ value = "STOP" ∨ value = "end_turn" then .stop
  else if value = "tool_calls" ∨ value = "tool_use" then .toolCalls
  else if value = "length" ∨ value = "MAX_TOKENS" ∨ value = "max_tokens" then .length
  else if value = "content_filter" ∨ value = "SAFETY" ∨ value = "BLOCKLIST" ∨
      value = "PROHIBITED_CONTENT" then .contentFilter
  else .other value

structure Usage where
  inputTokens : Nat
  outputTokens : Nat
  totalTokens : Nat
deriving DecidableEq

def Usage.none : Usage := { inputTokens := 0, outputTokens := 0, totalTokens := 0 }

def u64Max : Nat := 2 ^ 64 - 1

def Usage.merge (usage newer : Usage) : Usage :=
  let input := max usage.inputTokens newer.inputTokens
  let output := max usage.outputTokens newer.outputTokens
  { inputTokens := input
    outputTokens := output
    totalTokens := max (max usage.totalTokens newer.totalTokens) (min (input + output) u64Max) }

def Usage.accumulate (usage completedRound : Usage) : Usage :=
  { inputTokens := min (usage.inputTokens + completedRound.inputTokens) u64Max
    outputTokens := min (usage.outputTokens + completedRound.outputTokens) u64Max
    totalTokens := min (usage.totalTokens + completedRound.totalTokens) u64Max }

inductive ProviderEvent (J : Type) where
  | textDelta (text : String)
  | toolCall (call : ToolCall J)
  | providerContinuation (continuation : ProviderContinuation)
  | usage (usage : Usage)
  | completed (reason : StopReason)
deriving DecidableEq

inductive ProviderError where
  | cancelled
  | transport (provider : ProviderKind) (message : String)
  | responseTooLarge (provider : ProviderKind) (limit : Nat)
  | remote (provider : ProviderKind) (code message : String)
  | protocol (provider : ProviderKind) (message : String)
deriving DecidableEq

def debugName : ProviderKind → String
  | .openAi => "OpenAi"
  | .anthropic => "Anthropic"
  | .gemini => "Gemini"

def ProviderError.display : ProviderError → String
  | .cancelled => "provider request was cancelled"
  | .transport provider _ => s!"{debugName provider} transport failed"
  | .responseTooLarge provider limit =>
    s!"{debugName provider} response exceeded the {limit}-byte limit"
  | .remote provider code _ => s!"{debugName provider} rejected the request ({code})"
  | .protocol provider message =>
    s!"{debugName provider} stream violated the protocol: {message}"

/-! ## Arguments of calls -/

def maxToolArgumentBytes : Nat := 64 * 1024

def maxProviderToolCallIdBytes : Nat := 512

def maxProviderContinuationBytes : Nat := 64 * 1024

def maxProviderToolCallsPerResponse : Nat := 8

/-- What is read and written of JSON values. -/
structure JsonReading (J : Type) where
  parse : String → Option J
  serialize : J → String
  isObject : J → Bool
  /-- An object with no member. -/
  isEmptyObject : J → Bool

def ToolCall.new (json : JsonReading J) (id name : String) (arguments : J) :
    Except String (ToolCall J) :=
  if id = "" then .error "tool call id must not be empty"
  else if name = "" then .error "tool name must not be empty"
  else if json.isObject arguments then
    .ok { id := id, name := name, arguments := arguments, providerIdentity := none }
  else .error "tool arguments must be a JSON object"

def ProviderToolCallIdentity.new (provider : ProviderKind) (wireId : Option String) :
    Except String ProviderToolCallIdentity :=
  if wireId.any fun id => id = "" then .error "provider tool-call id must not be empty"
  else if wireId.any fun id => maxProviderToolCallIdBytes < id.utf8ByteSize then
    .error s!"provider tool-call id exceeds {maxProviderToolCallIdBytes} bytes"
  else .ok { provider := provider, wireId := wireId }

def ProviderContinuation.new (provider : ProviderKind) (value : String)
    (placement : ProviderContinuationPlacement) : Except String ProviderContinuation :=
  if value = "" then .error "provider continuation must not be empty"
  else if maxProviderContinuationBytes < value.utf8ByteSize then
    .error s!"provider continuation exceeds {maxProviderContinuationBytes} bytes"
  else .ok { provider := provider, value := value, placement := placement }

/-! ## Streams of events -/

/-- The data of an event: the mark of the end, or what reading it gives. Reading fails on
what is no JSON or has another shape, and with the error that the provider reports. -/
inductive SseData (C : Type) where
  | done
  | data (chunk : Except ProviderError C)

/-- An assembler of a provider's events, from its first state on. -/
structure SseAssembler (J σ ι : Type) extends Transducer σ ι (ProviderEvent J) ProviderError where
  start : σ

/-- The items of the stream, an error being the last one. -/
def decodeSse {σ ι : Type} (assembler : SseAssembler J σ ι) (state : σ) :
    List (Except ProviderError ι) → List (Except ProviderError (ProviderEvent J))
  | [] =>
    match assembler.finish state with
    | .ok events => events.map .ok
    | .error error => [.error error]
  | .error error :: _ => [.error error]
  | .ok event :: source =>
    match assembler.push state event with
    | .ok (next, events) => events.map .ok ++ decodeSse assembler next source
    | .error error => [.error error]

/-! ## The round of the runner -/

structure RoundLimits (J : Type) where
  round : Nat
  arguments : ArgumentLimits J
  toolNames : List String
  /-- Calls of the rounds before. -/
  totalToolCalls : Nat
  maxToolCallsPerRound : Nat
  maxTotalToolCalls : Nat
  maxRoundTextBytes : Nat

structure Round (J : Type) where
  text : String
  calls : List (ToolCall J)
  assistantBlocks : List (MessageBlock J)
  completion : Option StopReason
  roundUsage : Usage
  usedCallIds : List String

def Round.start (usedCallIds : List String) : Round J :=
  { text := "", calls := [], assistantBlocks := [], completion := none, roundUsage := Usage.none,
    usedCallIds := usedCallIds }

/-- A delta goes on with the last block if that is a text. -/
def pushText (delta : String) : List (MessageBlock J) → List (MessageBlock J)
  | [] => [.text delta]
  | [.text previous] => [.text (previous ++ delta)]
  | [block] => [block, .text delta]
  | block :: blocks => block :: pushText delta blocks

def validateModelCall (limits : RoundLimits J) (usedCallIds : List String) (call : ToolCall J) :
    Except AgentError (List String) := do
  Outcome.rejectIf (call.name ∉ limits.toolNames) (.unknownTool call.name)
  validateArgumentSize limits.arguments call
  Outcome.rejectIf (call.id ∈ usedCallIds) (.duplicateToolCall call.id)
  return usedCallIds ++ [call.id]

namespace Round

/-- Takes an event while the round is not completed. -/
def accept (limits : RoundLimits J) (round : Round J) :
    ProviderEvent J → Except AgentError (Round J)
  | .textDelta delta => do
    Outcome.rejectIf
      (limits.maxRoundTextBytes < round.text.utf8ByteSize + delta.utf8ByteSize)
      (.modelTextTooLarge limits.round limits.maxRoundTextBytes)
    return { round with
      text := round.text ++ delta
      assistantBlocks := pushText delta round.assistantBlocks }
  | .toolCall call => do
    let usedCallIds ← validateModelCall limits round.usedCallIds call
    Outcome.rejectIf (round.calls.length = limits.maxToolCallsPerRound)
      (.roundToolLimit limits.round limits.maxToolCallsPerRound)
    Outcome.rejectIf
      (limits.totalToolCalls + round.calls.length = limits.maxTotalToolCalls)
      (.totalToolLimit limits.maxTotalToolCalls)
    return { round with
      usedCallIds := usedCallIds
      assistantBlocks := round.assistantBlocks ++ [.toolCall call]
      calls := round.calls ++ [call] }
  | .providerContinuation continuation =>
    .ok { round with
      assistantBlocks := round.assistantBlocks ++ [.providerContinuation continuation] }
  | .usage usage => .ok { round with roundUsage := round.roundUsage.merge usage }
  | .completed reason => .ok { round with completion := some reason }

def step (limits : RoundLimits J) (round : Round J) (event : ProviderEvent J) :
    Except AgentError (Round J) :=
  match round.completion with
  | none => round.accept limits event
  | some _ =>
    match event with
    | .completed _ => .error .duplicateProviderCompletion
    | _ => .error .inconsistentProviderCompletion

/-- The loop over the stream. -/
def receive (limits : RoundLimits J) (round : Round J) :
    List (Except ProviderError (ProviderEvent J)) → Except AgentError (Round J)
  | [] => .ok round
  | .error error :: _ => .error (.provider error.display)
  | .ok event :: items =>
    match round.step limits event with
    | .ok next => receive limits next items
    | .error error => .error error

/-- The check behind the loop. -/
def complete (round : Round J) : Except AgentError StopReason :=
  match round.completion with
  | none => .error .incompleteProviderStream
  | some reason =>
    if decide (reason = .toolCalls) = round.calls.isEmpty then
      .error .inconsistentProviderCompletion
    else .ok reason

def assistantMessage (round : Round J) : Message J :=
  { role := .assistant, blocks := round.assistantBlocks }

end Round

/-- A round that the runner takes, with its reason. -/
def modelRound {σ ι : Type} (limits : RoundLimits J) (assembler : SseAssembler J σ ι)
    (usedCallIds : List String) (source : List (Except ProviderError ι)) :
    Except AgentError (Round J × StopReason) := do
  let round ← (Round.start usedCallIds).receive limits (decodeSse assembler assembler.start source)
  let reason ← round.complete
  return (round, reason)

end Chat2DB.Providers
