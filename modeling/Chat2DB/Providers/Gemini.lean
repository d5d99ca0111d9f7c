import Chat2DB.Providers.ModelRound

/-! # The adapter for Gemini

Gemini sends whole parts, some of them signed, and wants signed parts back as they came.
The assembler sends a signature as an event behind the text or the call it was on.
-/

namespace Chat2DB.Providers.Gemini

open Agent (Message MessageBlock ProviderContinuation ProviderContinuationPlacement
  ProviderToolCallIdentity ToolCall firstDuplicate)

variable {J : Type}

/-! ## The wire -/

structure WireFunctionCall (J : Type) where
  id : Option String
  name : String
  args : J
deriving DecidableEq

structure WirePart (J : Type) where
  text : Option String
  thought : Option Bool
  thoughtSignature : Option String
  functionCall : Option (WireFunctionCall J)
deriving DecidableEq

structure Candidate (J : Type) where
  index : Nat
  content : Option (List (WirePart J))
  finishReason : Option String
deriving DecidableEq

structure GeminiChunk (J : Type) where
  candidates : List (Candidate J)
  usageMetadata : Option Usage
deriving DecidableEq

/-! ## The assembler -/

structure GeminiAssembler where
  callIds : List String
  sawToolCall : Bool
  completion : Option StopReason
  done : Bool
  /-- How many ids were made up so far. -/
  drawn : Nat
deriving DecidableEq

def GeminiAssembler.initial : GeminiAssembler :=
  { callIds := [], sawToolCall := false, completion := none, done := false, drawn := 0 }

def protocolError (message : String) : ProviderError := .protocol .gemini message

def geminiContinuation (signature : String) (placement : ProviderContinuationPlacement) :
    Except ProviderError (ProviderEvent J) :=
  match ProviderContinuation.new .gemini signature placement with
  | .ok continuation => .ok (.providerContinuation continuation)
  | .error message => .error (protocolError message)

/-- The continuation of a part that is signed. -/
def continuationOf (signature : Option String) (placement : ProviderContinuationPlacement) :
    Except ProviderError (List (ProviderEvent J)) :=
  match signature with
  | none => .ok []
  | some signature => do
    let event ← geminiContinuation signature placement
    return [event]

/-- The ids of calls that have none on the wire: `uuids n` is the `n`th one drawn. -/
def callId (uuids : Nat → String) (state : GeminiAssembler) (wireId : Option String) :
    String × GeminiAssembler :=
  match wireId with
  | some id => (id, state)
  | none => ("chat2db-gemini-" ++ uuids state.drawn, { state with drawn := state.drawn + 1 })

def pushCall (json : JsonReading J) (uuids : Nat → String) (state : GeminiAssembler)
    (call : WireFunctionCall J) : Except ProviderError (GeminiAssembler × ToolCall J) := do
  Outcome.rejectIf (maxToolArgumentBytes < (json.serialize call.args).utf8ByteSize)
    (protocolError s!"tool call arguments exceed {maxToolArgumentBytes} bytes")
  let (id, state) := callId uuids state call.id
  Outcome.rejectIf (state.callIds.length = maxProviderToolCallsPerResponse)
    (protocolError s!"response exceeds {maxProviderToolCallsPerResponse} tool calls")
  Outcome.rejectIf (id = "" ∨ id ∈ state.callIds)
    (protocolError s!"duplicate or empty tool call id {id}")
  let identity ← (ProviderToolCallIdentity.new .gemini call.id).mapError protocolError
  let toolCall ← (ToolCall.new json id call.name call.args).mapError protocolError
  return ({ state with callIds := state.callIds ++ [id], sawToolCall := true },
    { toolCall with providerIdentity := some identity })

def pushPart (json : JsonReading J) (uuids : Nat → String) (state : GeminiAssembler)
    (part : WirePart J) : Except ProviderError (GeminiAssembler × List (ProviderEvent J)) :=
  if part.thought.getD false then do
    Outcome.rejectIf part.functionCall.isSome
      (protocolError "thought part contains a function call")
    let continuation ← continuationOf part.thoughtSignature .standalonePart
    return (state, continuation)
  else
    match part.text, part.functionCall with
    | some _, some _ =>
      .error (protocolError "candidate part contains multiple content variants")
    | some text, none =>
      if text = "" then do
        let continuation ← continuationOf part.thoughtSignature .standalonePart
        return (state, continuation)
      else do
        let continuation ← continuationOf part.thoughtSignature .attachedToPreviousPart
        return (state, .textDelta text :: continuation)
    | none, some call => do
      let (state, toolCall) ← pushCall json uuids state call
      let continuation ← continuationOf part.thoughtSignature .attachedToPreviousPart
      return (state, .toolCall toolCall :: continuation)
    | none, none => do
      let signature ← Outcome.orThrow part.thoughtSignature
        (protocolError "candidate contains an unknown content part")
      let continuation ← geminiContinuation signature .standalonePart
      return (state, [continuation])

/-- The parts of a candidate, one after the other. -/
def partAssembler (json : JsonReading J) (uuids : Nat → String) :
    Transducer GeminiAssembler (WirePart J) (ProviderEvent J) ProviderError where
  push := pushPart json uuids
  finish := fun _ => .ok []

/-- The reason of a candidate that is the last one. -/
def recordFinish (state : GeminiAssembler) (finishReason : Option String) : GeminiAssembler :=
  match finishReason with
  | none => state
  | some value =>
    let reason := statusReason value
    { state with
      completion :=
        some (if state.sawToolCall && decide (reason = .stop) then .toolCalls else reason) }

def pushCandidate (json : JsonReading J) (uuids : Nat → String) (state : GeminiAssembler)
    (candidate : Candidate J) :
    Except ProviderError (GeminiAssembler × List (ProviderEvent J)) := do
  Outcome.rejectIf state.completion.isSome
    (protocolError "received candidate data after a finish reason")
  Outcome.rejectIf (candidate.index ≠ 0) (protocolError "received a non-zero candidate index")
  let (state, events) ← (partAssembler json uuids).feed state (candidate.content.getD [])
  return (recordFinish state candidate.finishReason, events)

def pushChunk (json : JsonReading J) (uuids : Nat → String) (state : GeminiAssembler)
    (chunk : GeminiChunk J) : Except ProviderError (GeminiAssembler × List (ProviderEvent J)) := do
  Outcome.rejectIf (1 < chunk.candidates.length)
    (protocolError "multiple candidates are not supported")
  let usage := chunk.usageMetadata.toList.map .usage
  match chunk.candidates.head? with
  | none => return (state, usage)
  | some candidate => do
    let (state, events) ← pushCandidate json uuids state candidate
    return (state, usage ++ events)

def push (json : JsonReading J) (uuids : Nat → String) (state : GeminiAssembler) :
    SseData (GeminiChunk J) → Except ProviderError (GeminiAssembler × List (ProviderEvent J))
  | .done => do
    let reason ← Outcome.orThrow state.completion
      (protocolError "[DONE] arrived before a finish reason")
    return ({ state with completion := none, done := true }, [.completed reason])
  | .data chunk => do
    Outcome.rejectIf (state.done = true) (protocolError "received data after a finish reason")
    let chunk ← chunk
    pushChunk json uuids state chunk

def finish (state : GeminiAssembler) : Except ProviderError (List (ProviderEvent J)) :=
  if state.done then .ok []
  else do
    let reason ← Outcome.orThrow state.completion
      (protocolError "stream ended before a finish reason")
    return [.completed reason]

def assembler (json : JsonReading J) (uuids : Nat → String) :
    SseAssembler J GeminiAssembler (SseData (GeminiChunk J)) where
  push := push json uuids
  finish := finish
  start := GeminiAssembler.initial

/-! ## Requests -/

/-- The content of a part of a request. -/
inductive PartContent (J : Type) where
  | text (content : String)
  | functionCall (name : String) (args : J) (id : Option String)
  | functionResponse (name : String) (response : Option String) (id : Option String)
  /-- A part that has nothing but its signature. -/
  | bare
deriving DecidableEq

structure Part (J : Type) where
  content : PartContent J
  thoughtSignature : Option String
deriving DecidableEq

inductive ContentRole where
  | user
  | model
deriving DecidableEq

structure GeminiContent (J : Type) where
  role : ContentRole
  parts : List (Part J)
deriving DecidableEq

def geminiWireCallId (call : ToolCall J) : Option String :=
  match call.providerIdentity with
  | some identity => if identity.provider = .gemini then identity.wireId else some call.id
  | none => some call.id

/-- Puts a signature on the last part. -/
def signLast (signature : String) : List (Part J) → Except ProviderError (List (Part J))
  | [] => .error (protocolError "attached continuation has no preceding content part")
  | [part] =>
    if part.thoughtSignature.isSome then
      .error (protocolError "content part has duplicate continuations")
    else .ok [{ part with thoughtSignature := some signature }]
  | part :: parts => do
    let signed ← signLast signature parts
    return part :: signed

/-- One block of an assistant's message, behind the parts before it. -/
def pushAssistantBlock (parts : List (Part J)) :
    MessageBlock J → Except ProviderError (List (Part J))
  | .text content => .ok (parts ++ [{ content := .text content, thoughtSignature := none }])
  | .toolCall call =>
    .ok (parts ++
      [{ content := .functionCall call.name call.arguments (geminiWireCallId call)
         thoughtSignature := none }])
  | .toolResult _ => .error (protocolError "assistant message contains a tool result")
  | .providerContinuation continuation =>
    if continuation.provider ≠ .gemini then .ok parts
    else
      match continuation.placement with
      | .attachedToPreviousPart => signLast continuation.value parts
      | .standalonePart =>
        .ok (parts ++ [{ content := .bare, thoughtSignature := some continuation.value }])

def userParts : List (MessageBlock J) → Except ProviderError (List (Part J))
  | [] => .ok []
  | .text content :: blocks => do
    let parts ← userParts blocks
    return { content := .text content, thoughtSignature := none } :: parts
  | _ :: _ => .error (protocolError "user message contains a tool block")

/-- The calls of a request, by id. -/
def callsOfMessages (messages : List (Message J)) : List (ToolCall J) :=
  (messages.flatMap Message.blocks).filterMap fun block =>
    match block with
    | .toolCall call => some call
    | _ => none

def toolParts (calls : List (ToolCall J)) :
    List (MessageBlock J) → Except ProviderError (List (Part J))
  | [.toolResult result] =>
    match calls.find? fun call => call.id = result.callId with
    | none =>
      .error (protocolError s!"tool result {result.callId} has no matching call")
    | some call =>
      .ok [{ content := .functionResponse call.name result.content (geminiWireCallId call)
             thoughtSignature := none }]
  | _ => .error (protocolError "tool message must contain exactly one tool result")

/-- The role and the parts of a message that is no system message. -/
def geminiParts (calls : List (ToolCall J)) (message : Message J) :
    Except ProviderError (ContentRole × List (Part J)) :=
  match message.role with
  | .assistant => do
    let parts ← message.blocks.foldlM pushAssistantBlock []
    return (.model, parts)
  | .tool => do
    let parts ← toolParts calls message.blocks
    return (.user, parts)
  | .user | .system => do
    let parts ← userParts message.blocks
    return (.user, parts)

/-- Parts go on with the last content when the role is the same. -/
def pushContent (role : ContentRole) (parts : List (Part J)) :
    List (GeminiContent J) → List (GeminiContent J)
  | [] => [{ role := role, parts := parts }]
  | [previous] =>
    if previous.role = role then [{ previous with parts := previous.parts ++ parts }]
    else [previous, { role := role, parts := parts }]
  | content :: contents => content :: pushContent role parts contents

structure Body (J : Type) where
  system : String
  contents : List (GeminiContent J)

/-- The texts of a system message, with an empty line between them. -/
def pushSystem (system : String) : List (MessageBlock J) → Except ProviderError String
  | [] => .ok system
  | .text content :: blocks =>
    pushSystem (if system = "" then content else system ++ "\n\n" ++ content) blocks
  | _ :: _ => .error (protocolError "system message contains a tool block")

def pushMessage (calls : List (ToolCall J)) (body : Body J) (message : Message J) :
    Except ProviderError (Body J) :=
  if message.role = .system then do
    let system ← pushSystem body.system message.blocks
    return { body with system := system }
  else do
    let (role, parts) ← geminiParts calls message
    return { body with contents := pushContent role parts body.contents }

/-- The first id that comes twice. -/
def duplicateCallId (messages : List (Message J)) : Option String :=
  firstDuplicate [] ((callsOfMessages messages).map ToolCall.id)

def body (tools : List String) (messages : List (Message J)) : Except ProviderError (Body J) :=
  match firstDuplicate [] tools with
  | some name => .error (protocolError s!"duplicate tool definition {name}")
  | none =>
    match duplicateCallId messages with
    | some id => .error (protocolError s!"duplicate tool call id {id} in context")
    | none =>
      messages.foldlM (pushMessage (callsOfMessages messages)) { system := "", contents := [] }

end Chat2DB.Providers.Gemini
