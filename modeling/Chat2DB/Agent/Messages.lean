import Mathlib

/-! # Messages of an agent's conversation

Messages are made of blocks, whatever the provider. A run accepts a conversation when
every result belongs to a call that came before it and every call has its result.
-/

namespace Chat2DB.Agent

inductive Role where
  | system
  | user
  | assistant
  | tool
deriving DecidableEq

inductive ProviderKind where
  | openAi
  | anthropic
  | gemini
deriving DecidableEq

structure ProviderToolCallIdentity where
  provider : ProviderKind
  wireId : Option String
deriving DecidableEq

/-- A call with arguments that were parsed already, as values of `J`. -/
structure ToolCall (J : Type) where
  id : String
  name : String
  arguments : J
  providerIdentity : Option ProviderToolCallIdentity
deriving DecidableEq

structure ToolResult where
  callId : String
  name : Option String
  content : Option String
deriving DecidableEq

inductive ProviderContinuationPlacement where
  | attachedToPreviousPart
  | standalonePart
deriving DecidableEq

structure ProviderContinuation where
  provider : ProviderKind
  value : String
  placement : ProviderContinuationPlacement
deriving DecidableEq

inductive MessageBlock (J : Type) where
  | text (content : String)
  | toolCall (call : ToolCall J)
  | toolResult (result : ToolResult)
  | providerContinuation (continuation : ProviderContinuation)
deriving DecidableEq

structure Message (J : Type) where
  role : Role
  blocks : List (MessageBlock J)
deriving DecidableEq

variable {J : Type}

def Message.system (content : String) : Message J := { role := .system, blocks := [.text content] }

inductive AgentError where
  | invalidInput (message : String)
  | duplicateToolCall (id : String)
  | toolArgumentsTooLarge (callId : String) (limit : Nat)
  | contextBudgetExceeded
  | cancelled
  | provider (message : String)
  | unknownTool (name : String)
  | modelTextTooLarge (round limit : Nat)
  | roundToolLimit (round limit : Nat)
  | totalToolLimit (limit : Nat)
  | incompleteProviderStream
  | duplicateProviderCompletion
  | inconsistentProviderCompletion
deriving DecidableEq

/-! ## The input of a run -/

/-- The ids of the calls and of the results that came so far. -/
structure Pairing where
  calls : List String
  results : List String
deriving DecidableEq

/-- The largest arguments, and how long arguments are when they are written out. -/
structure ArgumentLimits (J : Type) where
  maxToolArgumentBytes : Nat
  serializedLength : J → Nat

def validateArgumentSize (limits : ArgumentLimits J) (call : ToolCall J) : Except AgentError Unit :=
  if limits.maxToolArgumentBytes < limits.serializedLength call.arguments then
    .error (.toolArgumentsTooLarge call.id limits.maxToolArgumentBytes)
  else .ok ()

/-- A part to which a continuation can be attached. -/
def MessageBlock.isPart : MessageBlock J → Bool
  | .text _ | .toolCall _ => true
  | .toolResult _ | .providerContinuation _ => false

/-- The blocks of an assistant's message, with the block before them. -/
def validateAssistantBlocks (limits : ArgumentLimits J) (previous : Option (MessageBlock J))
    (pairing : Pairing) : List (MessageBlock J) → Except AgentError Pairing
  | [] => .ok pairing
  | block :: blocks =>
    match block with
    | .text _ => validateAssistantBlocks limits (some block) pairing blocks
    | .toolCall call =>
      match validateArgumentSize limits call with
      | .error error => .error error
      | .ok () =>
        if call.id ∈ pairing.calls then .error (.duplicateToolCall call.id)
        else
          validateAssistantBlocks limits (some block)
            { pairing with calls := pairing.calls ++ [call.id] } blocks
    | .toolResult _ => .error (.invalidInput "assistant message contains a tool result")
    | .providerContinuation continuation =>
      if continuation.placement = .attachedToPreviousPart ∧
          ¬previous.any MessageBlock.isPart then
        .error (.invalidInput "attached provider continuation has no preceding content part")
      else validateAssistantBlocks limits (some block) pairing blocks

def MessageBlock.isText : MessageBlock J → Bool
  | .text _ => true
  | _ => false

def validateMessage (limits : ArgumentLimits J) (pairing : Pairing) (message : Message J) :
    Except AgentError Pairing :=
  match message.role with
  | .system | .user =>
    if message.blocks.any fun block => !block.isText then
      .error (.invalidInput "system/user messages may contain only text")
    else .ok pairing
  | .assistant => validateAssistantBlocks limits none pairing message.blocks
  | .tool =>
    match message.blocks with
    | [.toolResult result] =>
      if result.callId ∉ pairing.calls ∨ result.callId ∈ pairing.results then
        .error (.invalidInput
          s!"tool result {result.callId} is missing, duplicated, or out of order")
      else .ok { pairing with results := pairing.results ++ [result.callId] }
    | _ => .error (.invalidInput "tool message must contain exactly one tool result")

def validateMessages (limits : ArgumentLimits J) (pairing : Pairing) :
    List (Message J) → Except AgentError Pairing
  | [] => .ok pairing
  | message :: messages =>
    match validateMessage limits pairing message with
    | .error error => .error error
    | .ok next => validateMessages limits next messages

/-- The first name that was there before. -/
def firstDuplicate (seen : List String) : List String → Option String
  | [] => none
  | name :: names => if name ∈ seen then some name else firstDuplicate (seen ++ [name]) names

def validateInput (limits : ArgumentLimits J) (tools : List String) (messages : List (Message J)) :
    Except AgentError Unit :=
  if messages = [] then .error (.invalidInput "at least one message is required")
  else if messages.all fun message => message.role ≠ .user then
    .error (.invalidInput "at least one user message is required")
  else
    match firstDuplicate [] tools with
    | some name => .error (.invalidInput s!"duplicate tool definition {name}")
    | none =>
      match validateMessages limits { calls := [], results := [] } messages with
      | .error error => .error error
      | .ok pairing =>
        match pairing.calls.find? fun id => id ∉ pairing.results with
        | some unresolved =>
          .error (.invalidInput s!"tool call {unresolved} has no result")
        | none => .ok ()

end Chat2DB.Agent
