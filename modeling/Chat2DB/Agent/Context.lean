import Chat2DB.Agent.Messages
import Chat2DB.Base.Text

/-! # The context of a conversation

A conversation that comes near to what the provider takes is compacted: its oldest turns
are replaced by a summary, or left out one after the other. A turn goes from a message of
the user to the next one.
-/

namespace Chat2DB.Agent

variable {J : Type}

/-! ## Budgets -/

def usizeMax : Nat := 2 ^ 64 - 1

def saturatingMul (first second : Nat) : Nat := min (first * second) usizeMax

structure ContextUsage where
  estimatedTokens : Nat
  serializedBytes : Nat
deriving DecidableEq

structure ContextBudget where
  maxTokens : Option Nat
  maxSerializedBytes : Nat
  compactionThresholdPercent : Nat
deriving DecidableEq

namespace ContextBudget

def bytesReached (budget : ContextBudget) (usage : ContextUsage) : Bool :=
  saturatingMul budget.maxSerializedBytes budget.compactionThresholdPercent ≤
    saturatingMul usage.serializedBytes 100

def tokensReached (budget : ContextBudget) (usage : ContextUsage) : Bool :=
  budget.maxTokens.any fun limit =>
    saturatingMul limit budget.compactionThresholdPercent ≤
      saturatingMul usage.estimatedTokens 100

def thresholdReached (budget : ContextBudget) (usage : ContextUsage) : Bool :=
  budget.bytesReached usage || budget.tokensReached usage

def exceeded (budget : ContextBudget) (usage : ContextUsage) : Bool :=
  budget.maxSerializedBytes < usage.serializedBytes ||
    budget.maxTokens.any fun limit => limit < usage.estimatedTokens

end ContextBudget

inductive CompactionCause where
  | tokenThreshold
  | byteThreshold
  | bothThresholds
deriving DecidableEq

def compactionCause (budget : ContextBudget) (usage : ContextUsage) : CompactionCause :=
  match budget.tokensReached usage, budget.bytesReached usage with
  | true, true => .bothThresholds
  | true, false => .tokenThreshold
  | false, _ => .byteThreshold

/-! ## Turns -/

/-- Each call waits for its result, and nothing else has a result. -/
def toolPairsComplete (pending : List String) : List (MessageBlock J) → Bool
  | [] => pending.isEmpty
  | .toolCall call :: blocks =>
    if call.id ∈ pending then false else toolPairsComplete (call.id :: pending) blocks
  | .toolResult result :: blocks =>
    if result.callId ∈ pending then toolPairsComplete (pending.erase result.callId) blocks
    else false
  | .text _ :: blocks | .providerContinuation _ :: blocks => toolPairsComplete pending blocks

def turnIsComplete (messages : List (Message J)) : Bool :=
  (messages.getLast?.any fun message => message.role = .assistant) &&
    toolPairsComplete [] (messages.flatMap Message.blocks)

/-- A turn that can be left out. -/
def removable (turn : List (Message J)) : Bool :=
  !(turn.any fun message => message.role = .system) && turnIsComplete turn

/-- The messages from an index on up to another one. -/
def slice (messages : List (Message J)) (range : Nat × Nat) : List (Message J) :=
  (messages.drop range.1).take (range.2 - range.1)

/-- Where the messages of the user are. -/
def userIndexes (start : Nat) : List (Message J) → List Nat
  | [] => []
  | message :: messages =>
    if message.role = .user then start :: userIndexes (start + 1) messages
    else userIndexes (start + 1) messages

def compactableTurns (messages : List (Message J)) : List (Nat × Nat) :=
  let users := userIndexes 0 messages
  (users.zip users.tail).takeWhile fun range => removable (slice messages range)

/-! ## Preparing -/

inductive CompactionStrategy where
  | summary
  | deterministicTrim
deriving DecidableEq

structure CompactionEvent where
  cause : CompactionCause
  strategy : CompactionStrategy
  removedTurns : Nat
  summaryFailed : Bool
  before : ContextUsage
  after : ContextUsage
  replacementSummary : Option String
  compactedMessageRange : Option (Nat × Nat)
deriving DecidableEq

def ContextManager.maxSummaryBytes : Nat := 64 * 1024

/-- What comes of asking for a summary. -/
inductive Summary where
  | cancelled
  | failed
  | text (content : String)

/-- The provider's budget and its estimate for messages, and the compactor if there is one. -/
structure ContextManager (J : Type) where
  budget : ContextBudget
  estimate : List (Message J) → Except AgentError ContextUsage
  compactor : Option (List (Message J) → Summary)

/-- The messages without a range of them. -/
def drain (messages : List (Message J)) (range : Nat × Nat) : List (Message J) :=
  messages.take range.1 ++ messages.drop range.2

theorem lt_of_mem_userIndexes {start index : Nat} {messages : List (Message J)}
    (hindex : index ∈ userIndexes start messages) :
    start ≤ index ∧ index < start + messages.length := by
  induction messages generalizing start with
  | nil => cases hindex
  | cons message messages ih =>
    rw [List.length_cons]
    unfold userIndexes at hindex
    split_ifs at hindex with hrole
    · rcases List.mem_cons.mp hindex with rfl | hindex
      · omega
      · have := ih hindex
        omega
    · have := ih hindex
      omega

theorem userIndexes_pairwise (start : Nat) (messages : List (Message J)) :
    (userIndexes start messages).Pairwise (· < ·) := by
  induction messages generalizing start with
  | nil => exact List.Pairwise.nil
  | cons message messages ih =>
    unfold userIndexes
    split_ifs with hrole
    · refine List.Pairwise.cons (fun index hindex => ?_) (ih (start + 1))
      have := lt_of_mem_userIndexes hindex
      omega
    · exact ih (start + 1)

/-- A compactable range is one of messages that are there. -/
theorem head_compactableTurns {messages : List (Message J)} {range : Nat × Nat}
    (hrange : (compactableTurns messages).head? = some range) :
    range.1 < range.2 ∧ range.2 ≤ messages.length := by
  have hpairwise := userIndexes_pairwise 0 messages
  have hbounds := fun index => @lt_of_mem_userIndexes J 0 index messages
  unfold compactableTurns at hrange
  match husers : userIndexes 0 messages with
  | [] => simp [husers] at hrange
  | [_] => simp [husers] at hrange
  | first :: second :: rest =>
    simp only [husers, List.tail_cons, List.zip_cons_cons, List.takeWhile_cons] at hrange
    rw [husers] at hpairwise hbounds
    split_ifs at hrange
    · obtain rfl := Option.some.inj hrange
      have hlt := List.rel_of_pairwise_cons hpairwise List.mem_cons_self
      have hle := hbounds second (by simp)
      exact ⟨hlt, by omega⟩
    · cases hrange

/-- Turns are left out as long as the threshold is reached. -/
def trim (manager : ContextManager J) (messages : List (Message J)) (removedTurns removed : Nat) :
    Except AgentError (List (Message J) × Nat × Nat) :=
  match manager.estimate messages with
  | .error error => .error error
  | .ok usage =>
    if manager.budget.thresholdReached usage then
      match hrange : (compactableTurns messages).head? with
      | none => .ok (messages, removedTurns, removed)
      | some range =>
        have := head_compactableTurns hrange
        trim manager (drain messages range) (removedTurns + 1) (removed + (range.2 - range.1))
    else .ok (messages, removedTurns, removed)
termination_by messages.length
decreasing_by
  simp only [drain, List.length_append, List.length_take, List.length_drop]
  omega

/-- The messages with one message in place of a range of them. -/
def splice (messages : List (Message J)) (range : Nat × Nat) (message : Message J) :
    List (Message J) :=
  messages.take range.1 ++ message :: messages.drop range.2

/-- A summary that is neither blank nor too long. -/
def usableSummary (content : String) : Bool :=
  Text.trim content.toList ≠ [] && content.utf8ByteSize ≤ ContextManager.maxSummaryBytes

/-- The prepared messages, and what was done to them. -/
abbrev Prepared (J : Type) := List (Message J) × Option CompactionEvent

def prepareByTrim (manager : ContextManager J) (messages : List (Message J))
    (ranges : List (Nat × Nat)) (before : ContextUsage) (summaryFailed : Bool) :
    Except AgentError (Prepared J) :=
  match trim manager messages 0 0 with
  | .error error => .error error
  | .ok (trimmed, removedTurns, removed) =>
    match manager.estimate trimmed with
    | .error error => .error error
    | .ok after =>
      if manager.budget.exceeded after then .error .contextBudgetExceeded
      else
        .ok (trimmed, some
          { cause := compactionCause manager.budget before
            strategy := .deterministicTrim
            removedTurns
            summaryFailed
            before
            after
            replacementSummary := none
            compactedMessageRange :=
              (ranges.head?.map Prod.fst).bind fun start =>
                if 0 < removed then some (start, start + removed) else none })

def prepare (manager : ContextManager J) (messages : List (Message J)) :
    Except AgentError (Prepared J) :=
  match manager.estimate messages with
  | .error error => .error error
  | .ok before =>
    if manager.budget.thresholdReached before then
      match compactableTurns messages with
      | [] =>
        if manager.budget.exceeded before then .error .contextBudgetExceeded
        else
          .ok (messages, some
            { cause := compactionCause manager.budget before
              strategy := .deterministicTrim
              removedTurns := 0
              summaryFailed := false
              before
              after := before
              replacementSummary := none
              compactedMessageRange := none })
      | first :: remaining =>
        let ranges := first :: remaining
        match manager.compactor with
        | none => prepareByTrim manager messages ranges before false
        | some summarize =>
          let span := (first.1, (remaining.getLastD first).2)
          match summarize (slice messages span) with
          | .cancelled => .error .cancelled
          | .failed => prepareByTrim manager messages ranges before true
          | .text content =>
            if usableSummary content then
              let summarized := splice messages span
                (.system ("Conversation summary:\n" ++ content))
              match manager.estimate summarized with
              | .error error => .error error
              | .ok after =>
                if manager.budget.thresholdReached after then
                  prepareByTrim manager messages ranges before true
                else
                  .ok (summarized, some
                    { cause := compactionCause manager.budget before
                      strategy := .summary
                      removedTurns := ranges.length
                      summaryFailed := false
                      before
                      after
                      replacementSummary := some content
                      compactedMessageRange := some span })
            else prepareByTrim manager messages ranges before true
    else .ok (messages, none)

end Chat2DB.Agent
