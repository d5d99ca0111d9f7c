import Chat2DB.Providers.Gemini
import Chat2DB.Providers.RoundContract

/-! # Signed parts of Gemini

A signature has to come back on the part it came on. The runner joins texts that come one
behind the other, and a signature behind them goes on all of them: a signed text comes back
unchanged exactly when no unsigned text stands directly before it.
-/

namespace Chat2DB.Providers.Gemini

open Agent (Message MessageBlock ProviderContinuation ProviderContinuationPlacement
  ProviderToolCallIdentity ToolCall)

variable {J : Type} {uuids : Nat → String} {state next : GeminiAssembler}

/-! ## What a part leaves behind -/

inductive Shape (J : Type) where
  /-- Nothing: an unsigned thought or an unsigned empty text. -/
  | silent
  /-- A signature on nothing that can be seen. -/
  | bare (signature : String)
  | text (content : String) (signature : Option String)
  | call (call : WireFunctionCall J) (signature : Option String)
deriving DecidableEq

def Shape.ofSignature : Option String → Shape J
  | none => .silent
  | some signature => .bare signature

def WirePart.shape (part : WirePart J) : Shape J :=
  if part.thought.getD false then .ofSignature part.thoughtSignature
  else
    match part.functionCall with
    | some call => .call call part.thoughtSignature
    | none =>
      if part.text.getD "" = "" then .ofSignature part.thoughtSignature
      else .text (part.text.getD "") part.thoughtSignature

/-- The parts of a response, over all its events. -/
def responseParts (source : List (Except ProviderError (SseData (GeminiChunk J)))) :
    List (WirePart J) :=
  source.flatMap fun item =>
    match item with
    | .ok (.data (.ok chunk)) =>
      chunk.candidates.flatMap fun candidate => candidate.content.getD []
    | _ => []

/-- A call comes back as it was on the wire. -/
def PartContent.ofCall (call : WireFunctionCall J) : PartContent J :=
  .functionCall call.name call.args call.id

/-- The signed part that a part of the response should come back as. -/
def Shape.signedPart : Shape J → Option (Part J)
  | .silent => none
  | .bare signature => some { content := .bare, thoughtSignature := some signature }
  | .text content signature =>
    signature.map fun signature =>
      { content := .text content, thoughtSignature := some signature }
  | .call wire signature =>
    signature.map fun signature =>
      { content := .ofCall wire, thoughtSignature := some signature }

def signedParts (parts : List (Part J)) : List (Part J) :=
  parts.filter fun part => part.thoughtSignature.isSome

/-- The signed parts of the response come back, in order and each with its own text or
call, in the content that the next requests make of the message. -/
def Replayed (response : List (WirePart J)) (message : Message J) : Prop :=
  ∃ parts, (∀ calls, geminiParts calls message = .ok (.model, parts)) ∧
    signedParts parts = response.filterMap (fun part => part.shape.signedPart) ∧
    ∀ tools before after request, body tools (before ++ message :: after) = .ok request →
      ∃ content ∈ request.contents, content.role = .model ∧ parts <:+: content.parts

/-- No signed text stands behind an unsigned one, parts that leave nothing behind left out. -/
def KeepsApart (openText : Bool) : List (Shape J) → Bool
  | [] => true
  | .silent :: shapes => KeepsApart openText shapes
  | .text _ none :: shapes => KeepsApart true shapes
  | .text _ (some _) :: shapes => !openText && KeepsApart false shapes
  | .bare _ :: shapes | .call _ _ :: shapes => KeepsApart false shapes

/-! ## Events of a part -/

def attached (signature : String) : ProviderEvent J :=
  .providerContinuation
    { provider := .gemini, value := signature, placement := .attachedToPreviousPart }

def standalone (signature : String) : ProviderEvent J :=
  .providerContinuation
    { provider := .gemini, value := signature, placement := .standalonePart }

/-- The events of one part. -/
inductive Emits : Shape J → List (ProviderEvent J) → Prop where
  | silent : Emits .silent []
  | bare (signature : String) : Emits (.bare signature) [standalone signature]
  | text (content : String) (signature : Option String) (hcontent : content ≠ "") :
      Emits (.text content signature) (.textDelta content :: signature.toList.map attached)
  | call (wire : WireFunctionCall J) (signature : Option String) (call : ToolCall J)
      (hname : call.name = wire.name) (harguments : call.arguments = wire.args)
      (hid : geminiWireCallId call = wire.id) :
      Emits (.call wire signature) (.toolCall call :: signature.toList.map attached)

theorem geminiContinuation_eq_ok {signature : String} {placement : ProviderContinuationPlacement}
    {event : ProviderEvent J} (hevent : geminiContinuation signature placement = .ok event) :
    event = .providerContinuation
      { provider := .gemini, value := signature, placement := placement } := by
  unfold geminiContinuation ProviderContinuation.new at hevent
  split_ifs at hevent
  cases hevent
  rfl

theorem continuationOf_eq_ok {signature : Option String}
    {placement : ProviderContinuationPlacement} {events : List (ProviderEvent J)}
    (hevents : continuationOf signature placement = .ok events) :
    events = signature.toList.map fun signature => .providerContinuation
      { provider := .gemini, value := signature, placement := placement } := by
  cases signature with
  | none =>
    cases hevents
    rfl
  | some signature =>
    simp only [continuationOf, Outcome.bind_eq_ok, Outcome.pure_eq_ok] at hevents
    obtain ⟨event, hevent, rfl⟩ := hevents
    rw [geminiContinuation_eq_ok hevent]
    rfl

theorem emits_ofSignature (signature : Option String) :
    Emits (.ofSignature signature : Shape J) (signature.toList.map standalone) := by
  cases signature with
  | none => exact Emits.silent
  | some signature => exact Emits.bare signature

/-- A call that is taken up has the arguments of the wire and an id of its own. -/
theorem pushCall_eq_ok {json : JsonReading J} {wire : WireFunctionCall J} {call : ToolCall J}
    (hpush : pushCall json uuids state wire = .ok (next, call)) :
    call.name = wire.name ∧ call.arguments = wire.args ∧ geminiWireCallId call = wire.id ∧
      json.isObject wire.args = true ∧ (∀ id ∈ wire.id, call.id = id) := by
  simp only [pushCall, Outcome.bind_eq_ok, Outcome.mapError_eq_ok, Outcome.pure_eq_ok,
    Prod.mk.injEq] at hpush
  obtain ⟨-, -, -, -, -, -, identity, hidentity, toolCall, hcall, rfl, rfl⟩ := hpush
  obtain ⟨hobject, rfl⟩ := ToolCall.new_eq_ok hcall
  have hwire : identity = { provider := .gemini, wireId := wire.id } := by
    unfold ProviderToolCallIdentity.new at hidentity
    split_ifs at hidentity
    cases hidentity
    rfl
  refine ⟨rfl, rfl, ?_, hobject, ?_⟩
  · rw [hwire]
    rfl
  · intro id hid
    rw [Option.mem_def] at hid
    simp only [callId, hid]

/-- A part is emitted as the events of its shape. -/
theorem pushPart_emits {json : JsonReading J} {part : WirePart J} {events : List (ProviderEvent J)}
    (hpush : pushPart json uuids state part = .ok (next, events)) : Emits part.shape events := by
  unfold pushPart at hpush
  unfold WirePart.shape
  by_cases hthought : part.thought.getD false = true
  · rw [if_pos hthought] at hpush ⊢
    simp only [Outcome.bind_eq_ok, Outcome.pure_eq_ok, Prod.mk.injEq] at hpush
    obtain ⟨-, -, continuation, hcontinuation, -, rfl⟩ := hpush
    rw [continuationOf_eq_ok hcontinuation]
    exact emits_ofSignature part.thoughtSignature
  rw [if_neg hthought] at hpush ⊢
  cases htext : part.text with
  | some text =>
    cases hcall : part.functionCall with
    | some call =>
      rw [htext, hcall] at hpush
      cases hpush
    | none =>
      rw [htext, hcall] at hpush
      simp only [Option.getD_some]
      by_cases hempty : text = ""
      · simp only [if_pos hempty, Outcome.bind_eq_ok, Outcome.pure_eq_ok,
          Prod.mk.injEq] at hpush ⊢
        obtain ⟨continuation, hcontinuation, -, rfl⟩ := hpush
        rw [continuationOf_eq_ok hcontinuation]
        exact emits_ofSignature part.thoughtSignature
      · simp only [if_neg hempty, Outcome.bind_eq_ok, Outcome.pure_eq_ok,
          Prod.mk.injEq] at hpush ⊢
        obtain ⟨continuation, hcontinuation, -, rfl⟩ := hpush
        rw [continuationOf_eq_ok hcontinuation]
        exact Emits.text text part.thoughtSignature hempty
  | none =>
    cases hcall : part.functionCall with
    | some call =>
      rw [htext, hcall] at hpush
      simp only [Outcome.bind_eq_ok, Outcome.pure_eq_ok, Prod.exists, Prod.mk.injEq] at hpush
      obtain ⟨next, toolCall, htoolCall, continuation, hcontinuation, -, rfl⟩ := hpush
      obtain ⟨hname, harguments, hid, -⟩ := pushCall_eq_ok htoolCall
      rw [continuationOf_eq_ok hcontinuation]
      exact Emits.call call part.thoughtSignature toolCall hname harguments hid
    | none =>
      rw [htext, hcall] at hpush
      simp only [Outcome.bind_eq_ok, Outcome.pure_eq_ok, Outcome.orThrow_eq_ok,
        Prod.mk.injEq] at hpush
      obtain ⟨signature, hsignature, event, hevent, -, rfl⟩ := hpush
      rw [geminiContinuation_eq_ok hevent, hsignature]
      exact Emits.bare signature

/-! ## Events of a response -/

/-- The shapes of the parts that came so far, and the events they gave. -/
inductive EmitsAll : List (Shape J) → List (ProviderEvent J) → Prop where
  | nil : EmitsAll [] []
  | part {shapes : List (Shape J)} {events produced : List (ProviderEvent J)} {shape : Shape J}
      (hall : EmitsAll shapes events) (hpart : Emits shape produced) :
      EmitsAll (shapes ++ [shape]) (events ++ produced)
  | usage {shapes : List (Shape J)} {events : List (ProviderEvent J)} (usage : Usage)
      (hall : EmitsAll shapes events) : EmitsAll shapes (events ++ [.usage usage])
  | completed {shapes : List (Shape J)} {events : List (ProviderEvent J)} (reason : StopReason)
      (hall : EmitsAll shapes events) : EmitsAll shapes (events ++ [.completed reason])

theorem EmitsAll.parts {json : JsonReading J} {parts : List (WirePart J)} {shapes : List (Shape J)}
    {events produced : List (ProviderEvent J)} (hall : EmitsAll shapes events)
    (hfeed : (partAssembler json uuids).feed state parts = .ok (next, produced)) :
    EmitsAll (shapes ++ parts.map WirePart.shape) (events ++ produced) := by
  apply Transducer.feed_invariant
    (motive := fun parts produced _ =>
      EmitsAll (shapes ++ parts.map WirePart.shape) (events ++ produced)) _ _ hfeed
  · simpa using hall
  · intro before produced state part next first hbefore hpush
    rw [List.map_append, List.map_singleton, ← List.append_assoc, ← List.append_assoc]
    exact hbefore.part (pushPart_emits hpush)

theorem EmitsAll.usages {shapes : List (Shape J)} {events : List (ProviderEvent J)}
    (hall : EmitsAll shapes events) (usage : Option Usage) :
    EmitsAll shapes (events ++ usage.toList.map .usage) := by
  cases usage with
  | none => simpa using hall
  | some usage => exact hall.usage usage

/-- The parts of one event. -/
def eventParts : SseData (GeminiChunk J) → List (WirePart J)
  | .data (.ok chunk) => chunk.candidates.flatMap fun candidate => candidate.content.getD []
  | _ => []

theorem responseParts_map_ok (wire : List (SseData (GeminiChunk J))) :
    responseParts (wire.map .ok) = wire.flatMap eventParts := by
  induction wire with
  | nil => rfl
  | cons event wire ih =>
    have hcons : responseParts ((event :: wire).map .ok) =
        eventParts event ++ responseParts (wire.map .ok) := by
      cases event with
      | done => rfl
      | data chunk => cases chunk <;> rfl
    rw [hcons, ih, List.flatMap_cons]

/-- A chunk adds the events of its parts and then its usage. -/
theorem EmitsAll.push {json : JsonReading J}
    {event : SseData (GeminiChunk J)} {shapes : List (Shape J)}
    {events produced : List (ProviderEvent J)} (hall : EmitsAll shapes events)
    (hpush : Gemini.push json uuids state event = .ok (next, produced)) :
    EmitsAll (shapes ++ (eventParts event).map WirePart.shape) (events ++ produced) := by
  cases event with
  | done =>
    simp only [Gemini.push, Outcome.bind_eq_ok, Outcome.pure_eq_ok, Prod.mk.injEq] at hpush
    obtain ⟨reason, -, -, rfl⟩ := hpush
    simpa [eventParts] using hall.completed reason
  | data chunk =>
    simp only [Gemini.push, Outcome.bind_eq_ok] at hpush
    obtain ⟨-, -, chunk, rfl, hchunk⟩ := hpush
    simp only [pushChunk, Outcome.bind_eq_ok, Outcome.rejectIf_eq_ok] at hchunk
    obtain ⟨-, hsingle, hchunk⟩ := hchunk
    cases hcandidates : chunk.candidates with
    | nil =>
      rw [hcandidates] at hchunk
      simp only [List.head?_nil, Outcome.pure_eq_ok, Prod.mk.injEq] at hchunk
      obtain ⟨-, rfl⟩ := hchunk
      simpa [eventParts, hcandidates] using hall.usages chunk.usageMetadata
    | cons candidate candidates =>
      rw [hcandidates, List.length_cons] at hsingle
      obtain rfl : candidates = [] := List.length_eq_zero_iff.mp (by omega)
      rw [hcandidates] at hchunk
      simp only [List.head?_cons, pushCandidate, Outcome.bind_eq_ok, Outcome.pure_eq_ok,
        Prod.exists, Prod.mk.injEq] at hchunk
      obtain ⟨_, produced, ⟨-, -, -, -, inner, produced, hfeed, -, rfl⟩, -, rfl⟩ := hchunk
      have hparts := (hall.usages chunk.usageMetadata).parts hfeed
      simpa [eventParts, hcandidates, List.append_assoc] using hparts

/-- What the assembler emits are the events of the stream's parts. -/
theorem emitsAll_of_outputs {json : JsonReading J}
    {wire : List (SseData (GeminiChunk J))} {events : List (ProviderEvent J)}
    (houtputs : (assembler json uuids).outputs (assembler json uuids).start wire = .ok events) :
    EmitsAll ((wire.flatMap eventParts).map WirePart.shape) events := by
  obtain ⟨last, produced, rest, hfeed, hfinish, rfl⟩ := Transducer.outputs_iff.mp houtputs
  have hproduced : EmitsAll ((wire.flatMap eventParts).map WirePart.shape) produced := by
    apply Transducer.feed_invariant
      (motive := fun wire produced _ =>
        EmitsAll ((wire.flatMap eventParts).map WirePart.shape) produced) _ _ hfeed
    · exact EmitsAll.nil
    · intro before produced state event next first hbefore hpush
      rw [List.flatMap_append, List.flatMap_singleton, List.map_append]
      exact hbefore.push hpush
  change finish last = .ok rest at hfinish
  unfold finish at hfinish
  split_ifs at hfinish
  · cases hfinish
    rw [List.append_nil]
    exact hproduced
  · simp only [Outcome.bind_eq_ok, Outcome.pure_eq_ok] at hfinish
    obtain ⟨reason, -, rfl⟩ := hfinish
    exact hproduced.completed reason

/-! ## Blocks of a response -/

/-- The blocks that an event leaves. -/
def pushEvent (blocks : List (MessageBlock J)) : ProviderEvent J → List (MessageBlock J)
  | .textDelta delta => pushText delta blocks
  | .toolCall call => blocks ++ [.toolCall call]
  | .providerContinuation continuation => blocks ++ [.providerContinuation continuation]
  | .usage _ | .completed _ => blocks

/-- The blocks of a round change with its events and with nothing else. -/
theorem step_assistantBlocks {limits : RoundLimits J} {round next : Round J}
    {event : ProviderEvent J} (hstep : round.step limits event = .ok next) :
    next.assistantBlocks = pushEvent round.assistantBlocks event := by
  cases hcompletion : round.completion with
  | some reason => exact absurd hstep (Round.step_of_completed hcompletion event)
  | none =>
    rw [Round.step_of_unfinished hcompletion] at hstep
    cases event with
    | textDelta delta =>
      obtain ⟨-, rfl⟩ := Round.accept_textDelta_iff.mp hstep
      rfl
    | toolCall call =>
      obtain ⟨-, -, -, -, -, rfl⟩ := Round.accept_toolCall_iff.mp hstep
      rfl
    | providerContinuation continuation =>
      cases hstep
      rfl
    | usage usage =>
      cases hstep
      rfl
    | completed reason =>
      cases hstep
      rfl

theorem foldlM_assistantBlocks {limits : RoundLimits J} {events : List (ProviderEvent J)}
    {round last : Round J} (hfold : events.foldlM (Round.step limits) round = .ok last) :
    last.assistantBlocks = events.foldl pushEvent round.assistantBlocks := by
  induction events generalizing round with
  | nil =>
    cases hfold
    rfl
  | cons event events ih =>
    rw [List.foldlM_cons, Outcome.bind_eq_ok] at hfold
    obtain ⟨next, hstep, hrest⟩ := hfold
    rw [ih hrest, step_assistantBlocks hstep, List.foldl_cons]

/-! ## What comes back -/

/-- The signed parts so far, and the unsigned text at the end. -/
structure Outline (J : Type) where
  openText : String
  signed : List (Part J)

def Outline.push (outline : Outline J) : Shape J → Outline J
  | .silent => outline
  | .bare signature =>
    { openText := ""
      signed := outline.signed ++ [{ content := .bare, thoughtSignature := some signature }] }
  | .text content none => { outline with openText := outline.openText ++ content }
  | .text content (some signature) =>
    { openText := ""
      signed := outline.signed ++
        [{ content := .text (outline.openText ++ content), thoughtSignature := some signature }] }
  | .call _ none => { outline with openText := "" }
  | .call wire (some signature) =>
    { openText := ""
      signed := outline.signed ++
        [{ content := .ofCall wire, thoughtSignature := some signature }] }

/-- The blocks of a message and the parts a request makes of them, with the unsigned text at
the end. -/
structure Stands (outline : Outline J) (blocks : List (MessageBlock J)) (parts : List (Part J)) :
    Prop where
  built : blocks.foldlM pushAssistantBlock [] = .ok parts
  signed : signedParts parts = outline.signed
  closed : outline.openText = "" → ∀ last ∈ blocks.getLast?, last.isText = false
  openText : outline.openText ≠ "" → ∃ front, blocks = front ++ [.text outline.openText]

theorem foldlM_pushAssistantBlock_append {front : List (MessageBlock J)} {block : MessageBlock J}
    {parts : List (Part J)} :
    (front ++ [block]).foldlM pushAssistantBlock [] = .ok parts ↔
      ∃ before, front.foldlM pushAssistantBlock [] = .ok before ∧
        pushAssistantBlock before block = .ok parts := by
  simp only [List.foldlM_append, List.foldlM_cons, List.foldlM_nil, Outcome.bind_eq_ok,
    Outcome.pure_eq_ok, exists_eq_right]

@[simp] theorem signedParts_append (first second : List (Part J)) :
    signedParts (first ++ second) = signedParts first ++ signedParts second :=
  List.filter_append ..

/-- A signature goes to the part before it. -/
theorem signLast_append (signature : String) (front : List (Part J)) (content : PartContent J) :
    signLast signature (front ++ [{ content := content, thoughtSignature := none }]) =
      .ok (front ++ [{ content := content, thoughtSignature := some signature }]) := by
  induction front with
  | nil => rfl
  | cons part front ih =>
    cases front with
    | nil => rfl
    | cons second front =>
      rw [List.cons_append, List.cons_append]
      rw [List.cons_append] at ih
      simp only [signLast, ih]
      rfl

/-- A block that is no text is a part of its own. -/
theorem Stands.append {outline : Outline J} {blocks : List (MessageBlock J)}
    {parts parts' : List (Part J)} (hstands : Stands outline blocks parts)
    {block : MessageBlock J} (hblock : block.isText = false)
    (hparts : pushAssistantBlock parts block = .ok parts') {signed : List (Part J)}
    (hsigned : signedParts parts' = signed) :
    Stands { openText := "", signed := signed } (blocks ++ [block]) parts' where
  built := foldlM_pushAssistantBlock_append.mpr ⟨parts, hstands.built, hparts⟩
  signed := hsigned
  closed := by
    intro _ last hlast
    rw [List.getLast?_append, List.getLast?_singleton, Option.some_or,
      Option.mem_some_iff] at hlast
    rw [← hlast, hblock]
  openText := fun hopen => absurd rfl hopen

/-- A signature closes the part before it. -/
theorem Stands.sign {outline : Outline J} {blocks : List (MessageBlock J)}
    {before : List (Part J)} {content : PartContent J}
    (hstands : Stands outline blocks
      (before ++ [{ content := content, thoughtSignature := none }]))
    (signature : String) :
    Stands
      { openText := ""
        signed := outline.signed ++
          [{ content := content, thoughtSignature := some signature }] }
      (pushEvent blocks (attached signature))
      (before ++ [{ content := content, thoughtSignature := some signature }]) := by
  have hsigned := hstands.signed
  rw [signedParts_append] at hsigned
  refine hstands.append rfl ?_ ?_
  · exact signLast_append signature before content
  rw [signedParts_append, ← hsigned]
  simp [signedParts]

/-- Text goes on in the part that is open. -/
theorem Stands.pushText {outline : Outline J} {blocks : List (MessageBlock J)}
    {parts : List (Part J)} (hstands : Stands outline blocks parts) (content : String) :
    ∃ front before, Providers.pushText content blocks =
        front ++ [.text (outline.openText ++ content)] ∧
      front.foldlM pushAssistantBlock [] = .ok before ∧ signedParts before = outline.signed := by
  by_cases hopen : outline.openText = ""
  · rcases pushText_cases content blocks with ⟨front, previous, rfl, -⟩ | ⟨-, hpush⟩
    · have hfalse := hstands.closed hopen (.text previous) (by simp)
      cases hfalse
    · refine ⟨blocks, parts, ?_, hstands.built, hstands.signed⟩
      rw [hpush, hopen, String.empty_append]
  · obtain ⟨front, rfl⟩ := hstands.openText hopen
    obtain ⟨before, hbefore, hparts⟩ := foldlM_pushAssistantBlock_append.mp hstands.built
    refine ⟨front, before, pushText_text content outline.openText front, hbefore, ?_⟩
    have hsigned := hstands.signed
    rw [pushAssistantBlock, Except.ok.injEq] at hparts
    rw [← hparts, signedParts_append] at hsigned
    simpa [signedParts] using hsigned

/-- One part of the response. -/
theorem Stands.push {outline : Outline J} {blocks : List (MessageBlock J)} {parts : List (Part J)}
    (hstands : Stands outline blocks parts) {shape : Shape J} {events : List (ProviderEvent J)}
    (hemits : Emits shape events) :
    ∃ parts', Stands (outline.push shape) (events.foldl pushEvent blocks) parts' := by
  cases hemits with
  | silent => exact ⟨parts, hstands⟩
  | bare signature =>
    refine ⟨_, hstands.append rfl rfl ?_⟩
    rw [signedParts_append, hstands.signed]
    rfl
  | text content signature hcontent =>
    obtain ⟨front, before, hpush, hbefore, hsigned⟩ := hstands.pushText content
    have hne : outline.openText ++ content ≠ "" := by
      intro hempty
      exact hcontent (String.append_eq_empty_iff.mp hempty).2
    have htext : Stands { outline with openText := outline.openText ++ content }
        (front ++ [.text (outline.openText ++ content)])
        (before ++ [{ content := .text (outline.openText ++ content)
                      thoughtSignature := none }]) :=
      { built := foldlM_pushAssistantBlock_append.mpr ⟨before, hbefore, rfl⟩
        signed := by
          rw [signedParts_append, hsigned]
          simp [signedParts]
        closed := fun hempty => absurd hempty hne
        openText := fun _ => ⟨front, rfl⟩ }
    cases signature with
    | none =>
      rw [← hpush] at htext
      exact ⟨_, htext⟩
    | some signature =>
      rw [← hpush] at htext
      exact ⟨_, htext.sign signature⟩
  | call wire signature call hname harguments hid =>
    have hcontent : PartContent.functionCall call.name call.arguments (geminiWireCallId call) =
        .ofCall wire := by
      rw [hname, harguments, hid]
      rfl
    have hcall : Stands { outline with openText := "" } (blocks ++ [.toolCall call])
        (parts ++ [{ content := .ofCall wire, thoughtSignature := none }]) := by
      refine hstands.append rfl ?_ ?_
      · rw [pushAssistantBlock, hcontent]
      · rw [signedParts_append, hstands.signed]
        simp [signedParts]
    cases signature with
    | none => exact ⟨_, hcall⟩
    | some signature => exact ⟨_, hcall.sign signature⟩

/-- The parts that are replayed, as the outline of the shapes. -/
theorem stands_of_emitsAll {shapes : List (Shape J)} {events : List (ProviderEvent J)}
    (hall : EmitsAll shapes events) :
    ∃ parts, Stands (shapes.foldl Outline.push { openText := "", signed := [] })
      (events.foldl pushEvent []) parts := by
  induction hall with
  | nil =>
    exact ⟨[], { built := rfl, signed := rfl, closed := by simp, openText := by simp }⟩
  | part hall hpart ih =>
    obtain ⟨parts, hstands⟩ := ih
    rw [List.foldl_append, List.foldl_append]
    exact hstands.push hpart
  | usage _ _ ih | completed _ _ ih =>
    rw [List.foldl_append]
    exact ih

/-- The signed parts that come back for parts of the response, behind unsigned text. -/
def mergedParts (openText : String) : List (Shape J) → List (Part J)
  | [] => []
  | .silent :: shapes => mergedParts openText shapes
  | .text content none :: shapes => mergedParts (openText ++ content) shapes
  | .text content (some signature) :: shapes =>
    { content := .text (openText ++ content), thoughtSignature := some signature } ::
      mergedParts "" shapes
  | .bare signature :: shapes =>
    { content := .bare, thoughtSignature := some signature } :: mergedParts "" shapes
  | .call _ none :: shapes => mergedParts "" shapes
  | .call wire (some signature) :: shapes =>
    { content := .ofCall wire, thoughtSignature := some signature } :: mergedParts "" shapes

/-- The signed parts of an outline are the merged parts of its shapes. -/
theorem foldl_push_signed (outline : Outline J) (shapes : List (Shape J)) :
    (shapes.foldl Outline.push outline).signed =
      outline.signed ++ mergedParts outline.openText shapes := by
  induction shapes generalizing outline with
  | nil => exact (List.append_nil _).symm
  | cons shape shapes ih =>
    rw [List.foldl_cons, ih]
    cases shape with
    | silent => rfl
    | bare signature => simp [Outline.push, mergedParts]
    | text content signature => cases signature <;> simp [Outline.push, mergedParts]
    | call wire signature => cases signature <;> simp [Outline.push, mergedParts]

theorem append_eq_right_iff (first second : String) : first ++ second = second ↔ first = "" := by
  constructor
  · intro heq
    have hsize := congrArg String.utf8ByteSize heq
    rw [String.utf8ByteSize_append] at hsize
    exact String.utf8ByteSize_eq_zero_iff.mp (by omega)
  · rintro rfl
    exact String.empty_append

/-- Merged parts are the parts of the response exactly when no signed text stands behind an
unsigned one. -/
theorem mergedParts_eq_iff (openText : String) (shapes : List (Shape J))
    (hshapes : ∀ content signature, .text content signature ∈ shapes → content ≠ "") :
    mergedParts openText shapes = shapes.filterMap Shape.signedPart ↔
      KeepsApart (decide (openText ≠ "")) shapes = true := by
  induction shapes generalizing openText with
  | nil => simp [mergedParts, KeepsApart]
  | cons shape shapes ih =>
    have hrest : ∀ content signature, .text content signature ∈ shapes → content ≠ "" :=
      fun content signature hmem => hshapes content signature (List.mem_cons_of_mem _ hmem)
    have hclosed := ih "" hrest
    simp only [ne_eq, not_true_eq_false, decide_false] at hclosed
    cases shape with
    | silent => exact ih openText hrest
    | bare signature =>
      simpa [mergedParts, KeepsApart, List.filterMap_cons, Shape.signedPart] using hclosed
    | text content signature =>
      have hcontent := hshapes content signature (List.mem_cons_self ..)
      cases signature with
      | none =>
        have hopen := ih (openText ++ content) hrest
        have hne : openText ++ content ≠ "" := by
          intro hempty
          exact hcontent (String.append_eq_empty_iff.mp hempty).2
        rw [decide_eq_true hne] at hopen
        simpa [mergedParts, KeepsApart, List.filterMap_cons, Shape.signedPart] using hopen
      | some signature =>
        simp only [mergedParts, KeepsApart, List.filterMap_cons, Shape.signedPart,
          Option.map_some, List.cons.injEq, Part.mk.injEq, PartContent.text.injEq,
          append_eq_right_iff, hclosed, Bool.and_eq_true]
        simp
    | call wire signature =>
      cases signature <;>
        simpa [mergedParts, KeepsApart, List.filterMap_cons, Shape.signedPart] using hclosed

theorem emits_text_ne {shapes : List (Shape J)} {events : List (ProviderEvent J)}
    (hall : EmitsAll shapes events) (content : String) (signature : Option String)
    (hmem : .text content signature ∈ shapes) : content ≠ "" := by
  induction hall with
  | nil => cases hmem
  | part hall hpart ih =>
    rcases List.mem_append.mp hmem with hmem | hmem
    · exact ih hmem
    · rw [List.mem_singleton] at hmem
      subst hmem
      cases hpart with
      | text _ _ hcontent => exact hcontent
  | usage _ _ ih | completed _ _ ih => exact ih hmem

/-! ## The next requests -/

/-- A content of the model has these parts, one behind the other. -/
def HasParts (parts : List (Part J)) (contents : List (GeminiContent J)) : Prop :=
  ∃ content ∈ contents, content.role = .model ∧ parts <:+: content.parts

/-- A content goes on with the last one of its role, or is a new one. -/
theorem pushContent_cases (role : ContentRole) (added : List (Part J))
    (contents : List (GeminiContent J)) :
    (∃ front previous, contents = front ++ [previous] ∧ previous.role = role ∧
      pushContent role added contents =
        front ++ [{ previous with parts := previous.parts ++ added }]) ∨
    pushContent role added contents = contents ++ [{ role := role, parts := added }] := by
  induction contents with
  | nil => exact .inr rfl
  | cons content contents ih =>
    cases contents with
    | nil =>
      by_cases hrole : content.role = role
      · exact .inl ⟨[], content, rfl, hrole, by simp [pushContent, hrole]⟩
      · exact .inr (by simp [pushContent, hrole])
    | cons second contents =>
      rcases ih with ⟨front, previous, hcontents, hrole, hpush⟩ | hpush
      · refine .inl ⟨content :: front, previous, ?_, hrole, ?_⟩
        · rw [hcontents, List.cons_append]
        · rw [pushContent, hpush, List.cons_append]
          simp
      · refine .inr ?_
        rw [pushContent, hpush]
        · rfl
        · simp

theorem HasParts.pushContent {parts : List (Part J)} {contents : List (GeminiContent J)}
    (hparts : HasParts parts contents) (role : ContentRole) (added : List (Part J)) :
    HasParts parts (Gemini.pushContent role added contents) := by
  obtain ⟨content, hcontent, hmodel, hinfix⟩ := hparts
  rcases pushContent_cases role added contents with ⟨front, previous, rfl, -, hpush⟩ | hpush
  · rw [hpush]
    rcases List.mem_append.mp hcontent with hfront | hlast
    · exact ⟨content, List.mem_append_left _ hfront, hmodel, hinfix⟩
    · rw [List.mem_singleton] at hlast
      subst hlast
      exact ⟨_, List.mem_append_right _ (List.mem_singleton_self _), hmodel,
        hinfix.trans (List.prefix_append _ _).isInfix⟩
  · rw [hpush]
    exact ⟨content, List.mem_append_left _ hcontent, hmodel, hinfix⟩

theorem hasParts_pushContent (parts : List (Part J)) (contents : List (GeminiContent J)) :
    HasParts parts (Gemini.pushContent .model parts contents) := by
  rcases pushContent_cases .model parts contents with ⟨front, previous, -, hrole, hpush⟩ | hpush
  · rw [hpush]
    exact ⟨_, List.mem_append_right _ (List.mem_singleton_self _), hrole,
      (List.suffix_append _ _).isInfix⟩
  · rw [hpush]
    exact ⟨_, List.mem_append_right _ (List.mem_singleton_self _), rfl, List.infix_rfl⟩

/-- Later messages leave the replayed parts in the body. -/
theorem HasParts.pushMessage {parts : List (Part J)} {calls : List (ToolCall J)}
    {request next : Body J} {message : Message J} (hparts : HasParts parts request.contents)
    (hpush : Gemini.pushMessage calls request message = .ok next) :
    HasParts parts next.contents := by
  unfold Gemini.pushMessage at hpush
  split_ifs at hpush
  · rw [Outcome.bind_eq_ok] at hpush
    obtain ⟨system, -, hnext⟩ := hpush
    cases hnext
    exact hparts
  · rw [Outcome.bind_eq_ok] at hpush
    obtain ⟨⟨role, added⟩, -, hnext⟩ := hpush
    cases hnext
    exact hparts.pushContent role added

theorem HasParts.foldlM {parts : List (Part J)} {calls : List (ToolCall J)}
    {messages : List (Message J)} {request last : Body J}
    (hparts : HasParts parts request.contents)
    (hfold : messages.foldlM (Gemini.pushMessage calls) request = .ok last) :
    HasParts parts last.contents := by
  induction messages generalizing request with
  | nil =>
    cases hfold
    exact hparts
  | cons message messages ih =>
    rw [List.foldlM_cons, Outcome.bind_eq_ok] at hfold
    obtain ⟨next, hpush, hrest⟩ := hfold
    exact ih (hparts.pushMessage hpush) hrest

/-- The body of the next request has the parts of the message. -/
theorem body_hasParts {tools : List String} {before after : List (Message J)}
    {message : Message J} {request : Body J} {parts : List (Part J)}
    (hrole : message.role = .assistant)
    (hmessage : ∀ calls, geminiParts calls message = .ok (.model, parts))
    (hbody : body tools (before ++ message :: after) = .ok request) :
    HasParts parts request.contents := by
  unfold body at hbody
  split at hbody
  case h_1 => cases hbody
  case h_2 =>
    split at hbody
    case h_1 => cases hbody
    case h_2 =>
      simp only [List.foldlM_append, List.foldlM_cons, Outcome.bind_eq_ok] at hbody
      obtain ⟨first, -, second, hpush, hrest⟩ := hbody
      have hsecond : HasParts parts second.contents := by
        unfold pushMessage at hpush
        rw [if_neg (by simp [hrole]), hmessage, Outcome.bind_eq_ok] at hpush
        obtain ⟨⟨role, added⟩, hparts, hnext⟩ := hpush
        cases hparts
        cases hnext
        exact hasParts_pushContent parts first.contents
      exact hsecond.foldlM hrest

theorem geminiParts_assistantMessage {round : Round J} {parts : List (Part J)}
    (hbuilt : round.assistantBlocks.foldlM pushAssistantBlock [] = .ok parts)
    (calls : List (ToolCall J)) : geminiParts calls round.assistantMessage = .ok (.model, parts) := by
  unfold geminiParts Round.assistantMessage
  simp only
  rw [hbuilt]
  rfl

/-- The signed parts of a response come back unchanged exactly when no signed text stands
directly behind an unsigned one. -/
theorem replayed_iff_keepsApart (json : JsonReading J) (uuids : Nat → String)
    (limits : RoundLimits J) (used : List String)
    (source : List (Except ProviderError (SseData (GeminiChunk J)))) (round : Round J)
    (reason : StopReason)
    (hround : modelRound limits (assembler json uuids) used source = .ok (round, reason)) :
    Replayed (responseParts source) round.assistantMessage ↔
      KeepsApart false ((responseParts source).map WirePart.shape) = true := by
  obtain ⟨wire, events, rfl, houtputs, hfold, -⟩ := modelRound_eq_ok_iff.mp hround
  have hall := emitsAll_of_outputs houtputs
  rw [← responseParts_map_ok] at hall
  obtain ⟨parts, hstands⟩ := stands_of_emitsAll hall
  have hblocks : round.assistantBlocks = events.foldl pushEvent [] := foldlM_assistantBlocks hfold
  rw [← hblocks] at hstands
  have hmessage := geminiParts_assistantMessage hstands.built
  have hsigned := hstands.signed
  rw [foldl_push_signed, List.nil_append] at hsigned
  have hiff := mergedParts_eq_iff "" ((responseParts (wire.map .ok)).map WirePart.shape)
    (emits_text_ne hall)
  rw [← hsigned, List.filterMap_map] at hiff
  rw [decide_eq_false (by simp)] at hiff
  rw [← hiff]
  constructor
  · rintro ⟨other, hother, hparts, -⟩
    have hsame := (hother []).symm.trans (hmessage [])
    cases hsame
    exact hparts
  · intro hparts
    refine ⟨parts, hmessage, hparts, ?_⟩
    intro tools before after request hbody
    exact body_hasParts rfl hmessage hbody

/-! ## Responses that come back, and one that does not -/

/-- Values that are all objects, written as they are. -/
def plainJson : JsonReading String where
  parse := some
  serialize := id
  isObject := fun _ => true
  isEmptyObject := fun _ => false

def openLimits : RoundLimits String where
  round := 1
  arguments := { maxToolArgumentBytes := 100, serializedLength := String.utf8ByteSize }
  toolNames := ["query"]
  totalToolCalls := 0
  maxToolCallsPerRound := 8
  maxTotalToolCalls := 8
  maxRoundTextBytes := 1000

def chunkOf (parts : List (WirePart String)) (finishReason : Option String) :
    Except ProviderError (SseData (GeminiChunk String)) :=
  .ok (.data (.ok
    { candidates := [{ index := 0, content := some parts, finishReason := finishReason }]
      usageMetadata := none }))

def textPart (text : String) (signature : Option String) : WirePart String :=
  { text := some text, thought := none, thoughtSignature := signature, functionCall := none }

def callPart (id : Option String) (signature : Option String) : WirePart String :=
  { text := none
    thought := none
    thoughtSignature := signature
    functionCall := some { id := id, name := "query", args := "select 1" } }

/-- A signed text, unsigned text behind it, and a signed call without an id. -/
def signedFirst : List (Except ProviderError (SseData (GeminiChunk String))) :=
  [chunkOf [textPart "answer" (some "s1")] none,
    chunkOf [textPart "more" none, callPart none (some "s2")] (some "STOP")]

theorem signedFirst_replayed :
    ∃ result, modelRound openLimits (assembler plainJson fun _ => "u") [] signedFirst =
        .ok result ∧
      KeepsApart false ((responseParts signedFirst).map WirePart.shape) = true ∧
      Replayed (responseParts signedFirst) result.1.assistantMessage := by
  refine ⟨_, rfl, rfl, ?_⟩
  exact (replayed_iff_keepsApart plainJson (fun _ => "u") openLimits [] signedFirst _ _ rfl).mpr rfl

theorem signedFirst_contract :
    ∃ round, modelRound openLimits (assembler plainJson fun _ => "u") [] signedFirst =
        .ok (round, .toolCalls) ∧ round.calls ≠ [] := by
  refine ⟨_, rfl, ?_⟩
  obtain ⟨wire, front, before, -, -, -, -, hcalls⟩ := modelRound_contract openLimits
    (assembler plainJson fun _ => "u") [] signedFirst _ .toolCalls rfl
  exact hcalls.mp rfl

/-- A signed text right behind an unsigned one. -/
def signedSecond : List (Except ProviderError (SseData (GeminiChunk String))) :=
  [chunkOf [textPart "A" none] none, chunkOf [textPart "B" (some "s")] (some "STOP")]

/-- The signature of "B" comes back on "AB". -/
theorem signedSecond_not_replayed :
    ∃ result, modelRound openLimits (assembler plainJson fun _ => "u") [] signedSecond =
        .ok result ∧
      (∀ calls, geminiParts calls result.1.assistantMessage =
        .ok (.model, [{ content := .text "AB", thoughtSignature := some "s" }])) ∧
      ¬ Replayed (responseParts signedSecond) result.1.assistantMessage := by
  refine ⟨_, rfl, fun calls => rfl, ?_⟩
  rintro ⟨parts, hparts, hsigned, -⟩
  have hsame : parts = [{ content := .text "AB", thoughtSignature := some "s" }] := by
    have hmessage := hparts []
    cases hmessage
    rfl
  rw [hsame] at hsigned
  revert hsigned
  decide

end Chat2DB.Providers.Gemini
