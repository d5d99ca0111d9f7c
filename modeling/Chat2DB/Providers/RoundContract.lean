import Chat2DB.Providers.ModelRound

/-! # What the runner requires of a round

The contract of a round that was taken, whatever the provider: one completion, behind
everything else, and calls with new ids.
-/

namespace Chat2DB.Providers

open Agent (MessageBlock ToolCall validateArgumentSize)

variable {J : Type} {reason : StopReason}

theorem ToolCall.new_eq_ok {json : JsonReading J} {id name : String} {arguments : J}
    {call : ToolCall J} (hnew : ToolCall.new json id name arguments = .ok call) :
    json.isObject arguments = true ∧
      call = { id := id, name := name, arguments := arguments, providerIdentity := none } := by
  unfold ToolCall.new at hnew
  split_ifs at hnew with _ _ hobject
  cases hnew
  exact ⟨hobject, rfl⟩

/-! ## What the events say -/

/-- The deltas of text, in order. -/
def textsOf (events : List (ProviderEvent J)) : List String :=
  events.filterMap fun event =>
    match event with
    | .textDelta text => some text
    | _ => none

def callsOf (events : List (ProviderEvent J)) : List (ToolCall J) :=
  events.filterMap fun event =>
    match event with
    | .toolCall call => some call
    | _ => none

def completionsOf (events : List (ProviderEvent J)) : List StopReason :=
  events.filterMap fun event =>
    match event with
    | .completed reason => some reason
    | _ => none

@[simp] theorem textsOf_append (first second : List (ProviderEvent J)) :
    textsOf (first ++ second) = textsOf first ++ textsOf second :=
  List.filterMap_append

@[simp] theorem callsOf_append (first second : List (ProviderEvent J)) :
    callsOf (first ++ second) = callsOf first ++ callsOf second :=
  List.filterMap_append

@[simp] theorem completionsOf_append (first second : List (ProviderEvent J)) :
    completionsOf (first ++ second) = completionsOf first ++ completionsOf second :=
  List.filterMap_append

/-- Texts one behind the other. -/
def concatTexts (texts : List String) : String := texts.foldr (· ++ ·) ""

@[simp] theorem concatTexts_nil : concatTexts [] = "" := rfl

@[simp] theorem concatTexts_cons (text : String) (texts : List String) :
    concatTexts (text :: texts) = text ++ concatTexts texts := rfl

@[simp] theorem concatTexts_append (first second : List String) :
    concatTexts (first ++ second) = concatTexts first ++ concatTexts second := by
  induction first with
  | nil => simp
  | cons text first ih => simp [ih, String.append_assoc]

/-- The texts of a message, with nothing between them. -/
def blockTexts (blocks : List (MessageBlock J)) : List String :=
  blocks.filterMap fun block =>
    match block with
    | .text content => some content
    | _ => none

@[simp] theorem blockTexts_append (first second : List (MessageBlock J)) :
    blockTexts (first ++ second) = blockTexts first ++ blockTexts second :=
  List.filterMap_append

/-! ## The last block -/

theorem pushText_cons_cons (delta : String) (first second : MessageBlock J)
    (blocks : List (MessageBlock J)) :
    pushText delta (first :: second :: blocks) = first :: pushText delta (second :: blocks) := by
  cases first <;> rfl

/-- Text goes on in the last block, if that is one. -/
theorem pushText_text (delta previous : String) (blocks : List (MessageBlock J)) :
    pushText delta (blocks ++ [.text previous]) = blocks ++ [.text (previous ++ delta)] := by
  induction blocks with
  | nil => rfl
  | cons block blocks ih =>
    cases blocks with
    | nil => cases block <;> rfl
    | cons second blocks =>
      rw [List.cons_append, List.cons_append, pushText_cons_cons, ← List.cons_append, ih]
      rfl

theorem pushText_append (delta : String) (blocks : List (MessageBlock J)) (last : MessageBlock J)
    (hlast : last.isText = false) :
    pushText delta (blocks ++ [last]) = blocks ++ [last, .text delta] := by
  induction blocks with
  | nil => cases last <;> simp_all [pushText, MessageBlock.isText]
  | cons block blocks ih =>
    cases blocks with
    | nil =>
      cases block <;> cases last <;> simp_all [pushText, MessageBlock.isText]
    | cons second blocks =>
      rw [List.cons_append, List.cons_append, pushText_cons_cons, ← List.cons_append, ih]
      rfl

/-- The two places a delta can go to. -/
theorem pushText_cases (delta : String) (blocks : List (MessageBlock J)) :
    (∃ front previous, blocks = front ++ [.text previous] ∧
      pushText delta blocks = front ++ [.text (previous ++ delta)]) ∨
    ((∀ last ∈ blocks.getLast?, last.isText = false) ∧
      pushText delta blocks = blocks ++ [.text delta]) := by
  rcases List.eq_nil_or_concat blocks with rfl | ⟨front, last, rfl⟩
  · right
    exact ⟨by simp, rfl⟩
  · rw [List.concat_eq_append]
    cases hlast : last.isText with
    | true =>
      left
      cases last with
      | text previous => exact ⟨front, previous, rfl, pushText_text delta previous front⟩
      | toolCall call => cases hlast
      | toolResult result => cases hlast
      | providerContinuation continuation => cases hlast
    | false =>
      right
      refine ⟨?_, ?_⟩
      · intro other hother
        rw [List.getLast?_append, List.getLast?_singleton, Option.some_or,
          Option.mem_some_iff] at hother
        rw [← hother, hlast]
      · rw [pushText_append delta front last hlast, List.append_assoc]
        rfl

theorem blockTexts_pushText (delta : String) (blocks : List (MessageBlock J)) :
    concatTexts (blockTexts (pushText delta blocks)) = concatTexts (blockTexts blocks) ++ delta := by
  rcases pushText_cases delta blocks with ⟨front, previous, rfl, hpush⟩ | ⟨-, hpush⟩
  · simp [hpush, blockTexts, String.append_assoc]
  · simp [hpush, blockTexts]

/-! ## Rounds as runs over events -/

theorem cons_ok_eq_map_iff {α ε : Type} {value : α} {items : List (Except ε α)} {values : List α} :
    (.ok value : Except ε α) :: items = values.map .ok ↔
      ∃ rest, values = value :: rest ∧ items = rest.map .ok := by
  cases values with
  | nil => simp
  | cons first values =>
    simp only [List.map_cons, List.cons.injEq, Except.ok.injEq]
    constructor
    · rintro ⟨rfl, rfl⟩
      exact ⟨values, ⟨rfl, rfl⟩, rfl⟩
    · rintro ⟨rest, ⟨rfl, rfl⟩, rfl⟩
      exact ⟨rfl, rfl⟩

theorem cons_error_ne_map {α ε : Type} {error : ε} {items : List (Except ε α)} {values : List α} :
    (.error error : Except ε α) :: items ≠ values.map .ok := by
  cases values <;> simp

theorem append_map_ok_eq_iff {α ε : Type} {front : List α} {items : List (Except ε α)}
    {values : List α} :
    front.map .ok ++ items = values.map .ok ↔
      ∃ rest, values = front ++ rest ∧ items = rest.map .ok := by
  induction front generalizing values with
  | nil => simp
  | cons value front ih =>
    rw [List.map_cons, List.cons_append, cons_ok_eq_map_iff]
    simp only [ih]
    constructor
    · rintro ⟨behind, rfl, rest, rfl, hitems⟩
      exact ⟨rest, rfl, hitems⟩
    · rintro ⟨rest, rfl, hitems⟩
      exact ⟨front ++ rest, rfl, rest, rfl, hitems⟩

namespace Round

variable {limits : RoundLimits J}

/-- A round receives exactly the streams without an error item. -/
theorem receive_eq_ok_iff {round last : Round J}
    {items : List (Except ProviderError (ProviderEvent J))} :
    round.receive limits items = .ok last ↔
      ∃ events : List (ProviderEvent J),
        items = events.map .ok ∧ events.foldlM (step limits) round = .ok last := by
  induction items generalizing round with
  | nil =>
    simp only [receive, List.nil_eq, List.map_eq_nil_iff]
    constructor
    · intro hlast
      exact ⟨[], rfl, hlast⟩
    · rintro ⟨events, rfl, hfold⟩
      exact hfold
  | cons item items ih =>
    cases item with
    | error error =>
      simp only [receive, reduceCtorEq, false_iff]
      rintro ⟨events, hitems, -⟩
      exact cons_error_ne_map hitems
    | ok event =>
      simp only [receive, cons_ok_eq_map_iff]
      cases hstep : round.step limits event with
      | error error =>
        simp only [reduceCtorEq, false_iff]
        rintro ⟨events, ⟨rest, rfl, -⟩, hfold⟩
        rw [List.foldlM_cons, hstep] at hfold
        cases hfold
      | ok next =>
        simp only [ih]
        constructor
        · rintro ⟨events, rfl, hfold⟩
          refine ⟨event :: events, ⟨events, rfl, rfl⟩, ?_⟩
          rw [List.foldlM_cons, hstep]
          exact hfold
        · rintro ⟨events, ⟨rest, rfl, rfl⟩, hfold⟩
          rw [List.foldlM_cons, hstep] at hfold
          exact ⟨rest, rfl, hfold⟩

end Round

/-- A source is decoded without an error exactly if the assembler accepts each of its items. -/
theorem decodeSse_eq_map_ok_iff {σ ι : Type} {assembler : SseAssembler J σ ι} {state : σ}
    {source : List (Except ProviderError ι)} {events : List (ProviderEvent J)} :
    decodeSse assembler state source = events.map .ok ↔
      ∃ wire : List ι, source = wire.map .ok ∧ assembler.outputs state wire = .ok events := by
  induction source generalizing state events with
  | nil =>
    simp only [decodeSse, List.nil_eq, List.map_eq_nil_iff, exists_eq_left]
    rw [Transducer.outputs_iff]
    simp only [Transducer.feed_nil, Except.ok.injEq, Prod.mk.injEq]
    cases hfinish : assembler.finish state with
    | error error =>
      constructor
      · intro hevents
        exact absurd hevents cons_error_ne_map
      · rintro ⟨last, first, rest, ⟨rfl, rfl⟩, hrest, rfl⟩
        rw [hfinish] at hrest
        cases hrest
    | ok produced =>
      constructor
      · intro hevents
        obtain rfl := List.map_injective_iff.mpr (fun _ _ => Except.ok.inj) hevents
        exact ⟨state, [], produced, ⟨rfl, rfl⟩, hfinish, rfl⟩
      · rintro ⟨last, first, rest, ⟨rfl, rfl⟩, hrest, rfl⟩
        rw [hfinish, Except.ok.injEq] at hrest
        rw [hrest]
  | cons item source ih =>
    cases item with
    | error error =>
      simp only [decodeSse]
      constructor
      · intro hevents
        exact absurd hevents cons_error_ne_map
      · rintro ⟨wire, hwire, -⟩
        exact absurd hwire cons_error_ne_map
    | ok event =>
      simp only [decodeSse, cons_ok_eq_map_iff]
      cases hpush : assembler.push state event with
      | error error =>
        constructor
        · intro hevents
          exact absurd hevents cons_error_ne_map
        · rintro ⟨wire, ⟨rest, rfl, -⟩, houtputs⟩
          obtain ⟨last, first, behind, hfeed, -, -⟩ := Transducer.outputs_iff.mp houtputs
          obtain ⟨next, first, behind, hfirst, -, -⟩ := Transducer.feed_cons_iff.mp hfeed
          rw [hpush] at hfirst
          cases hfirst
      | ok answer =>
        obtain ⟨next, produced⟩ := answer
        simp only [append_map_ok_eq_iff, ih]
        constructor
        · rintro ⟨rest, rfl, wire, rfl, houtputs⟩
          refine ⟨event :: wire, ⟨wire, rfl, rfl⟩, ?_⟩
          obtain ⟨last, first, behind, hfeed, hfinish, rfl⟩ :=
            Transducer.outputs_iff.mp houtputs
          exact Transducer.outputs_iff.mpr ⟨last, produced ++ first, behind,
            Transducer.feed_cons_iff.mpr ⟨next, produced, first, hpush, hfeed, rfl⟩, hfinish,
            (List.append_assoc _ _ _).symm⟩
        · rintro ⟨wire, ⟨rest, rfl, rfl⟩, houtputs⟩
          obtain ⟨last, both, behind, hfeed, hfinish, rfl⟩ :=
            Transducer.outputs_iff.mp houtputs
          obtain ⟨next', first, second, hfirst, hsecond, rfl⟩ :=
            Transducer.feed_cons_iff.mp hfeed
          rw [hpush, Except.ok.injEq, Prod.mk.injEq] at hfirst
          obtain ⟨rfl, rfl⟩ := hfirst
          exact ⟨second ++ behind, List.append_assoc _ _ _, rest, rfl,
            Transducer.outputs_iff.mpr ⟨last, second, behind, hsecond, hfinish, rfl⟩⟩

/-- What an accepted round is, item by item. -/
theorem modelRound_eq_ok_iff {σ ι : Type} {limits : RoundLimits J} {assembler : SseAssembler J σ ι}
    {used : List String} {source : List (Except ProviderError ι)} {round : Round J} :
    modelRound limits assembler used source = .ok (round, reason) ↔
      ∃ (wire : List ι) (events : List (ProviderEvent J)), source = wire.map .ok ∧
        assembler.outputs assembler.start wire = .ok events ∧
        events.foldlM (Round.step limits) (Round.start used) = .ok round ∧
        round.complete = .ok reason := by
  simp only [modelRound, Outcome.bind_eq_ok, Outcome.pure_eq_ok, Prod.mk.injEq,
    Round.receive_eq_ok_iff]
  constructor
  · rintro ⟨round, ⟨events, hdecode, hfold⟩, reason, hcomplete, rfl, rfl⟩
    obtain ⟨wire, hsource, houtputs⟩ := decodeSse_eq_map_ok_iff.mp hdecode
    exact ⟨wire, events, hsource, houtputs, hfold, hcomplete⟩
  · rintro ⟨wire, events, hsource, houtputs, hfold, hcomplete⟩
    exact ⟨round, ⟨events, decodeSse_eq_map_ok_iff.mpr ⟨wire, hsource, houtputs⟩, hfold⟩, reason,
      hcomplete, rfl, rfl⟩

/-! ## The contract -/

/-- What the events of an unfinished round have made of it. -/
structure Round.Holds (limits : RoundLimits J) (used : List String)
    (events : List (ProviderEvent J)) (round : Round J) : Prop where
  text : round.text = concatTexts (textsOf events)
  blocks : concatTexts (blockTexts round.assistantBlocks) = round.text
  calls : round.calls = callsOf events
  ids : round.usedCallIds = used ++ round.calls.map ToolCall.id
  fresh : ∀ call ∈ round.calls, call.id ∉ used
  distinct : (round.calls.map ToolCall.id).Nodup
  perRound : round.calls.length ≤ limits.maxToolCallsPerRound
  total : limits.totalToolCalls ≤ limits.maxTotalToolCalls →
    limits.totalToolCalls + round.calls.length ≤ limits.maxTotalToolCalls
  known : ∀ call ∈ round.calls, call.name ∈ limits.toolNames
  unfinished : round.completion = none ∧ completionsOf events = []

namespace Round

variable {limits : RoundLimits J} {used : List String} {events : List (ProviderEvent J)}
  {round next : Round J}

/-- A round begins with nothing received. -/
theorem start_holds : Holds limits used [] (start used : Round J) where
  text := rfl
  blocks := rfl
  calls := rfl
  ids := (List.append_nil used).symm
  fresh := by simp [start]
  distinct := List.nodup_nil
  perRound := Nat.zero_le _
  total := fun htotal => htotal
  known := by simp [start]
  unfinished := ⟨rfl, rfl⟩

theorem step_of_unfinished (hunfinished : round.completion = none) (event : ProviderEvent J) :
    round.step limits event = round.accept limits event := by
  unfold step
  rw [hunfinished]

/-- After its completion a round takes no event. -/
theorem step_of_completed (hcompleted : round.completion = some reason) (event : ProviderEvent J) :
    round.step limits event ≠ .ok next := by
  unfold step
  rw [hcompleted]
  cases event <;> simp

/-- The checks that a call passes. -/
theorem validateModelCall_eq_ok_iff {call : ToolCall J} {ids : List String} :
    validateModelCall limits used call = .ok ids ↔
      call.name ∈ limits.toolNames ∧ validateArgumentSize limits.arguments call = .ok () ∧
        call.id ∉ used ∧ ids = used ++ [call.id] := by
  simp only [validateModelCall, Outcome.bind_eq_ok, Outcome.rejectIf_eq_ok, Outcome.pure_eq_ok,
    not_not]
  constructor
  · rintro ⟨-, hname, ⟨⟩, hsize, -, hfresh, rfl⟩
    exact ⟨hname, hsize, hfresh, rfl⟩
  · rintro ⟨hname, hsize, hfresh, rfl⟩
    exact ⟨(), hname, (), hsize, (), hfresh, rfl⟩

/-- A call is accepted exactly if it passes its checks. -/
theorem accept_toolCall_iff {call : ToolCall J} :
    round.accept limits (.toolCall call) = .ok next ↔
      call.name ∈ limits.toolNames ∧ validateArgumentSize limits.arguments call = .ok () ∧
        call.id ∉ round.usedCallIds ∧ round.calls.length ≠ limits.maxToolCallsPerRound ∧
        limits.totalToolCalls + round.calls.length ≠ limits.maxTotalToolCalls ∧
        next = { round with
          usedCallIds := round.usedCallIds ++ [call.id]
          assistantBlocks := round.assistantBlocks ++ [.toolCall call]
          calls := round.calls ++ [call] } := by
  simp only [accept, Outcome.bind_eq_ok, validateModelCall_eq_ok_iff, Outcome.rejectIf_eq_ok,
    Outcome.pure_eq_ok]
  constructor
  · rintro ⟨ids, ⟨hname, hsize, hfresh, rfl⟩, -, hround, -, htotal, rfl⟩
    exact ⟨hname, hsize, hfresh, hround, htotal, rfl⟩
  · rintro ⟨hname, hsize, hfresh, hround, htotal, rfl⟩
    exact ⟨_, ⟨hname, hsize, hfresh, rfl⟩, (), hround, (), htotal, rfl⟩

theorem accept_textDelta_iff {delta : String} :
    round.accept limits (.textDelta delta) = .ok next ↔
      round.text.utf8ByteSize + delta.utf8ByteSize ≤ limits.maxRoundTextBytes ∧
        next = { round with
          text := round.text ++ delta
          assistantBlocks := pushText delta round.assistantBlocks } := by
  simp only [accept, Outcome.bind_eq_ok, Outcome.rejectIf_eq_ok, Outcome.pure_eq_ok, not_lt]
  constructor
  · rintro ⟨-, hsize, rfl⟩
    exact ⟨hsize, rfl⟩
  · rintro ⟨hsize, rfl⟩
    exact ⟨(), hsize, rfl⟩

/-- An event that does not complete the round keeps what holds of it. -/
theorem Holds.accept (hholds : Holds limits used events round) {event : ProviderEvent J}
    (hevent : completionsOf [event] = []) (haccept : round.accept limits event = .ok next) :
    Holds limits used (events ++ [event]) next := by
  have hcompletions : completionsOf (events ++ [event]) = [] := by
    rw [completionsOf_append, hholds.unfinished.2, hevent, List.append_nil]
  -- one case for each kind of event that a round takes
  cases event with
  | textDelta delta =>
    obtain ⟨-, rfl⟩ := accept_textDelta_iff.mp haccept
    exact { hholds with
      text := by
        simp [hholds.text, textsOf]
      blocks := by
        rw [blockTexts_pushText, hholds.blocks]
      calls := by
        simp [hholds.calls, callsOf]
      unfinished := ⟨hholds.unfinished.1, hcompletions⟩ }
  | toolCall call =>
    obtain ⟨hname, -, hfresh, hround, htotal, rfl⟩ := accept_toolCall_iff.mp haccept
    rw [hholds.ids, List.mem_append, not_or] at hfresh
    exact
      { text := by
          simp [hholds.text, textsOf]
        blocks := by
          simp [← hholds.blocks, blockTexts]
        calls := by
          simp [hholds.calls, callsOf]
        ids := by
          simp [hholds.ids]
        fresh := by
          intro other hother
          rcases List.mem_append.mp hother with hother | hother
          · exact hholds.fresh other hother
          · rw [List.mem_singleton.mp hother]
            exact hfresh.1
        distinct := by
          rw [List.map_append, List.map_singleton]
          exact hholds.distinct.append (List.nodup_singleton _)
            (List.disjoint_singleton.mpr hfresh.2)
        perRound := by
          have hlength := hholds.perRound
          rw [List.length_append, List.length_singleton]
          omega
        total := by
          intro hlimit
          have hlength := hholds.total hlimit
          rw [List.length_append, List.length_singleton]
          omega
        known := by
          intro other hother
          rcases List.mem_append.mp hother with hother | hother
          · exact hholds.known other hother
          · rw [List.mem_singleton.mp hother]
            exact hname
        unfinished := ⟨hholds.unfinished.1, hcompletions⟩ }
  | providerContinuation continuation =>
    simp only [Round.accept, Except.ok.injEq] at haccept
    subst haccept
    exact { hholds with
      text := by
        simp [hholds.text, textsOf]
      blocks := by
        simp [← hholds.blocks, blockTexts]
      calls := by
        simp [hholds.calls, callsOf]
      unfinished := ⟨hholds.unfinished.1, hcompletions⟩ }
  | usage usage =>
    simp only [Round.accept, Except.ok.injEq] at haccept
    subst haccept
    exact { hholds with
      text := by
        simp [hholds.text, textsOf]
      calls := by
        simp [hholds.calls, callsOf]
      unfinished := ⟨hholds.unfinished.1, hcompletions⟩ }
  | completed reason => cases hevent

/-- A run of the loop ends before its completion, or right behind it. -/
theorem foldlM_step_cases {last : Round J}
    (hfold : events.foldlM (step limits) (start used) = .ok last) :
    Holds limits used events last ∨
      ∃ front before reason, events = front ++ [.completed reason] ∧
        Holds limits used front before ∧ last = { before with completion := some reason } := by
  induction events using List.reverseRecOn generalizing last with
  | nil =>
    left
    cases hfold
    exact start_holds
  | append_singleton events event ih =>
    rw [List.foldlM_append, Outcome.bind_eq_ok] at hfold
    obtain ⟨before, hbefore, hlast⟩ := hfold
    rw [List.foldlM_cons, Outcome.bind_eq_ok] at hlast
    obtain ⟨middle, hstep, hnil⟩ := hlast
    cases hnil
    rcases ih hbefore with hholds | ⟨front, inner, reason, rfl, hholds, rfl⟩
    · rw [step_of_unfinished hholds.unfinished.1] at hstep
      by_cases hcompletes : completionsOf [event] = []
      · left
        exact hholds.accept hcompletes hstep
      · right
        cases event with
        | completed reason =>
          simp only [Round.accept, Except.ok.injEq] at hstep
          exact ⟨events, before, reason, rfl, hholds, hstep.symm⟩
        | textDelta delta => exact absurd rfl hcompletes
        | toolCall call => exact absurd rfl hcompletes
        | providerContinuation continuation => exact absurd rfl hcompletes
        | usage usage => exact absurd rfl hcompletes
    · exact absurd hstep (step_of_completed rfl event)

/-- The completion is the last event of an accepted round. -/
theorem foldlM_step_complete {last : Round J}
    (hfold : events.foldlM (step limits) (start used) = .ok last)
    (hcomplete : last.complete = .ok reason) :
    ∃ front before, events = front ++ [.completed reason] ∧ Holds limits used front before ∧
      last = { before with completion := some reason } ∧
      (reason = .toolCalls ↔ before.calls ≠ []) := by
  rcases foldlM_step_cases hfold with hholds | ⟨front, before, ended, rfl, hholds, rfl⟩
  · rw [complete, hholds.unfinished.1] at hcomplete
    cases hcomplete
  · simp only [complete] at hcomplete
    split at hcomplete
    case isTrue => cases hcomplete
    case isFalse hmatch =>
      rw [Except.ok.injEq] at hcomplete
      subst hcomplete
      refine ⟨front, before, rfl, hholds, rfl, ?_⟩
      cases hcalls : before.calls <;> simp_all

end Round

/-- A round that is taken was read without an error, and its one completion came behind
everything that the round was made of. -/
theorem modelRound_contract {σ ι : Type} (limits : RoundLimits J) (assembler : SseAssembler J σ ι)
    (used : List String) (source : List (Except ProviderError ι)) (round : Round J)
    (reason : StopReason) (hround : modelRound limits assembler used source = .ok (round, reason)) :
    ∃ (wire : List ι) (front : List (ProviderEvent J)) (before : Round J),
      source = wire.map .ok ∧
      assembler.outputs assembler.start wire = .ok (front ++ [.completed reason]) ∧
      Round.Holds limits used front before ∧
      round = { before with completion := some reason } ∧
      (reason = .toolCalls ↔ round.calls ≠ []) := by
  obtain ⟨wire, events, hsource, houtputs, hfold, hcomplete⟩ := modelRound_eq_ok_iff.mp hround
  obtain ⟨front, before, rfl, hholds, rfl, hcalls⟩ := Round.foldlM_step_complete hfold hcomplete
  exact ⟨wire, front, before, hsource, houtputs, hholds, rfl, hcalls⟩

end Chat2DB.Providers
