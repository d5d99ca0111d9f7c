import Chat2DB.Agent.Context

/-! # What compaction leaves

The messages fall into turns, each of which begins with a message of the user. What is
taken out of a conversation is a number of whole turns from its first one on.
-/

namespace Chat2DB.Agent

variable {J : Type}

/-! ## Turns -/

/-- What comes before the first message of the user, and the turns from there on. -/
def groups : List (Message J) → List (Message J) × List (List (Message J))
  | [] => ([], [])
  | message :: messages =>
    let (front, turns) := groups messages
    if message.role = .user then ([], (message :: front) :: turns) else (message :: front, turns)

def NoUser (messages : List (Message J)) : Prop := ∀ message ∈ messages, message.role ≠ .user

/-- A message of the user with everything up to the next one. -/
def IsTurn (turn : List (Message J)) : Prop :=
  ∃ user others, turn = user :: others ∧ user.role = .user ∧ NoUser others

/-- A conversation is what stands before its first user message, and turns. -/
theorem groups_spec (messages : List (Message J)) :
    messages = (groups messages).1 ++ (groups messages).2.flatten ∧ NoUser (groups messages).1 ∧
      ∀ turn ∈ (groups messages).2, IsTurn turn := by
  induction messages with
  | nil => exact ⟨rfl, nofun, nofun⟩
  | cons message messages ih =>
    obtain ⟨hmessages, hfront, hturns⟩ := ih
    unfold groups
    by_cases huser : message.role = .user
    · simp only [if_pos huser]
      refine ⟨?_, nofun, List.forall_mem_cons.mpr ⟨⟨message, _, rfl, huser, hfront⟩, hturns⟩⟩
      rw [List.nil_append, List.flatten_cons, List.cons_append, ← hmessages]
    · simp only [if_neg huser]
      refine ⟨?_, List.forall_mem_cons.mpr ⟨huser, hfront⟩, hturns⟩
      rw [List.cons_append, ← hmessages]

theorem userIndexes_append (start : Nat) (first second : List (Message J)) :
    userIndexes start (first ++ second) =
      userIndexes start first ++ userIndexes (start + first.length) second := by
  induction first generalizing start with
  | nil => rfl
  | cons message first ih =>
    have hstart : start + (message :: first).length = start + 1 + first.length := by
      rw [List.length_cons]
      omega
    rw [List.cons_append, userIndexes, userIndexes, ih, hstart]
    split_ifs <;> rfl

theorem userIndexes_noUser (start : Nat) {messages : List (Message J)} (hnone : NoUser messages) :
    userIndexes start messages = [] := by
  induction messages generalizing start with
  | nil => rfl
  | cons message messages ih =>
    obtain ⟨hmessage, hmessages⟩ := List.forall_mem_cons.mp hnone
    rw [userIndexes, if_neg hmessage, ih _ hmessages]

/-- The beginnings of the turns. -/
def starts (start : Nat) : List (List (Message J)) → List Nat
  | [] => []
  | turn :: turns => start :: starts (start + turn.length) turns

/-- The turns as ranges. -/
def spans (start : Nat) : List (List (Message J)) → List (Nat × Nat)
  | [] => []
  | turn :: turns => (start, start + turn.length) :: spans (start + turn.length) turns

/-- The user messages of turns are where the turns begin. -/
theorem userIndexes_turns (start : Nat) {turns : List (List (Message J))}
    (hturns : ∀ turn ∈ turns, IsTurn turn) :
    userIndexes start turns.flatten = starts start turns := by
  induction turns generalizing start with
  | nil => rfl
  | cons turn turns ih =>
    obtain ⟨⟨user, others, rfl, huser, hothers⟩, hrest⟩ := List.forall_mem_cons.mp hturns
    rw [List.flatten_cons, userIndexes_append, userIndexes, if_pos huser,
      userIndexes_noUser _ hothers, ih _ hrest]
    rfl

/-- Each turn but the last reaches to the beginning of the next. -/
theorem zip_starts (start : Nat) (turns : List (List (Message J))) :
    (starts start turns).zip (starts start turns).tail = spans start turns.dropLast := by
  induction turns generalizing start with
  | nil => rfl
  | cons turn turns ih =>
    cases turns with
    | nil => rfl
    | cons next turns =>
      rw [List.dropLast_cons_cons, spans, ← ih]
      rfl

theorem slice_middle (front turn rest : List (Message J)) :
    slice (front ++ turn ++ rest) (front.length, front.length + turn.length) = turn := by
  simp [slice]

theorem drain_middle (front turn rest : List (Message J)) :
    drain (front ++ turn ++ rest) (front.length, front.length + turn.length) = front ++ rest := by
  simp [drain]

/-- The ranges in front that may be removed are those of the turns in front that may. -/
theorem takeWhile_spans (front rest : List (Message J)) (turns : List (List (Message J))) :
    (spans front.length turns).takeWhile
        (fun range => removable (slice (front ++ turns.flatten ++ rest) range)) =
      spans front.length (turns.takeWhile removable) := by
  induction turns generalizing front with
  | nil => rfl
  | cons turn turns ih =>
    have hregroup : front ++ (turn :: turns).flatten ++ rest =
        front ++ turn ++ (turns.flatten ++ rest) := by simp
    have hnext : front ++ (turn :: turns).flatten ++ rest =
        (front ++ turn) ++ turns.flatten ++ rest := by simp
    have hfirst : slice (front ++ (turn :: turns).flatten ++ rest)
        (front.length, front.length + turn.length) = turn := by
      rw [hregroup, slice_middle]
    rw [spans, List.takeWhile_cons, List.takeWhile_cons, hfirst]
    split_ifs with hremovable
    · rw [spans, hnext, ← List.length_append, ih (front ++ turn)]
    · rfl

/-- The turns that can be left out: never the last, and none after one that has to stay. -/
def candidates (turns : List (List (Message J))) : List (List (Message J)) :=
  turns.dropLast.takeWhile removable

/-- The compactable ranges are those of the candidates, in order. -/
theorem compactableTurns_eq {front : List (Message J)} {turns : List (List (Message J))}
    (hfront : NoUser front) (hturns : ∀ turn ∈ turns, IsTurn turn) :
    compactableTurns (front ++ turns.flatten) = spans front.length (candidates turns) := by
  have husers : userIndexes 0 (front ++ turns.flatten) = starts front.length turns := by
    rw [userIndexes_append, userIndexes_noUser _ hfront, List.nil_append, Nat.zero_add,
      userIndexes_turns _ hturns]
  rw [compactableTurns, husers, zip_starts, candidates]
  rcases List.eq_nil_or_concat turns with rfl | ⟨others, last, rfl⟩
  · rfl
  · have hmessages : front ++ (others.concat last).flatten = front ++ others.flatten ++ last := by
      simp
    rw [hmessages, List.concat_eq_append, List.dropLast_concat, takeWhile_spans]

theorem candidates_first (turns : List (List (Message J))) : candidates turns <+: turns :=
  (List.takeWhile_prefix _).trans (List.dropLast_prefix _)

theorem candidates_cons {turn : List (Message J)} {turns : List (List (Message J))}
    (hremovable : removable turn = true) (hturns : turns ≠ []) :
    candidates (turn :: turns) = turn :: candidates turns := by
  rw [candidates, List.dropLast_cons_of_ne_nil hturns, List.takeWhile_cons_of_pos hremovable]
  rfl

theorem candidates_head {turns more : List (List (Message J))} {turn : List (Message J)}
    (hcandidates : candidates turns = turn :: more) :
    removable turn = true ∧ ∃ others, turns = turn :: others ∧ others ≠ [] := by
  cases turns with
  | nil => cases hcandidates
  | cons first others =>
    by_cases hothers : others = []
    · subst hothers
      cases hcandidates
    · rw [candidates, List.dropLast_cons_of_ne_nil hothers, List.takeWhile_cons] at hcandidates
      split_ifs at hcandidates with hremovable
      obtain ⟨rfl, -⟩ := List.cons.inj hcandidates
      exact ⟨hremovable, others, rfl, hothers⟩

/-! ## Trimming -/

/-- The estimate for the messages reaches the threshold. -/
def ContextManager.Reached (manager : ContextManager J) (messages : List (Message J)) : Prop :=
  ∃ usage, manager.estimate messages = .ok usage ∧ manager.budget.thresholdReached usage = true

/-- Some turns are left out, as few as are needed or all that can be. -/
structure Trimmed (manager : ContextManager J) (front : List (Message J))
    (turns : List (List (Message J))) (count : Nat) : Prop where
  possible : count ≤ (candidates turns).length
  needed : ∀ fewer < count, manager.Reached (front ++ (turns.drop fewer).flatten)
  enough : ¬manager.Reached (front ++ (turns.drop count).flatten) ∨
    count = (candidates turns).length

/-- Trimming removes candidates one by one until the threshold is no longer reached. -/
theorem trim_spec {manager : ContextManager J} {front result : List (Message J)}
    {turns : List (List (Message J))} {turnsBefore before turnsAfter after : Nat}
    (hfront : NoUser front) (hturns : ∀ turn ∈ turns, IsTurn turn)
    (htrim : trim manager (front ++ turns.flatten) turnsBefore before =
      .ok (result, turnsAfter, after)) :
    ∃ count, Trimmed manager front turns count ∧ result = front ++ (turns.drop count).flatten ∧
      turnsAfter = turnsBefore + count ∧
      after = before + (turns.take count).flatten.length := by
  have hstop : ∀ turns : List (List (Message J)),
      (¬manager.Reached (front ++ turns.flatten) ∨ candidates turns = []) →
      Trimmed manager front turns 0 := by
    intro turns hends
    refine ⟨Nat.zero_le _, nofun, ?_⟩
    rcases hends with hreached | hnone
    · exact .inl hreached
    · exact .inr (by rw [hnone]; rfl)
  -- each round of the loop removes the first turn
  induction turns generalizing turnsBefore before with
  | nil =>
    have hnone : (compactableTurns (front ++ ([] : List (List (Message J))).flatten)).head? =
        none := by
      rw [compactableTurns_eq hfront hturns]
      rfl
    rw [trim] at htrim
    split at htrim
    · cases htrim
    · split_ifs at htrim
      · split at htrim
        · obtain ⟨rfl, rfl, rfl⟩ := by simpa using htrim
          exact ⟨0, hstop [] (.inr rfl), by simp, rfl, rfl⟩
        · rename_i range hrange
          cases hnone.symm.trans hrange
      · obtain ⟨rfl, rfl, rfl⟩ := by simpa using htrim
        exact ⟨0, hstop [] (.inr rfl), by simp, rfl, rfl⟩
  | cons turn turns ih =>
    have hranges := compactableTurns_eq hfront hturns
    rw [trim] at htrim
    split at htrim
    · cases htrim
    rename_i usage husage
    split_ifs at htrim with hthreshold
    · split at htrim
      · rename_i hrange
        cases htrim
        refine ⟨0, hstop _ (.inr ?_), rfl, rfl, rfl⟩
        rw [hranges] at hrange
        cases hcandidates : candidates (turn :: turns) with
        | nil => rfl
        | cons first more =>
          rw [hcandidates] at hrange
          cases hrange
      · rename_i range hrange
        rw [hranges] at hrange
        cases hcandidates : candidates (turn :: turns) with
        | nil =>
          rw [hcandidates] at hrange
          cases hrange
        | cons first more =>
          obtain ⟨hremovable, others, hsame, hothers⟩ := candidates_head hcandidates
          obtain ⟨rfl, rfl⟩ := List.cons.inj hsame
          rw [hcandidates] at hrange
          obtain rfl := Option.some.inj hrange
          have hdrain : drain (front ++ (turn :: turns).flatten)
              (front.length, front.length + turn.length) = front ++ turns.flatten := by
            rw [List.flatten_cons, ← List.append_assoc, drain_middle]
          rw [hdrain, Nat.add_sub_cancel_left] at htrim
          obtain ⟨count, htrimmed, hresult, hturnsAfter, hafter⟩ :=
            ih (fun other hother => hturns other (List.mem_cons_of_mem _ hother)) htrim
          refine ⟨count + 1, ?_, hresult, by omega, ?_⟩
          · have hlength : (candidates (turn :: turns)).length =
                (candidates turns).length + 1 := by
              rw [candidates_cons hremovable hothers, List.length_cons]
            constructor
            · rw [hlength]
              exact Nat.succ_le_succ htrimmed.possible
            · intro fewer hfewer
              cases fewer with
              | zero => exact ⟨usage, husage, hthreshold⟩
              | succ fewer => exact htrimmed.needed fewer (by omega)
            · rw [hlength]
              exact htrimmed.enough.imp_right (congrArg (· + 1))
          · rw [List.take_succ_cons, List.flatten_cons, List.length_append]
            omega
    · cases htrim
      refine ⟨0, hstop _ (.inl ?_), rfl, rfl, rfl⟩
      rintro ⟨other, hother, hreached⟩
      rw [husage] at hother
      obtain rfl := Except.ok.inj hother
      exact hthreshold hreached

/-! ## Calls and results -/

def callIds (blocks : List (MessageBlock J)) : List String :=
  blocks.filterMap fun
    | .toolCall call => some call.id
    | _ => none

def resultIds (blocks : List (MessageBlock J)) : List String :=
  blocks.filterMap fun
    | .toolResult result => some result.callId
    | _ => none

/-- Complete blocks have a result for each call, and no other ones. -/
theorem complete_ids {pending : List String} {blocks : List (MessageBlock J)}
    (hcomplete : toolPairsComplete pending blocks = true) :
    (∀ id ∈ resultIds blocks, id ∈ pending ∨ id ∈ callIds blocks) ∧
      ∀ id, id ∈ pending ∨ id ∈ callIds blocks → id ∈ resultIds blocks := by
  induction blocks generalizing pending with
  | nil =>
    rw [toolPairsComplete, List.isEmpty_iff] at hcomplete
    subst hcomplete
    exact ⟨nofun, by rintro id (hid | hid) <;> cases hid⟩
  | cons block blocks ih =>
    cases block with
    | text content => exact ih hcomplete
    | providerContinuation continuation => exact ih hcomplete
    | toolCall call =>
      rw [toolPairsComplete] at hcomplete
      split_ifs at hcomplete
      obtain ⟨hresults, hcalls⟩ := ih hcomplete
      have hids : callIds (.toolCall call :: blocks) = call.id :: callIds blocks := rfl
      have hsame : resultIds (.toolCall call :: blocks) = resultIds blocks := rfl
      rw [hids, hsame]
      constructor
      · intro id hid
        have := hresults id hid
        rw [List.mem_cons] at this ⊢
        tauto
      · intro id hid
        apply hcalls
        rw [List.mem_cons] at hid ⊢
        tauto
    | toolResult result =>
      rw [toolPairsComplete] at hcomplete
      split_ifs at hcomplete with hpending
      obtain ⟨hresults, hcalls⟩ := ih hcomplete
      have hids : resultIds (.toolResult result :: blocks) =
          result.callId :: resultIds blocks := rfl
      have hsame : callIds (.toolResult result :: blocks) = callIds blocks := rfl
      rw [hids, hsame]
      constructor
      · intro id hid
        rcases List.mem_cons.mp hid with rfl | hid
        · exact .inl hpending
        · exact (hresults id hid).imp_left List.mem_of_mem_erase
      · intro id hid
        by_cases hthis : id = result.callId
        · exact List.mem_cons.mpr (.inl hthis)
        · refine List.mem_cons_of_mem _ (hcalls id (hid.imp_left fun hmem => ?_))
          exact (List.mem_erase_of_ne hthis).mpr hmem

/-- What valid messages add to the pairing. -/
structure Adds (pairing next : Pairing) (blocks : List (MessageBlock J)) : Prop where
  calls : next.calls = pairing.calls ++ callIds blocks
  results : next.results = pairing.results ++ resultIds blocks
  fresh : ∀ id ∈ callIds blocks, id ∉ pairing.calls

variable {limits : ArgumentLimits J} {pairing next : Pairing}

theorem Adds.refl (pairing : Pairing) : Adds pairing pairing ([] : List (MessageBlock J)) :=
  ⟨(List.append_nil _).symm, (List.append_nil _).symm, nofun⟩

theorem Adds.trans {last : Pairing} {first second : List (MessageBlock J)}
    (hfirst : Adds pairing next first) (hsecond : Adds next last second) :
    Adds pairing last (first ++ second) := by
  have hcalls : callIds (first ++ second) = callIds first ++ callIds second :=
    List.filterMap_append
  have hresults : resultIds (first ++ second) = resultIds first ++ resultIds second :=
    List.filterMap_append
  constructor
  · rw [hsecond.calls, hfirst.calls, hcalls, List.append_assoc]
  · rw [hsecond.results, hfirst.results, hresults, List.append_assoc]
  · intro id hid
    rw [hcalls, List.mem_append] at hid
    rcases hid with hid | hid
    · exact hfirst.fresh id hid
    · have hnew := hsecond.fresh id hid
      rw [hfirst.calls, List.mem_append, not_or] at hnew
      exact hnew.1

/-- An accepted answer adds its calls and results to the pairing. -/
theorem adds_assistantBlocks {previous : Option (MessageBlock J)} {blocks : List (MessageBlock J)}
    (hvalid : validateAssistantBlocks limits previous pairing blocks = .ok next) :
    Adds pairing next blocks := by
  induction blocks generalizing previous pairing with
  | nil =>
    obtain rfl := Except.ok.inj hvalid
    exact .refl _
  | cons block blocks ih =>
    cases block with
    | text content =>
      obtain ⟨hcalls, hresults, hfresh⟩ := ih hvalid
      exact ⟨hcalls, hresults, hfresh⟩
    | toolResult result => cases hvalid
    | providerContinuation continuation =>
      rw [validateAssistantBlocks] at hvalid
      split_ifs at hvalid
      obtain ⟨hcalls, hresults, hfresh⟩ := ih hvalid
      exact ⟨hcalls, hresults, hfresh⟩
    | toolCall call =>
      rw [validateAssistantBlocks] at hvalid
      split at hvalid
      · cases hvalid
      split_ifs at hvalid with hduplicate
      have hfirst : Adds pairing { pairing with calls := pairing.calls ++ [call.id] }
          [MessageBlock.toolCall call] := by
        refine ⟨rfl, (List.append_nil _).symm, fun id hid => ?_⟩
        obtain rfl := List.mem_singleton.mp hid
        exact hduplicate
      exact hfirst.trans (ih hvalid)

theorem onlyText_ids {blocks : List (MessageBlock J)}
    (htext : ¬(blocks.any fun block => !block.isText) = true) :
    callIds blocks = [] ∧ resultIds blocks = [] := by
  rw [List.any_eq_true, not_exists] at htext
  constructor
  · rw [callIds, List.filterMap_eq_nil_iff]
    intro block hblock
    have := htext block
    cases block with
    | toolCall call => exact absurd ⟨hblock, rfl⟩ this
    | _ => rfl
  · rw [resultIds, List.filterMap_eq_nil_iff]
    intro block hblock
    have := htext block
    cases block with
    | toolResult result => exact absurd ⟨hblock, rfl⟩ this
    | _ => rfl

theorem adds_message {message : Message J}
    (hvalid : validateMessage limits pairing message = .ok next) :
    Adds pairing next message.blocks := by
  have htext : ¬(message.blocks.any fun block => !block.isText) = true →
      Adds pairing pairing message.blocks := by
    intro hall
    obtain ⟨hcalls, hresults⟩ := onlyText_ids hall
    exact ⟨by rw [hcalls, List.append_nil], by rw [hresults, List.append_nil], by simp [hcalls]⟩
  unfold validateMessage at hvalid
  split at hvalid
  · split_ifs at hvalid with hall
    obtain rfl := Except.ok.inj hvalid
    exact htext hall
  · split_ifs at hvalid with hall
    obtain rfl := Except.ok.inj hvalid
    exact htext hall
  · exact adds_assistantBlocks hvalid
  · split at hvalid
    · rename_i result hblocks
      split_ifs at hvalid with hwrong
      obtain rfl := Except.ok.inj hvalid
      rw [hblocks]
      exact ⟨(List.append_nil _).symm, rfl, nofun⟩
    · cases hvalid

/-- An accepted conversation adds its calls and results to the pairing. -/
theorem adds_messages {messages : List (Message J)}
    (hvalid : validateMessages limits pairing messages = .ok next) :
    Adds pairing next (messages.flatMap Message.blocks) := by
  induction messages generalizing pairing with
  | nil =>
    obtain rfl := Except.ok.inj hvalid
    exact .refl _
  | cons message messages ih =>
    rw [validateMessages] at hvalid
    split at hvalid
    · cases hvalid
    · rename_i middle hmessage
      exact (adds_message hmessage).trans (ih hvalid)

/-! ## Validity without some turns -/

/-- Calls that are settled are not known, and neither are their results. -/
structure Forgets (full less : Pairing) : Prop where
  calls : ∀ id ∈ less.calls, id ∈ full.calls
  settled : ∀ id ∈ full.calls, id ∈ less.calls ∨ id ∈ full.results
  results : ∀ id ∈ less.results, id ∈ full.results
  others : ∀ id ∈ full.results, id ∈ less.results ∨ id ∉ less.calls
  known : ∀ id ∈ full.results, id ∈ full.calls

variable {full less : Pairing}

/-- A call that is new to a pairing is new to one that has forgotten some. -/
theorem Forgets.call {id : String} (hforgets : Forgets full less) (hnew : id ∉ full.calls) :
    id ∉ less.calls ∧ Forgets { full with calls := full.calls ++ [id] }
      { less with calls := less.calls ++ [id] } := by
  obtain ⟨hcalls, hsettled, hresults, hothers, hknown⟩ := hforgets
  have hunanswered : id ∉ full.results := fun hid => hnew (hknown id hid)
  refine ⟨fun hid => hnew (hcalls id hid), ?_, ?_, hresults, ?_, ?_⟩
  · intro other hother
    simp only [List.mem_append, List.mem_singleton] at hother ⊢
    exact hother.imp_left (hcalls other)
  · intro other hother
    simp only [List.mem_append, List.mem_singleton] at hother ⊢
    rcases hother with hother | rfl
    · exact (hsettled other hother).imp_left .inl
    · exact .inl (.inr rfl)
  · intro other hother
    simp only [List.mem_append, List.mem_singleton, not_or]
    refine (hothers other hother).imp_right fun hmissing => ⟨hmissing, ?_⟩
    rintro rfl
    exact hunanswered hother
  · intro other hother
    exact List.mem_append_left _ (hknown other hother)

/-- A result is matched by its call also after earlier pairs were forgotten. -/
theorem Forgets.result {id : String} (hforgets : Forgets full less) (hcall : id ∈ full.calls)
    (hnew : id ∉ full.results) :
    (id ∈ less.calls ∧ id ∉ less.results) ∧ Forgets { full with results := full.results ++ [id] }
      { less with results := less.results ++ [id] } := by
  obtain ⟨hcalls, hsettled, hresults, hothers, hknown⟩ := hforgets
  have hless : id ∈ less.calls := (hsettled id hcall).resolve_right hnew
  refine ⟨⟨hless, fun hid => hnew (hresults id hid)⟩, hcalls, ?_, ?_, ?_, ?_⟩
  · intro other hother
    exact (hsettled other hother).imp_right (List.mem_append_left _)
  · intro other hother
    simp only [List.mem_append, List.mem_singleton] at hother ⊢
    exact hother.imp_left (hresults other)
  · intro other hother
    simp only [List.mem_append, List.mem_singleton] at hother ⊢
    rcases hother with hother | rfl
    · exact (hothers other hother).imp_left .inl
    · exact .inl (.inr rfl)
  · intro other hother
    simp only [List.mem_append, List.mem_singleton] at hother
    rcases hother with hother | rfl
    · exact hknown other hother
    · exact hcall

theorem forgets_assistantBlocks {previous : Option (MessageBlock J)}
    {blocks : List (MessageBlock J)} (hforgets : Forgets full less)
    (hvalid : validateAssistantBlocks limits previous full blocks = .ok next) :
    ∃ other, validateAssistantBlocks limits previous less blocks = .ok other ∧
      Forgets next other := by
  induction blocks generalizing previous full less with
  | nil =>
    obtain rfl := Except.ok.inj hvalid
    exact ⟨less, rfl, hforgets⟩
  | cons block blocks ih =>
    cases block with
    | text content => exact ih hforgets hvalid
    | toolResult result => cases hvalid
    | providerContinuation continuation =>
      rw [validateAssistantBlocks] at hvalid ⊢
      split_ifs at hvalid ⊢ with hattached
      exact ih hforgets hvalid
    | toolCall call =>
      rw [validateAssistantBlocks] at hvalid ⊢
      split at hvalid
      · cases hvalid
      · split_ifs at hvalid with hduplicate
        obtain ⟨hfresh, hnext⟩ := hforgets.call hduplicate
        rw [if_neg hfresh]
        exact ih hnext hvalid

theorem forgets_message {message : Message J} (hforgets : Forgets full less)
    (hvalid : validateMessage limits full message = .ok next) :
    ∃ other, validateMessage limits less message = .ok other ∧ Forgets next other := by
  unfold validateMessage at hvalid ⊢
  split at hvalid
  · split_ifs at hvalid ⊢
    obtain rfl := Except.ok.inj hvalid
    exact ⟨less, rfl, hforgets⟩
  · split_ifs at hvalid ⊢
    obtain rfl := Except.ok.inj hvalid
    exact ⟨less, rfl, hforgets⟩
  · exact forgets_assistantBlocks hforgets hvalid
  · split at hvalid
    · split_ifs at hvalid with hwrong
      obtain rfl := Except.ok.inj hvalid
      rw [not_or, not_not] at hwrong
      obtain ⟨⟨hcall, hnew⟩, hnext⟩ := hforgets.result hwrong.1 hwrong.2
      rw [if_neg (by rw [not_or, not_not]; exact ⟨hcall, hnew⟩)]
      exact ⟨_, rfl, hnext⟩
    · cases hvalid

/-- What is accepted after some pairs is accepted without them. -/
theorem forgets_messages {messages : List (Message J)} (hforgets : Forgets full less)
    (hvalid : validateMessages limits full messages = .ok next) :
    ∃ other, validateMessages limits less messages = .ok other ∧ Forgets next other := by
  induction messages generalizing full less with
  | nil =>
    obtain rfl := Except.ok.inj hvalid
    exact ⟨less, rfl, hforgets⟩
  | cons message messages ih =>
    rw [validateMessages] at hvalid
    split at hvalid
    · cases hvalid
    · rename_i middle hmessage
      obtain ⟨other, hother, hnext⟩ := forgets_message hforgets hmessage
      rw [validateMessages, hother]
      exact ih hnext hvalid

theorem validateMessages_append (first second : List (Message J)) :
    validateMessages limits pairing (first ++ second) =
      match validateMessages limits pairing first with
      | .error error => .error error
      | .ok next => validateMessages limits next second := by
  induction first generalizing pairing with
  | nil => rfl
  | cons message first ih =>
    rw [List.cons_append, validateMessages, validateMessages]
    cases validateMessage limits pairing message with
    | error error => rfl
    | ok next => exact ih

/-- Turns that may be removed have a result for every call. -/
theorem ids_turns {turns : List (List (Message J))}
    (hturns : ∀ turn ∈ turns, removable turn = true) (id : String) :
    id ∈ callIds (turns.flatten.flatMap Message.blocks) ↔
      id ∈ resultIds (turns.flatten.flatMap Message.blocks) := by
  induction turns with
  | nil => exact Iff.rfl
  | cons turn turns ih =>
    obtain ⟨hturn, hrest⟩ := List.forall_mem_cons.mp hturns
    simp only [removable, turnIsComplete, Bool.and_eq_true] at hturn
    obtain ⟨hresults, hcalls⟩ := complete_ids hturn.2.2
    have hfirst : id ∈ callIds (turn.flatMap Message.blocks) ↔
        id ∈ resultIds (turn.flatMap Message.blocks) :=
      ⟨fun hid => hcalls id (.inr hid), fun hid => (hresults id hid).resolve_left nofun⟩
    rw [List.flatten_cons, List.flatMap_append, callIds, resultIds, List.filterMap_append,
      List.filterMap_append, List.mem_append, List.mem_append]
    exact or_congr hfirst (ih hrest)

/-- A turn that is removed is a set of pairs that the rest does not need. -/
theorem forgets_turns {turns : List (List (Message J))}
    (hturns : ∀ turn ∈ turns, removable turn = true)
    (hknown : ∀ id ∈ pairing.results, id ∈ pairing.calls)
    (hvalid : validateMessages limits pairing turns.flatten = .ok next) :
    Forgets next pairing := by
  obtain ⟨hcalls, hresults, hfresh⟩ := adds_messages hvalid
  have hids := ids_turns hturns
  constructor
  · intro id hid
    rw [hcalls]
    exact List.mem_append_left _ hid
  · intro id hid
    rw [hcalls, List.mem_append] at hid
    rw [hresults, List.mem_append]
    exact hid.imp_right fun hnew => .inr ((hids id).mp hnew)
  · intro id hid
    rw [hresults]
    exact List.mem_append_left _ hid
  · intro id hid
    rw [hresults, List.mem_append] at hid
    exact hid.imp_right fun hnew => hfresh id ((hids id).mpr hnew)
  · intro id hid
    rw [hresults, List.mem_append] at hid
    rw [hcalls, List.mem_append]
    exact hid.imp (hknown id) (hids id).mpr

theorem known_of_valid {messages : List (Message J)}
    (hvalid : validateMessages limits { calls := [], results := [] } messages = .ok next) :
    ∀ id ∈ next.results, id ∈ next.calls := by
  have hempty : Forgets { calls := [], results := [] } { calls := [], results := [] } :=
    ⟨nofun, nofun, nofun, nofun, nofun⟩
  obtain ⟨other, hother, hforgets⟩ := forgets_messages hempty hvalid
  exact hforgets.known

/-- A valid conversation stays valid without some of its whole turns. -/
theorem validInput_without {tools : List String} {front middle rest : List (Message J)}
    {turns : List (List (Message J))} (hturns : ∀ turn ∈ turns, removable turn = true)
    (hmiddle : ∀ pairing, validateMessages limits pairing middle = .ok pairing)
    (huser : ∃ message ∈ rest, message.role = .user)
    (hvalid : validateInput limits tools (front ++ turns.flatten ++ rest) = .ok ()) :
    validateInput limits tools (front ++ middle ++ rest) = .ok () := by
  unfold validateInput at hvalid ⊢
  obtain ⟨message, hmessage, hrole⟩ := huser
  have hnonempty : front ++ middle ++ rest ≠ [] := by
    intro hnil
    rw [List.append_eq_nil_iff] at hnil
    rw [hnil.2] at hmessage
    cases hmessage
  have hsome : ¬(front ++ middle ++ rest).all (fun message => message.role ≠ .user) = true := by
    rw [List.all_eq_true]
    intro hall
    have hnot := hall message (List.mem_append_right _ hmessage)
    simp [hrole] at hnot
  rw [if_neg hnonempty, if_neg hsome]
  split_ifs at hvalid
  cases hduplicate : firstDuplicate [] tools with
  | some name =>
    rw [hduplicate] at hvalid
    cases hvalid
  | none =>
    rw [hduplicate] at hvalid
    simp only at hvalid ⊢
    rw [validateMessages_append, validateMessages_append] at hvalid ⊢
    cases hfront : validateMessages limits { calls := [], results := [] } front with
    | error error =>
      rw [hfront] at hvalid
      cases hvalid
    | ok before =>
      cases hblock : validateMessages limits before turns.flatten with
      | error error =>
        simp only [hfront, hblock] at hvalid
        cases hvalid
      | ok full =>
        simp only [hfront, hblock] at hvalid
        cases hrest : validateMessages limits full rest with
        | error error =>
          rw [hrest] at hvalid
          cases hvalid
        | ok last =>
          -- the turns add pairs only, which the rest does not need
          have hforgets := forgets_turns hturns (known_of_valid hfront) hblock
          obtain ⟨less, hless, hlast⟩ := forgets_messages hforgets hrest
          simp only [hmiddle, hless]
          rw [hrest] at hvalid
          simp only at hvalid
          cases hfind : last.calls.find? (fun id => id ∉ last.results) with
          | some id =>
            rw [hfind] at hvalid
            cases hvalid
          | none =>
            have hall : less.calls.find? (fun id => id ∉ less.results) = none := by
              rw [List.find?_eq_none] at hfind ⊢
              intro id hid hmissing
              have hanswered : id ∈ last.results := by
                simpa using hfind id (hlast.calls id hid)
              rcases hlast.others id hanswered with hresult | hunknown
              · simp [hresult] at hmissing
              · exact hunknown hid
            rw [hall]

/-! ## Prepared messages -/

def StartsWithUser (messages : List (Message J)) : Prop :=
  ∃ user later, messages = user :: later ∧ user.role = .user

/-- The messages are what stays in front, whole turns, and a rest in which the user goes on. -/
structure Cut (messages front : List (Message J)) (turns : List (List (Message J)))
    (rest : List (Message J)) : Prop where
  messages : messages = front ++ turns.flatten ++ rest
  front : NoUser front
  whole : ∀ turn ∈ turns, IsTurn turn ∧ removable turn = true
  rest : turns ≠ [] → StartsWithUser rest

/-- The rest does not begin with a complete turn that another turn of the user follows. -/
def NoMore (rest : List (Message J)) : Prop :=
  ∀ turn more, rest = turn ++ more → IsTurn turn → removable turn = true → ¬StartsWithUser more

/-- The turns are no more than needed, and enough unless no other turn can be left out. -/
structure Least (manager : ContextManager J) (front : List (Message J))
    (turns : List (List (Message J))) (rest : List (Message J)) : Prop where
  needed : ∀ earlier later, turns = earlier ++ later → later ≠ [] →
    manager.Reached (front ++ later.flatten ++ rest)
  enough : ¬manager.Reached (front ++ rest) ∨ NoMore rest

def summaryMessage (content : String) : Message J := .system ("Conversation summary:\n" ++ content)

/-- What was done with the turns, and what is reported of it: nothing is left out of messages
under the threshold, a summary stands for all turns that can be left out and is under the
threshold, and a trim takes the least number of turns. -/
def Reported (manager : ContextManager J) (front : List (Message J))
    (turns : List (List (Message J))) (rest result : List (Message J)) :
    Option CompactionEvent → Prop
  | none => turns = [] ∧ result = front ++ rest ∧ ¬manager.Reached result
  | some event =>
    manager.Reached (front ++ turns.flatten ++ rest) ∧
      event.removedTurns = turns.length ∧
      event.compactedMessageRange =
        (if turns = [] then none else some (front.length, front.length + turns.flatten.length)) ∧
      match event.strategy with
      | .summary => turns ≠ [] ∧ NoMore rest ∧ ¬manager.Reached result ∧
          ∃ content, event.replacementSummary = some content ∧
            result = front ++ summaryMessage content :: rest
      | .deterministicTrim => result = front ++ rest ∧ Least manager front turns rest

/-- A list has one estimate, so the threshold is reached or it is not. -/
theorem not_reached {manager : ContextManager J} {messages : List (Message J)}
    {usage : ContextUsage} (hestimate : manager.estimate messages = .ok usage)
    (hthreshold : ¬manager.budget.thresholdReached usage = true) : ¬manager.Reached messages := by
  rintro ⟨other, hother, hreached⟩
  rw [hestimate] at hother
  obtain rfl := Except.ok.inj hother
  exact hthreshold hreached

theorem startsWithUser_flatten {turns : List (List (Message J))}
    (hturns : ∀ turn ∈ turns, IsTurn turn) (hsome : turns ≠ []) : StartsWithUser turns.flatten := by
  cases turns with
  | nil => exact absurd rfl hsome
  | cons turn turns =>
    obtain ⟨user, others, rfl, huser, -⟩ := hturns _ List.mem_cons_self
    exact ⟨user, others ++ turns.flatten, rfl, huser⟩

theorem takeWhile_noUser {others rest : List (Message J)} (hothers : NoUser others)
    (hrest : rest = [] ∨ StartsWithUser rest) :
    (others ++ rest).takeWhile (fun message => message.role ≠ .user) = others := by
  rw [List.takeWhile_append_of_pos fun message hmessage => by simpa using hothers message hmessage]
  rcases hrest with rfl | ⟨user, later, rfl, huser⟩
  · rw [List.takeWhile_nil, List.append_nil]
  · rw [List.takeWhile_cons_of_neg (by simpa using huser), List.append_nil]

/-- Where a conversation begins with a turn there is no other way to split it. -/
theorem first_turn {turns : List (List (Message J))} {turn more : List (Message J)}
    (hturns : ∀ turn ∈ turns, IsTurn turn) (hturn : IsTurn turn) (hmore : StartsWithUser more)
    (hflatten : turns.flatten = turn ++ more) :
    ∃ others, turns = turn :: others ∧ others ≠ [] := by
  obtain ⟨user, others, rfl, huser, hothers⟩ := hturn
  cases turns with
  | nil => cases hflatten
  | cons first turns =>
    obtain ⟨⟨head, tail, rfl, -, htail⟩, hrest⟩ := List.forall_mem_cons.mp hturns
    rw [List.flatten_cons, List.cons_append, List.cons_append, List.cons.injEq] at hflatten
    obtain ⟨rfl, hsame⟩ := hflatten
    have hfollows : turns.flatten = [] ∨ StartsWithUser turns.flatten := by
      by_cases hnone : turns = []
      · exact .inl (by rw [hnone]; rfl)
      · exact .inr (startsWithUser_flatten hrest hnone)
    obtain rfl : tail = others := by
      rw [← takeWhile_noUser htail hfollows, hsame, takeWhile_noUser hothers (.inr hmore)]
    refine ⟨turns, rfl, ?_⟩
    rintro rfl
    obtain ⟨next, later, rfl, -⟩ := hmore
    simp at hsame

theorem removable_of_candidates {turns : List (List (Message J))} :
    ∀ turn ∈ candidates turns, removable turn = true := by
  intro turn hturn
  exact List.mem_takeWhile_imp hturn

theorem take_candidates {turns : List (List (Message J))} {count : Nat}
    (hcount : count ≤ (candidates turns).length) :
    turns.take count = (candidates turns).take count := by
  obtain ⟨others, hothers⟩ := candidates_first turns
  calc turns.take count
      = (candidates turns ++ others).take count := by rw [hothers]
    _ = (candidates turns).take count := List.take_append_of_le_length hcount

/-- The latest turn is no candidate. -/
theorem length_candidates_lt {turns : List (List (Message J))} (hsome : turns ≠ []) :
    (candidates turns).length < turns.length := by
  have hle := (List.takeWhile_prefix removable (l := turns.dropLast)).length_le
  have hlength := List.length_pos_iff.mpr hsome
  rw [List.length_dropLast] at hle
  exact Nat.lt_of_le_of_lt hle (by omega)

variable {manager : ContextManager J} {messages front rest result : List (Message J)}
  {turns : List (List (Message J))} {count : Nat}

/-- Removing so many candidates is a cut of the conversation. -/
theorem cut_of_count (hfront : NoUser front) (hturns : ∀ turn ∈ turns, IsTurn turn)
    (hcount : count ≤ (candidates turns).length) :
    Cut (front ++ turns.flatten) front (turns.take count) (turns.drop count).flatten := by
  constructor
  · rw [List.append_assoc, ← List.flatten_append, List.take_append_drop]
  · exact hfront
  · intro turn hturn
    refine ⟨hturns turn (List.mem_of_mem_take hturn), ?_⟩
    rw [take_candidates hcount] at hturn
    exact removable_of_candidates turn (List.mem_of_mem_take hturn)
  · intro hsome
    have hne : turns ≠ [] := by
      rintro rfl
      simp at hsome
    apply startsWithUser_flatten fun turn hturn => hturns turn (List.mem_of_mem_drop hturn)
    have hlt := length_candidates_lt hne
    rw [← List.length_pos_iff, List.length_drop]
    omega

/-- Behind the last candidate no turn may be removed. -/
theorem last_candidate (hturns : ∀ turn ∈ turns, IsTurn turn)
    (hcount : count = (candidates turns).length) : NoMore (turns.drop count).flatten := by
  intro turn more hflatten hturn hremovable hmore
  obtain ⟨others, hdrop, hothers⟩ :=
    first_turn (fun turn hturn => hturns turn (List.mem_of_mem_drop hturn)) hturn hmore hflatten
  have hsplit : turns = turns.take count ++ turn :: others := by
    rw [← hdrop, List.take_append_drop]
  have hfirst : ∀ other ∈ turns.take count, removable other = true := by
    rw [take_candidates (Nat.le_of_eq hcount)]
    exact fun other hother => removable_of_candidates other (List.mem_of_mem_take hother)
  have hmoreCandidates : candidates turns =
      turns.take count ++ turn :: others.dropLast.takeWhile removable := by
    conv_lhs => rw [hsplit]
    rw [candidates, List.dropLast_append_of_ne_nil (List.cons_ne_nil _ _),
      List.dropLast_cons_of_ne_nil hothers, List.takeWhile_append_of_pos hfirst,
      List.takeWhile_cons_of_pos hremovable]
  have hlength := congrArg List.length hmoreCandidates
  have htake : (turns.take count).length = count := by
    rw [take_candidates (Nat.le_of_eq hcount), List.length_take]
    omega
  rw [List.length_append, List.length_cons, htake] at hlength
  omega

/-- Trimming removes as few turns as can be. -/
theorem least_of_trimmed (hturns : ∀ turn ∈ turns, IsTurn turn)
    (htrimmed : Trimmed manager front turns count) :
    Least manager front (turns.take count) (turns.drop count).flatten := by
  constructor
  · intro earlier later hsplit hlater
    have hlength := congrArg List.length hsplit
    have hpositive := List.length_pos_iff.mpr hlater
    rw [List.length_append, List.length_take] at hlength
    have hreached := htrimmed.needed earlier.length (by omega)
    have hdrop : turns.drop earlier.length = later ++ turns.drop count := by
      conv_lhs => rw [← List.take_append_drop count turns, hsplit, List.append_assoc]
      rw [List.drop_left]
    rw [hdrop, List.flatten_append, ← List.append_assoc] at hreached
    exact hreached
  · exact htrimmed.enough.imp_right (last_candidate hturns)

theorem spans_last (start : Nat) (turn : List (Message J)) (turns : List (List (Message J))) :
    ((spans (start + turn.length) turns).getLastD (start, start + turn.length)).2 =
      start + (turn :: turns).flatten.length := by
  induction turns generalizing start turn with
  | nil => simp [spans]
  | cons next turns ih =>
    rw [spans, List.getLastD_cons, ih]
    simp only [List.flatten_cons, List.length_append]
    omega

theorem length_flatten_pos (hturns : ∀ turn ∈ turns, IsTurn turn) :
    0 < turns.flatten.length ↔ turns ≠ [] := by
  constructor
  · rintro hpositive rfl
    simp at hpositive
  · intro hsome
    obtain ⟨user, later, hflatten, -⟩ := startsWithUser_flatten hturns hsome
    rw [hflatten]
    exact Nat.succ_pos _

/-- What trimming reports, turn by turn and message by message. -/
theorem reported_of_trim {before : ContextUsage} {summaryFailed : Bool}
    {event : Option CompactionEvent} (hfront : NoUser front)
    (hturns : ∀ turn ∈ turns, IsTurn turn) (hsome : candidates turns ≠ [])
    (hreached : manager.Reached (front ++ turns.flatten))
    (hprepare : prepareByTrim manager (front ++ turns.flatten)
      (compactableTurns (front ++ turns.flatten)) before summaryFailed = .ok (result, event)) :
    ∃ count, count ≤ (candidates turns).length ∧
      Reported manager front (turns.take count) (turns.drop count).flatten result event := by
  unfold prepareByTrim at hprepare
  split at hprepare
  · cases hprepare
  rename_i trimmed removedTurns removed htrim
  obtain ⟨count, htrimmed, rfl, hremovedTurns, hremoved⟩ := trim_spec hfront hturns htrim
  rw [Nat.zero_add] at hremovedTurns hremoved
  split at hprepare
  · cases hprepare
  rename_i after hafter
  by_cases hexceeded : manager.budget.exceeded after = true
  · rw [if_pos hexceeded] at hprepare
    cases hprepare
  rw [if_neg hexceeded] at hprepare
  obtain ⟨rfl, rfl⟩ := Prod.mk.inj (Except.ok.inj hprepare)
  refine ⟨count, htrimmed.possible, ?_, ?_, ?_, rfl, least_of_trimmed hturns htrimmed⟩
  · rw [List.append_assoc, ← List.flatten_append, List.take_append_drop]
    exact hreached
  · have hlength := htrimmed.possible
    have hle := (candidates_first turns).length_le
    rw [List.length_take]
    simp only
    omega
  · have hstart : (compactableTurns (front ++ turns.flatten)).head?.map Prod.fst =
        some front.length := by
      rw [compactableTurns_eq hfront hturns]
      cases hcandidates : candidates turns with
      | nil => exact absurd hcandidates hsome
      | cons turn others => rfl
    have hpositive := length_flatten_pos fun turn hturn =>
      hturns turn (List.mem_of_mem_take (l := turns) (i := count) hturn)
    simp only [hstart, Option.bind_some, hremoved, hpositive]
    by_cases hnone : turns.take count = []
    · rw [if_neg (not_not.mpr hnone), if_pos hnone]
    · rw [if_pos hnone, if_neg hnone]

theorem span_candidates (hfront : NoUser front) (hturns : ∀ turn ∈ turns, IsTurn turn)
    {first : Nat × Nat} {remaining : List (Nat × Nat)}
    (hranges : compactableTurns (front ++ turns.flatten) = first :: remaining) :
    (first.1, (remaining.getLastD first).2) =
      (front.length, front.length + (candidates turns).flatten.length) := by
  rw [compactableTurns_eq hfront hturns] at hranges
  cases hcandidates : candidates turns with
  | nil =>
    rw [hcandidates] at hranges
    cases hranges
  | cons turn others =>
    rw [hcandidates] at hranges
    obtain ⟨rfl, rfl⟩ := List.cons.inj hranges
    rw [spans_last]

theorem length_spans (start : Nat) (turns : List (List (Message J))) :
    (spans start turns).length = turns.length := by
  induction turns generalizing start with
  | nil => rfl
  | cons turn turns ih => rw [spans, List.length_cons, List.length_cons, ih]

/-- The summary stands where the candidates stood. -/
theorem splice_candidates (message : Message J) :
    splice (front ++ turns.flatten)
        (front.length, front.length + (candidates turns).flatten.length) message =
      front ++ message :: (turns.drop (candidates turns).length).flatten := by
  obtain ⟨others, hothers⟩ := candidates_first turns
  have hdrop : turns.drop (candidates turns).length = others := by
    calc turns.drop (candidates turns).length
        = (candidates turns ++ others).drop (candidates turns).length := by rw [hothers]
      _ = others := List.drop_left
  have hflatten : turns.flatten = (candidates turns).flatten ++ others.flatten := by
    rw [← List.flatten_append, hothers]
  rw [hdrop, hflatten, splice]
  simp

/-- What a preparation returns and reports, over its outcomes. -/
theorem reported_of_prepare {event : Option CompactionEvent} (hfront : NoUser front)
    (hturns : ∀ turn ∈ turns, IsTurn turn)
    (hprepare : prepare manager (front ++ turns.flatten) = .ok (result, event)) :
    ∃ count, count ≤ (candidates turns).length ∧
      Reported manager front (turns.take count) (turns.drop count).flatten result event := by
  have hranges := compactableTurns_eq hfront hturns
  unfold prepare at hprepare
  split at hprepare
  · cases hprepare
  rename_i before hbefore
  by_cases hthreshold : manager.budget.thresholdReached before = true
  · have hreached : manager.Reached (front ++ turns.flatten) := ⟨before, hbefore, hthreshold⟩
    rw [if_pos hthreshold] at hprepare
    split at hprepare
    · rename_i hnone
      have hcandidates : candidates turns = [] := by
        rw [hranges] at hnone
        cases hcandidates : candidates turns with
        | nil => rfl
        | cons turn others =>
          rw [hcandidates] at hnone
          cases hnone
      by_cases hexceeded : manager.budget.exceeded before = true
      · rw [if_pos hexceeded] at hprepare
        cases hprepare
      rw [if_neg hexceeded] at hprepare
      obtain ⟨rfl, rfl⟩ := Prod.mk.inj (Except.ok.inj hprepare)
      refine ⟨0, Nat.zero_le _, by simpa using hreached, rfl, rfl, rfl, ?_⟩
      apply least_of_trimmed hturns
      exact ⟨Nat.zero_le _, fun fewer hfewer => absurd hfewer (Nat.not_lt_zero fewer),
        .inr (by rw [hcandidates]; rfl)⟩
    · rename_i first remaining hsome
      have hcandidates : candidates turns ≠ [] := by
        intro hnil
        rw [hranges, hnil] at hsome
        cases hsome
      rw [← hsome] at hprepare
      have htrim := fun summaryFailed => @reported_of_trim J manager front result turns before
        summaryFailed event hfront hturns hcandidates hreached
      cases hcompactor : manager.compactor with
      | none =>
        simp only [hcompactor] at hprepare
        exact htrim _ hprepare
      | some summarize =>
        simp only [hcompactor] at hprepare
        split at hprepare
        · cases hprepare
        · exact htrim _ hprepare
        · rename_i content hcontent
          by_cases husable : usableSummary content = true
          · rw [if_pos husable] at hprepare
            split at hprepare
            · cases hprepare
            rename_i after hafter
            by_cases hagain : manager.budget.thresholdReached after = true
            · rw [if_pos hagain] at hprepare
              exact htrim _ hprepare
            rw [if_neg hagain] at hprepare
            obtain ⟨rfl, rfl⟩ := Prod.mk.inj (Except.ok.inj hprepare)
            have htake : turns.take (candidates turns).length = candidates turns := by
              rw [take_candidates (Nat.le_refl _), List.take_length]
            refine ⟨(candidates turns).length, Nat.le_refl _, ?_⟩
            have hresult : manager.estimate (front ++ summaryMessage content ::
                (turns.drop (candidates turns).length).flatten) = .ok after := by
              rw [← splice_candidates, ← span_candidates hfront hturns hsome]
              exact hafter
            rw [htake]
            refine ⟨?_, ?_, ?_, hcandidates, last_candidate hturns rfl, ?_, content, rfl, ?_⟩
            · have hsplit := List.take_append_drop (candidates turns).length turns
              rw [htake] at hsplit
              rw [List.append_assoc, ← List.flatten_append, hsplit]
              exact hreached
            · rw [← length_spans front.length, ← hranges, hsome]
            · rw [if_neg hcandidates, ← span_candidates hfront hturns hsome]
            · rw [span_candidates hfront hturns hsome, splice_candidates]
              exact not_reached hresult hagain
            · rw [span_candidates hfront hturns hsome, splice_candidates]
              rfl
          · rw [if_neg husable] at hprepare
            exact htrim _ hprepare
  · rw [if_neg hthreshold] at hprepare
    obtain ⟨rfl, rfl⟩ := Prod.mk.inj (Except.ok.inj hprepare)
    exact ⟨0, Nat.zero_le _, rfl, rfl, not_reached hbefore hthreshold⟩

/-- The result is what stays in front and the rest, with a summary between them or nothing. -/
theorem Reported.result_eq {event : Option CompactionEvent}
    (hreported : Reported manager front turns rest result event) :
    ∃ middle, result = front ++ middle ++ rest ∧
      (middle = [] ∨ turns ≠ [] ∧ ∃ content, middle = [summaryMessage content]) := by
  cases event with
  | none => exact ⟨[], by rw [hreported.2.1, List.append_nil], .inl rfl⟩
  | some event =>
    obtain ⟨-, -, -, hstrategy⟩ := hreported
    split at hstrategy
    · obtain ⟨hsome, -, -, content, -, rfl⟩ := hstrategy
      exact ⟨[summaryMessage content], by simp, .inr ⟨hsome, content, rfl⟩⟩
    · exact ⟨[], by rw [hstrategy.1, List.append_nil], .inl rfl⟩

theorem Cut.systems (hcut : Cut messages front turns rest) :
    messages.filter (fun message => message.role = .system) =
      (front ++ rest).filter (fun message => message.role = .system) := by
  have hnone : turns.flatten.filter (fun message => message.role = .system) = [] := by
    rw [List.filter_eq_nil_iff]
    intro message hmessage hsystem
    obtain ⟨turn, hturn, hmem⟩ := List.mem_flatten.mp hmessage
    have hremovable := (hcut.whole turn hturn).2
    rw [removable, Bool.and_eq_true, Bool.not_eq_true', List.any_eq_false] at hremovable
    exact hremovable.1 message hmem hsystem
  rw [hcut.messages, List.filter_append, List.filter_append, List.filter_append, hnone,
    List.append_nil]

/-- The last message of the user stays, with everything after it. -/
theorem Cut.latest {middle earlier later : List (Message J)} {user : Message J}
    (hcut : Cut messages front turns rest) (hmiddle : turns = [] → middle = [])
    (hlatest : messages = earlier ++ user :: later) (hlater : NoUser later) :
    (user :: later) <:+ front ++ middle ++ rest := by
  by_cases hnone : turns = []
  · have hsame : messages = front ++ middle ++ rest := by
      rw [hcut.messages, hnone, hmiddle hnone]
      rfl
    rw [← hsame, hlatest]
    exact List.suffix_append _ _
  · obtain ⟨next, more, hrest, hnext⟩ := hcut.rest hnone
    have hfirst : rest <:+ messages := hcut.messages ▸ List.suffix_append _ _
    have hsecond : (user :: later) <:+ messages := hlatest ▸ List.suffix_append _ _
    have hkept : rest <:+ front ++ middle ++ rest := List.suffix_append _ _
    rcases List.suffix_or_suffix_of_suffix hfirst hsecond with hinside | hinside
    · -- the rest begins with a message of the user, and there is none later
      obtain ⟨skipped, hskipped⟩ := hinside
      cases skipped with
      | nil =>
        rw [← hskipped]
        exact hkept
      | cons head skipped =>
        have hlast : later = skipped ++ rest := (List.cons.inj hskipped).2.symm
        have hmem : next ∈ later := by
          rw [hlast, hrest]
          simp
        exact absurd hnext (hlater next hmem)
    · exact hinside.trans hkept

/-- The prepared conversation is the given one, with a block of whole turns taken out or
summarized that is as the event says; it keeps the messages of the system, the latest turn
and its validity. -/
theorem prepare_preserves (manager : ContextManager J) (limits : ArgumentLimits J)
    (tools : List String) (messages result : List (Message J)) (event : Option CompactionEvent)
    (hprepare : prepare manager messages = .ok (result, event)) :
    ∃ front turns rest, Cut messages front turns rest ∧
      Reported manager front turns rest result event ∧
      (messages.filter fun message => message.role = .system).Sublist result ∧
      (∀ earlier user later, messages = earlier ++ user :: later → user.role = .user →
        NoUser later → (user :: later) <:+ result) ∧
      (validateInput limits tools messages = .ok () → validateInput limits tools result = .ok ()) := by
  obtain ⟨hmessages, hfront, hturns⟩ := groups_spec messages
  rw [hmessages] at hprepare
  obtain ⟨count, hcount, hreported⟩ := reported_of_prepare hfront hturns hprepare
  have hcut := cut_of_count hfront hturns hcount
  rw [← hmessages] at hcut
  obtain ⟨middle, hresult, hmiddle⟩ := hreported.result_eq
  have hplain : (groups messages).2.take count = [] → middle = [] := fun hnone =>
    hmiddle.resolve_right fun hsummary => hsummary.1 hnone
  refine ⟨_, _, _, hcut, hreported, ?_, ?_, ?_⟩
  · have hinside : ((groups messages).1 ++ ((groups messages).2.drop count).flatten).Sublist
        result := by
      rw [hresult]
      exact (List.sublist_append_left _ _).append (List.Sublist.refl _)
    rw [hcut.systems]
    exact List.filter_sublist.trans hinside
  · intro earlier user later hlatest _ hlater
    rw [hresult]
    exact hcut.latest hplain hlatest hlater
  · intro hvalid
    by_cases hnone : (groups messages).2.take count = []
    · have hsame : messages = result := by
        apply hcut.messages.trans
        rw [hresult, hplain hnone, hnone]
        rfl
      rw [← hsame]
      exact hvalid
    · obtain ⟨user, later, hrest, huser⟩ := hcut.rest hnone
      rw [hcut.messages] at hvalid
      rw [hresult]
      apply validInput_without (fun turn hturn => (hcut.whole turn hturn).2) ?_ ?_ hvalid
      · intro pairing
        rcases hmiddle with rfl | ⟨-, content, rfl⟩ <;> rfl
      · exact ⟨user, by rw [hrest]; exact List.mem_cons_self, huser⟩

/-- A manager for which each message weighs the same, with a compactor that always answers. -/
def summarizingManager : ContextManager Unit where
  budget := { maxTokens := none, maxSerializedBytes := 40, compactionThresholdPercent := 80 }
  estimate messages := .ok { estimatedTokens := 0, serializedBytes := 10 * messages.length }
  compactor := some fun _ => .text "listed the tables"

def askedTwice : List (Message Unit) :=
  [.system "You are an assistant", { role := .user, blocks := [.text "List the tables"] },
    { role := .assistant, blocks := [.text "orders"] },
    { role := .user, blocks := [.text "How many rows?"] }]

theorem askedTwice_prepared :
    ∃ front turns rest, Cut askedTwice front turns rest ∧
      Reported summarizingManager front turns rest
        [.system "You are an assistant", summaryMessage "listed the tables",
          { role := .user, blocks := [.text "How many rows?"] }]
        (some
          { cause := .byteThreshold
            strategy := .summary
            removedTurns := 1
            summaryFailed := false
            before := { estimatedTokens := 0, serializedBytes := 40 }
            after := { estimatedTokens := 0, serializedBytes := 30 }
            replacementSummary := some "listed the tables"
            compactedMessageRange := some (1, 3) }) := by
  have hprepare : prepare summarizingManager askedTwice = .ok
      ([.system "You are an assistant", summaryMessage "listed the tables",
          { role := .user, blocks := [.text "How many rows?"] }],
        some
          { cause := .byteThreshold
            strategy := .summary
            removedTurns := 1
            summaryFailed := false
            before := { estimatedTokens := 0, serializedBytes := 40 }
            after := { estimatedTokens := 0, serializedBytes := 30 }
            replacementSummary := some "listed the tables"
            compactedMessageRange := some (1, 3) }) := by
    rfl
  obtain ⟨front, turns, rest, hcut, hreported, -⟩ := prepare_preserves summarizingManager
    { maxToolArgumentBytes := 10, serializedLength := fun _ => 2 } [] _ _ _ hprepare
  exact ⟨front, turns, rest, hcut, hreported⟩

end Chat2DB.Agent
