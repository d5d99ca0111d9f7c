import Chat2DB.Base.Machine
import Chat2DB.Supervisor.StreamDelivery

/-! # The grammar of a query stream

What a stream may be sent depends on its history alone: on the responses that came
before, and on the credits that the consumer granted. The counters of the stream
are the totals of this history.
-/

namespace Chat2DB.Supervisor

variable {item : StreamItem} {terminal : Bool}

/-! ## Histories -/

inductive Exchange where
  | response (metadata : Wire.ResponseMeta) (payload : Wire.Payload)
  | granted (credits : Nat)
  /-- A grant that the engine did not get is taken back. -/
  | released (credits : Nat)

abbrev History := List Exchange

namespace History

def payloads (history : History) : List Wire.Payload :=
  history.filterMap fun
    | .response _ payload => some payload
    | .granted _ | .released _ => none

def batchOf : Wire.Payload → Option Wire.RowBatch
  | .rowBatch batch => some batch
  | _ => none

def batches (history : History) : List Wire.RowBatch := history.payloads.filterMap batchOf

/-- The rows of all batches. -/
def rows (history : History) : Nat := (history.batches.map fun batch => batch.rows.length).sum

def bytes (codec : Wire.Codec) (history : History) : Nat :=
  (history.batches.map fun batch => (batch.rows.map codec.rowLength).sum).sum

def startOf : Wire.Payload → Option Wire.QueryStarted
  | .queryStarted started => some started
  | _ => none

/-- How the query started. -/
def start (history : History) : Option Wire.QueryStarted := history.payloads.findSome? startOf

/-- The credits that are left of the initial ones and the granted ones. -/
def credits (initial : Nat) (history : History) : Nat :=
  history.foldl (fun credits exchange =>
    match exchange with
    | .response _ (.rowBatch _) => credits - 1
    | .response _ _ => credits
    | .granted more => credits + more
    | .released fewer => credits - fewer) initial

end History

def lastPayload : Wire.Payload → Bool
  | .queryCompleted _ | .error _ => true
  | _ => false

/-- A query starts, has batches, and ends completed or with an error; or it fails at once. -/
inductive StreamShape : List Wire.Payload → Prop where
  | nothing : StreamShape []
  | refused (error : Wire.EngineError) : StreamShape [.error error]
  | running (started : Wire.QueryStarted) (batches : List Wire.RowBatch) :
      StreamShape (.queryStarted started :: batches.map .rowBatch)
  | completed (started : Wire.QueryStarted) (batches : List Wire.RowBatch)
      (completed : Wire.QueryCompleted) :
      StreamShape (.queryStarted started :: batches.map .rowBatch ++ [.queryCompleted completed])
  | failed (started : Wire.QueryStarted) (batches : List Wire.RowBatch) (error : Wire.EngineError) :
      StreamShape (.queryStarted started :: batches.map .rowBatch ++ [.error error])

/-! ## Grammatical histories -/

structure LawfulStart (started : Wire.QueryStarted) : Prop where
  columns : started.columns.length ≤ Wire.maxColumns
  ordinals : StreamPending.ordinalsContiguous started.columns = true
  types : ∀ column ∈ started.columns,
    KnownValueType column.valueType ∧ KnownNullability column.nullability

/-- A batch against the history before it. -/
structure LawfulBatch (codec : Wire.Codec) (budgets : QueryBudgets) (initial : Nat)
    (history : History) (batch : Wire.RowBatch) : Prop where
  credit : 0 < history.credits initial
  offset : batch.startRowOffset.toNat = history.rows
  rows : batch.rows.length ≤ Wire.maxBatchRows
  targetRows : budgets.targetBatchRows ≠ 0 → batch.rows.length ≤ budgets.targetBatchRows
  bytes : codec.batchLength batch ≤ Wire.maxBatchBytes
  targetBytes : budgets.targetBatchBytes ≠ 0 → codec.batchLength batch ≤ budgets.targetBatchBytes
  rowCount : history.rows + batch.rows.length ≤ u64Max
  maxRows : budgets.maxRows ≠ 0 → history.rows + batch.rows.length ≤ budgets.maxRows
  byteCount : history.bytes codec + (batch.rows.map codec.rowLength).sum ≤ u64Max
  resultBytes : history.bytes codec + (batch.rows.map codec.rowLength).sum ≤ budgets.maxResultBytes
  widths : ∀ started, history.start = some started →
    ∀ row ∈ batch.rows, row.values.length = started.columns.length
  values : ∀ row ∈ batch.rows, ∀ value ∈ row.values, value.value ≠ none

structure LawfulEnd (budgets : QueryBudgets) (history : History)
    (completed : Wire.QueryCompleted) : Prop where
  rowCount : completed.rowCount.toNat = history.rows
  truncated : completed.truncatedByMaxRows = true →
    budgets.maxRows ≠ 0 ∧ completed.rowCount.toNat = budgets.maxRows

/-- The number of the response is the next one, only the last is marked as such, and the
payload is lawful after the history. -/
def Lawful (codec : Wire.Codec) (budgets : QueryBudgets) (initial : Nat) (history : History) :
    Exchange → Prop
  | .response metadata payload =>
    metadata.sequence.toNat = history.payloads.length ∧ history.payloads.length < u64Max ∧
      metadata.terminal = lastPayload payload ∧
      match payload with
      | .queryStarted started => LawfulStart started
      | .rowBatch batch => LawfulBatch codec budgets initial history batch
      | .queryCompleted completed => LawfulEnd budgets history completed
      | _ => True
  | .granted _ | .released _ => True

structure Grammatical (codec : Wire.Codec) (budgets : QueryBudgets) (initial : Nat)
    (history : History) : Prop where
  shape : StreamShape history.payloads
  lawful : ∀ before exchange after, history = before ++ exchange :: after →
    Lawful codec budgets initial before exchange

/-! ## One more exchange -/

section Snoc

variable {codec : Wire.Codec} {budgets : QueryBudgets} {initial : Nat} {history : History}
  {exchange : Exchange} {metadata : Wire.ResponseMeta} {payload : Wire.Payload}

/-- What may come after some payloads. -/
def MayFollow (payloads : List Wire.Payload) (payload : Wire.Payload) : Prop :=
  payloads.any lastPayload = false ∧
    match payload with
    | .queryStarted _ => payloads = []
    | .rowBatch _ | .queryCompleted _ => payloads.findSome? History.startOf ≠ none
    | .error _ => True
    | _ => False

theorem StreamShape.cases_open {payloads : List Wire.Payload} (hshape : StreamShape payloads)
    (hopen : payloads.any lastPayload = false) :
    payloads = [] ∨ ∃ (started : Wire.QueryStarted) (batches : List Wire.RowBatch),
      payloads = .queryStarted started :: batches.map .rowBatch := by
  cases hshape with
  | nothing => exact .inl rfl
  | refused error => cases hopen
  | running started batches => exact .inr ⟨started, batches, rfl⟩
  | completed | failed => simp [lastPayload] at hopen

theorem streamShape_append_iff {payloads : List Wire.Payload} :
    StreamShape (payloads ++ [payload]) ↔ StreamShape payloads ∧ MayFollow payloads payload := by
  constructor
  · intro hshape
    generalize hall : payloads ++ [payload] = all at hshape
    -- the last payload tells what the stream was before it
    cases hshape with
    | nothing => simp at hall
    | refused error =>
      rw [← List.nil_append [Wire.Payload.error error]] at hall
      obtain ⟨rfl, hlast⟩ := List.append_inj' hall rfl
      obtain rfl := List.singleton_inj.mp hlast
      exact ⟨.nothing, rfl, trivial⟩
    | running started batches =>
      induction batches using List.reverseRecOn with
      | nil =>
        rw [List.map_nil, ← List.nil_append [Wire.Payload.queryStarted started]] at hall
        obtain ⟨rfl, hlast⟩ := List.append_inj' hall rfl
        obtain rfl := List.singleton_inj.mp hlast
        exact ⟨.nothing, rfl, rfl⟩
      | append_singleton batches batch _ =>
        rw [List.map_append, List.map_singleton, ← List.cons_append] at hall
        obtain ⟨rfl, hlast⟩ := List.append_inj' hall rfl
        obtain rfl := List.singleton_inj.mp hlast
        refine ⟨.running started batches, ?_, ?_⟩
        · simp [lastPayload]
        · simp [History.startOf]
    | completed started batches completed =>
      obtain ⟨rfl, hlast⟩ := List.append_inj' hall rfl
      obtain rfl := List.singleton_inj.mp hlast
      refine ⟨.running started batches, ?_, ?_⟩
      · simp [lastPayload]
      · simp [History.startOf]
    | failed started batches error =>
      obtain ⟨rfl, hlast⟩ := List.append_inj' hall rfl
      obtain rfl := List.singleton_inj.mp hlast
      exact ⟨.running started batches, by simp [lastPayload], trivial⟩
  · rintro ⟨hshape, hopen, hfollow⟩
    rcases hshape.cases_open hopen with rfl | ⟨started, batches, rfl⟩
    · cases payload with
      | queryStarted started => exact .running started []
      | error error => exact .refused error
      | rowBatch | queryCompleted => exact absurd rfl hfollow
      | _ => exact hfollow.elim
    · cases payload with
      | queryStarted started => cases hfollow
      | error error => exact .failed started batches error
      | rowBatch batch =>
        have happend := StreamShape.running started (batches ++ [batch])
        rwa [List.map_append, List.map_singleton, ← List.cons_append] at happend
      | queryCompleted completed => exact .completed started batches completed
      | _ => exact hfollow.elim

theorem lawful_append_iff :
    (∀ before other after, history ++ [exchange] = before ++ other :: after →
        Lawful codec budgets initial before other) ↔
      (∀ before other after, history = before ++ other :: after →
        Lawful codec budgets initial before other) ∧
      Lawful codec budgets initial history exchange := by
  constructor
  · intro hall
    refine ⟨fun before other after hsplit => ?_, hall history exchange [] rfl⟩
    exact hall before other (after ++ [exchange]) (by simp [hsplit])
  · rintro ⟨hhistory, hlast⟩ before other after hsplit
    rcases List.eq_nil_or_concat after with rfl | ⟨middle, last, rfl⟩
    · obtain ⟨rfl, hother⟩ := List.append_inj' hsplit rfl
      obtain rfl := List.singleton_inj.mp hother
      exact hlast
    · rw [List.concat_eq_append, ← List.cons_append, ← List.append_assoc] at hsplit
      obtain ⟨rfl, -⟩ := List.append_inj' hsplit rfl
      exact hhistory before other middle rfl

theorem grammatical_response_iff :
    Grammatical codec budgets initial (history ++ [.response metadata payload]) ↔
      Grammatical codec budgets initial history ∧ MayFollow history.payloads payload ∧
        Lawful codec budgets initial history (.response metadata payload) := by
  have hpayloads : History.payloads (history ++ [.response metadata payload]) =
      history.payloads ++ [payload] := by simp [History.payloads]
  constructor
  · rintro ⟨hshape, hlawful⟩
    rw [hpayloads, streamShape_append_iff] at hshape
    rw [lawful_append_iff] at hlawful
    exact ⟨⟨hshape.1, hlawful.1⟩, hshape.2, hlawful.2⟩
  · rintro ⟨⟨hshape, hlawful⟩, hfollow, hlast⟩
    refine ⟨?_, lawful_append_iff.mpr ⟨hlawful, hlast⟩⟩
    rw [hpayloads, streamShape_append_iff]
    exact ⟨hshape, hfollow⟩

end Snoc

/-! ## A stream in use -/

/-- A stream with its channel, and what it was sent so far. -/
structure RoutedStream where
  stream : StreamPending
  channel : Channel StreamItem
  /-- The last response has come, and the stream has left the table. -/
  ended : Bool
  history : History

inductive StreamInput where
  | response (metadata : Wire.ResponseMeta) (payload : Wire.Payload)
  | grant (credits : Nat)
  | release (credits : Nat)
  | receive
  | hangUp

namespace RoutedStream

/-- The stream of a query that was registered, with its channel as the only one. -/
def registered (capacity initial : Nat) (budgets : QueryBudgets) : RoutedStream :=
  { stream :=
      { events := some 0, eventCapacity := capacity, budgets, abandoned := false, started := false,
        columnCount := 0, nextSequence := 0, nextRowOffset := 0, resultBytes := 0,
        outstandingCredits := initial }
    channel := .new capacity
    ended := false
    history := [] }

/-- A response that is refused, or comes after the last, is not a step. A grant that is
refused changes nothing. -/
def step (codec : Wire.Codec) (routed : RoutedStream) : StreamInput → Option RoutedStream
  | .response metadata payload =>
    if routed.ended then none
    else
      match routed.stream.route codec [routed.channel] metadata payload with
      | .error _ => none
      | .ok (stream, channels, terminal) =>
        some
          { stream
            channel := channels.headD routed.channel
            ended := terminal
            history := routed.history ++ [.response metadata payload] }
  | .grant credits =>
    match routed.stream.reserveCredits routed.channel.free credits with
    | .error _ => some routed
    | .ok stream => some { routed with stream, history := routed.history ++ [.granted credits] }
  | .release credits =>
    some
      { routed with
        stream := routed.stream.releaseReservedCredits credits
        history := routed.history ++ [.released credits] }
  | .receive => routed.channel.recv.map fun channel => { routed with channel }
  | .hangUp => some { routed with channel := routed.channel.close }

def Accepts (codec : Wire.Codec) (routed : RoutedStream) (metadata : Wire.ResponseMeta)
    (payload : Wire.Payload) : Prop :=
  (routed.step codec (.response metadata payload)).isSome = true

end RoutedStream

/-- What a payload is for the consumer. -/
def itemOf : Wire.Payload → Option StreamItem
  | .error error => some (.error (.remote error))
  | payload => (StreamPending.convert payload).toOption.map .ok

def History.items (history : History) : List StreamItem := history.payloads.filterMap itemOf

/-- The counters of a stream are the totals of its history. -/
structure Totals (codec : Wire.Codec) (budgets : QueryBudgets) (initial : Nat)
    (stream : StreamPending) (history : History) : Prop where
  limits : stream.budgets = budgets
  sequence : stream.nextSequence = history.payloads.length
  started : stream.started = history.start.isSome
  columns : ∀ started, history.start = some started →
    stream.columnCount = started.columns.length
  rows : stream.nextRowOffset = history.rows
  bytes : stream.resultBytes = history.bytes codec
  credits : stream.outstandingCredits = history.credits initial

/-- The stream knows its history, and the consumer was sent what was accepted. -/
structure Tracks (codec : Wire.Codec) (budgets : QueryBudgets) (initial : Nat)
    (routed : RoutedStream) : Prop where
  totals : Totals codec budgets initial routed.stream routed.history
  ended : routed.ended = routed.history.payloads.any lastPayload
  fits : routed.ended = false → routed.stream.Fits [routed.channel]
  grammatical : Grammatical codec budgets initial routed.history
  channel : routed.stream.events = some 0 ∨
    (routed.stream.events = none ∧ routed.channel.closed = true)
  delivered : routed.channel.sent <+: routed.history.items
  all : routed.channel.closed = false → routed.channel.sent = routed.history.items

section Tracking

variable {codec : Wire.Codec} {budgets : QueryBudgets} {initial : Nat} {routed next : RoutedStream}
  {stream : StreamPending} {history : History} {metadata : Wire.ResponseMeta}
  {payload : Wire.Payload}

theorem exists_accept_iff :
    (∃ accepted, stream.accept codec metadata payload = .ok accepted) ↔
      stream.Follows codec metadata payload := by
  constructor
  · rintro ⟨⟨accepted, item, terminal⟩, haccept⟩
    obtain ⟨hsequence, hbound, haccepts⟩ := StreamPending.accept_eq_ok_iff.mp haccept
    refine ⟨hsequence, hbound, ?_⟩
    cases haccepts with
    | started hfollows | batch hfollows | completed hfollows => exact hfollows
    | failed hterminal => exact hterminal
  · intro hfollows
    obtain ⟨accepted, item, terminal, haccept⟩ := StreamPending.accept_of_follows hfollows
    exact ⟨_, haccept⟩

/-- The rules for a batch are about the totals. -/
theorem Totals.followsBatch_iff (htotals : Totals codec budgets initial stream history)
    {batch : Wire.RowBatch} :
    stream.advance.FollowsBatch codec metadata batch ↔
      metadata.terminal = false ∧ history.start ≠ none ∧
        LawfulBatch codec budgets initial history batch := by
  obtain ⟨hlimits, -, hstarted, hcolumns, hrows, hbytes, hcredits⟩ := htotals
  constructor
  · intro hrules
    have hsome : history.start.isSome = true := hstarted ▸ hrules.started
    refine ⟨hrules.more, Option.isSome_iff_ne_none.mp hsome, ?_⟩
    obtain ⟨-, -, hcredit, hrowLimit, htargetRows, hbyteLimit, htargetBytes, hoffset, hwidths,
      hrowCount, hmaxRows, hbyteCount, hresultBytes, hvalues⟩ := hrules
    simp only [StreamPending.advance, hlimits, hrows, hbytes, hcredits] at *
    exact
      { credit := hcredit, offset := hoffset, rows := hrowLimit, targetRows := htargetRows
        bytes := hbyteLimit, targetBytes := htargetBytes, rowCount := hrowCount
        maxRows := hmaxRows, byteCount := hbyteCount, resultBytes := hresultBytes
        widths := fun started hstart row hrow => (hwidths row hrow).trans (hcolumns started hstart)
        values := hvalues }
  · rintro ⟨hmore, hsome, hlawful⟩
    obtain ⟨started, hstart⟩ := Option.ne_none_iff_exists'.mp hsome
    obtain ⟨hcredit, hoffset, hrowLimit, htargetRows, hbyteLimit, htargetBytes, hrowCount,
      hmaxRows, hbyteCount, hresultBytes, hwidths, hvalues⟩ := hlawful
    have hwidth := hcolumns started hstart
    simp only [← hrows, ← hcredits] at hcredit hoffset
    simp only [← hlimits, ← hrows] at htargetRows htargetBytes hrowCount hmaxRows
    simp only [← hlimits, ← hbytes] at hbyteCount hresultBytes
    exact
      { more := hmore
        started := by
          rw [hstart] at hstarted
          exact hstarted
        credit := hcredit, rows := hrowLimit, targetRows := htargetRows, bytes := hbyteLimit
        targetBytes := htargetBytes, offset := hoffset
        widths := fun row hrow => (hwidths started hstart row hrow).trans hwidth.symm
        rowCount := hrowCount, maxRows := hmaxRows, byteCount := hbyteCount
        resultBytes := hresultBytes, values := hvalues }

theorem Totals.followsCompleted_iff (htotals : Totals codec budgets initial stream history)
    {completed : Wire.QueryCompleted} :
    stream.advance.FollowsCompleted metadata completed ↔
      metadata.terminal = true ∧ history.start ≠ none ∧
        LawfulEnd budgets history completed := by
  obtain ⟨hlimits, -, hstarted, -, hrows, -⟩ := htotals
  constructor
  · rintro ⟨hterminal, hrunning, hrowCount, htruncated⟩
    have hsome : history.start.isSome = true := hstarted ▸ hrunning
    simp only [StreamPending.advance, hlimits, hrows] at *
    exact ⟨hterminal, Option.isSome_iff_ne_none.mp hsome, hrowCount, htruncated⟩
  · rintro ⟨hterminal, hsome, hrowCount, htruncated⟩
    rw [← Option.isSome_iff_ne_none, ← hstarted] at hsome
    rw [← hrows] at hrowCount
    rw [← hlimits] at htruncated
    exact ⟨hterminal, hsome, hrowCount, htruncated⟩

/-- The rules for the counters are the rules for the history. -/
theorem Totals.follows_iff (htotals : Totals codec budgets initial stream history)
    (hopen : history.payloads.any lastPayload = false) :
    stream.Follows codec metadata payload ↔
      MayFollow history.payloads payload ∧
        Lawful codec budgets initial history (.response metadata payload) := by
  unfold StreamPending.Follows MayFollow Lawful
  rw [htotals.sequence]
  cases payload with
  | queryStarted started =>
    constructor
    · rintro ⟨hsequence, hbound, hmore, ⟨-, hzero⟩, hcolumns, hordinals, htypes⟩
      refine ⟨⟨hopen, ?_⟩, hsequence, hbound, hmore, hcolumns, hordinals, htypes⟩
      rw [hzero] at hsequence
      exact List.eq_nil_of_length_eq_zero hsequence.symm
    · rintro ⟨⟨-, hnone⟩, hsequence, hbound, hmore, hstart⟩
      have hfresh : stream.started = false := by
        rw [htotals.started, History.start, hnone]
        rfl
      rw [hnone] at hsequence
      exact ⟨by rw [hnone]; exact hsequence, hbound, hmore,
        ⟨hfresh, UInt64.toNat_inj.mp hsequence⟩, hstart.columns, hstart.ordinals, hstart.types⟩
  | rowBatch batch =>
    simp only [htotals.followsBatch_iff, lastPayload]
    unfold History.start
    tauto
  | queryCompleted completed =>
    simp only [htotals.followsCompleted_iff, lastPayload]
    unfold History.start
    tauto
  | error error =>
    simp only [lastPayload]
    tauto
  | _ => simp

theorem History.payloads_response (history : History) (metadata : Wire.ResponseMeta)
    (payload : Wire.Payload) :
    History.payloads (history ++ [.response metadata payload]) = history.payloads ++ [payload] := by
  simp [History.payloads]

theorem History.start_response (history : History) (metadata : Wire.ResponseMeta)
    (payload : Wire.Payload) :
    History.start (history ++ [.response metadata payload]) =
      history.start.or (History.startOf payload) := by
  rw [History.start, History.payloads_response, List.findSome?_append]
  cases payload <;> rfl

theorem History.batches_response (history : History) (metadata : Wire.ResponseMeta)
    (payload : Wire.Payload) :
    History.batches (history ++ [.response metadata payload]) =
      history.batches ++ (History.batchOf payload).toList := by
  rw [History.batches, History.payloads_response, List.filterMap_append]
  cases payload <;> rfl

theorem History.rows_response (history : History) (metadata : Wire.ResponseMeta)
    (payload : Wire.Payload) :
    History.rows (history ++ [.response metadata payload]) =
      history.rows + ((History.batchOf payload).toList.map fun batch => batch.rows.length).sum := by
  rw [History.rows, History.batches_response, List.map_append, List.sum_append]
  rfl

theorem History.bytes_response (codec : Wire.Codec) (history : History)
    (metadata : Wire.ResponseMeta) (payload : Wire.Payload) :
    History.bytes codec (history ++ [.response metadata payload]) =
      history.bytes codec + ((History.batchOf payload).toList.map fun batch =>
        (batch.rows.map codec.rowLength).sum).sum := by
  rw [History.bytes, History.batches_response, List.map_append, List.sum_append]
  rfl

theorem History.credits_response (initial : Nat) (history : History)
    (metadata : Wire.ResponseMeta) (payload : Wire.Payload) :
    History.credits initial (history ++ [.response metadata payload]) =
      history.credits initial - (History.batchOf payload).toList.length := by
  rw [History.credits, List.foldl_append]
  cases payload <;> rfl

/-- What one more response adds to the totals. -/
theorem Totals.accepts {accepted : StreamPending}
    (htotals : Totals codec budgets initial stream history)
    (haccepts : stream.advance.Accepts codec metadata payload accepted item terminal) :
    Totals codec budgets initial accepted (history ++ [.response metadata payload]) := by
  obtain ⟨hlimits, hsequence, hstarted, hcolumns, hrows, hbytes, hcredits⟩ := htotals
  have hnumber : stream.nextSequence + 1 =
      (History.payloads (history ++ [.response metadata payload])).length := by
    rw [History.payloads_response, List.length_append, hsequence]
    rfl
  have hstart := History.start_response history metadata payload
  have hmoreRows := History.rows_response history metadata payload
  have hmoreBytes := History.bytes_response codec history metadata payload
  have hfewer := History.credits_response initial history metadata payload
  rw [← hrows] at hmoreRows
  rw [← hbytes] at hmoreBytes
  rw [← hcredits] at hfewer
  cases haccepts with
  | started hfollows _ =>
    have hnone : history.start = none := by
      have hfresh : stream.started = false := hfollows.first.1
      rwa [hstarted, Option.isSome_eq_false_iff, Option.isNone_iff_eq_none] at hfresh
    rw [hnone] at hstart
    refine ⟨hlimits, hnumber, ?_, ?_, hmoreRows.symm, hmoreBytes.symm, hfewer.symm⟩
    · rw [hstart]
      rfl
    · intro started hsome
      rw [hstart] at hsome
      obtain rfl := Option.some.inj hsome
      rfl
  | batch hfollows _ =>
    have hsame := hstart.trans Option.or_none
    rw [← hsame] at hstarted hcolumns
    have hrowSum := hmoreRows.trans (congrArg _ (Nat.add_zero _))
    have hbyteSum := hmoreBytes.trans (congrArg _ (Nat.add_zero _))
    exact ⟨hlimits, hnumber, hstarted, hcolumns, hrowSum.symm, hbyteSum.symm, hfewer.symm⟩
  | completed | failed =>
    have hsame := hstart.trans Option.or_none
    rw [← hsame] at hstarted hcolumns
    exact ⟨hlimits, hnumber, hstarted, hcolumns, hmoreRows.symm, hmoreBytes.symm, hfewer.symm⟩

theorem Totals.abandon (htotals : Totals codec budgets initial stream history) :
    Totals codec budgets initial { stream with abandoned := true, events := none } history := by
  obtain ⟨hlimits, hsequence, hstarted, hcolumns, hrows, hbytes, hcredits⟩ := htotals
  exact ⟨hlimits, hsequence, hstarted, hcolumns, hrows, hbytes, hcredits⟩

theorem History.payloads_credit (history : History) {exchange : Exchange}
    (hpayload : History.payloads [exchange] = []) :
    History.payloads (history ++ [exchange]) = history.payloads := by
  rw [History.payloads, List.filterMap_append]
  exact (congrArg _ hpayload).trans (List.append_nil _)

theorem Totals.credit {credits : Nat} {exchange : Exchange}
    (htotals : Totals codec budgets initial stream history)
    (hpayload : History.payloads [exchange] = [])
    (hcredits : credits = History.credits initial (history ++ [exchange])) :
    Totals codec budgets initial { stream with outstandingCredits := credits }
      (history ++ [exchange]) := by
  have hsame := History.payloads_credit history hpayload
  obtain ⟨hlimits, hsequence, hstarted, hcolumns, hrows, hbytes, -⟩ := htotals
  constructor <;> simp only [History.start, History.rows, History.bytes, History.batches, hsame]
  all_goals assumption

theorem route_after {channels changed : List (Channel StreamItem)} {after : StreamPending}
    (hroute : stream.route codec channels metadata payload = .ok (after, changed, terminal)) :
    ∃ accepted item, stream.accept codec metadata payload = .ok (accepted, item, terminal) ∧
      (after = accepted ∨ after = { accepted with abandoned := true, events := none }) := by
  obtain ⟨⟨accepted, item, last⟩, haccept, hroute⟩ := (Outcome.bind_eq_ok _ _ _).mp hroute
  cases item with
  | error failure =>
    cases hroute
    exact ⟨_, _, haccept, .inl rfl⟩
  | ok event =>
    obtain ⟨⟨emitted, sent⟩, hemit, hroute⟩ := (Outcome.bind_eq_ok _ _ _).mp hroute
    cases hroute
    refine ⟨_, _, haccept, ?_⟩
    unfold StreamPending.emit at hemit
    split at hemit
    · cases hemit
      exact .inl rfl
    · split at hemit
      · cases hemit
        exact .inl rfl
      · split at hemit <;> cases hemit
        · exact .inl rfl
        · exact .inr rfl

theorem itemOf_accepts {accepted : StreamPending}
    (haccepts : stream.Accepts codec metadata payload accepted item terminal) :
    itemOf payload = some item ∧ lastPayload payload = terminal ∧
      accepted.events = stream.events := by
  cases haccepts with
  | started _ hconverted | batch _ hconverted | completed _ hconverted =>
    simp [itemOf, hconverted, lastPayload, Except.toOption]
  | failed => simp [itemOf, lastPayload]

theorem Tracks.accepts_iff (htracks : Tracks codec budgets initial routed) :
    routed.Accepts codec metadata payload ↔
      Grammatical codec budgets initial (routed.history ++ [.response metadata payload]) := by
  rw [grammatical_response_iff, RoutedStream.Accepts, RoutedStream.step]
  by_cases hended : routed.ended = true
  · have hlast : routed.history.payloads.any lastPayload = true := htracks.ended ▸ hended
    simp [hended, MayFollow, hlast]
  · rw [if_neg hended]
    rw [Bool.not_eq_true] at hended
    have hfits := htracks.fits hended
    have hopen : routed.history.payloads.any lastPayload = false := htracks.ended ▸ hended
    rw [← htracks.totals.follows_iff hopen, ← exists_accept_iff]
    constructor
    · intro hsome
      split at hsome
      · cases hsome
      · rename_i after changed terminal hroute
        obtain ⟨accepted, item, haccept, -⟩ := route_after hroute
        exact ⟨htracks.grammatical, _, haccept⟩
    · rintro ⟨-, ⟨accepted, item, terminal⟩, haccept⟩
      obtain ⟨after, changed, hroute, -⟩ := PendingRequests.route_of_accept hfits haccept
      rw [hroute]
      rfl

theorem History.items_response (history : History) (metadata : Wire.ResponseMeta)
    (payload : Wire.Payload) :
    History.items (history ++ [.response metadata payload]) =
      history.items ++ (itemOf payload).toList := by
  rw [History.items, History.payloads_response, List.filterMap_append]
  cases hitem : itemOf payload <;> simp [History.items, hitem]

theorem sent_single {channel : Channel StreamItem} {changed : List (Channel StreamItem)}
    (hsent : stream.Sent [channel] item changed)
    (hchannel : stream.events = some 0 ∨ (stream.events = none ∧ channel.closed = true)) :
    ∃ sent, changed = [sent] ∧
      ((stream.events = some 0 ∧ channel.trySend item = .ok sent) ∨
        (sent = channel ∧ channel.closed = true)) := by
  rcases hchannel with hevents | ⟨hevents, hclosed⟩
  · cases hsent with
    | @delivered number found sent hnumber hfound hsend =>
      obtain rfl : 0 = number := Option.some.inj (hevents.symm.trans hnumber)
      obtain rfl : channel = found := Option.some.inj hfound
      exact ⟨sent, rfl, .inl ⟨hevents, hsend⟩⟩
    | deserted hdeserted =>
      obtain ⟨found, hfound, hclosed⟩ := hdeserted 0 hevents
      obtain rfl : channel = found := Option.some.inj hfound
      exact ⟨channel, rfl, .inr ⟨rfl, hclosed⟩⟩
  · cases hsent with
    | delivered hnumber => cases hevents.symm.trans hnumber
    | deserted => exact ⟨channel, rfl, .inr ⟨rfl, hclosed⟩⟩

theorem tracks_response (htracks : Tracks codec budgets initial routed)
    (hstep : routed.step codec (.response metadata payload) = some next) :
    Tracks codec budgets initial next := by
  have hgrammatical := htracks.accepts_iff.mp (show routed.Accepts codec metadata payload by
    rw [RoutedStream.Accepts, hstep]
    rfl)
  rw [RoutedStream.step] at hstep
  split_ifs at hstep with hended
  rw [Bool.not_eq_true] at hended
  split at hstep
  · cases hstep
  rename_i after changed terminal hroute
  cases hstep
  have hfits := htracks.fits hended
  obtain ⟨accepted, item, haccept, hafter⟩ := route_after hroute
  obtain ⟨-, -, haccepts⟩ := StreamPending.accept_eq_ok_iff.mp haccept
  obtain ⟨hitem, hlast, hevents⟩ := itemOf_accepts haccepts
  obtain ⟨_, _, hrouted, hsent, hleft⟩ := PendingRequests.route_of_accept hfits haccept
  obtain ⟨rfl, rfl⟩ : after = _ ∧ changed = _ := by
    have hsame := Except.ok.inj (hroute.symm.trans hrouted)
    exact ⟨congrArg Prod.fst hsame, congrArg (fun result => result.2.1) hsame⟩
  have htotals := htracks.totals.accepts haccepts
  have hitems := History.items_response routed.history metadata payload
  rw [hitem, Option.toList_some] at hitems
  have hopen : routed.history.payloads.any lastPayload = false := htracks.ended ▸ hended
  have hseat : accepted.events = some 0 ∨
      (accepted.events = none ∧ routed.channel.closed = true) := by
    rw [hevents]
    exact htracks.channel
  obtain ⟨sent, rfl, houtcome⟩ := sent_single hsent hseat
  -- A stream without a channel has lost its consumer, now or before.
  have hgone : after.events = none → sent.closed = true := by
    intro hnone
    rcases hleft with rfl | ⟨hsame, -, hdeserted, -⟩
    · rcases hseat with hnumber | ⟨-, hclosed⟩
      · cases hnumber.symm.trans hnone
      · rcases houtcome with ⟨hnumber, -⟩ | ⟨rfl, -⟩
        · cases hnumber.symm.trans hnone
        · exact hclosed
    · obtain rfl := List.singleton_inj.mp hsame
      rcases hseat with hnumber | ⟨-, hclosed⟩
      · obtain ⟨found, hfound, hclosed⟩ := hdeserted 0 hnumber
        exact Option.some.inj hfound ▸ hclosed
      · exact hclosed
  have hitemSent : sent.sent <+: routed.history.items ++ [item] ∧
      (sent.closed = false → sent.sent = routed.history.items ++ [item]) := by
    rcases houtcome with ⟨-, hsend⟩ | ⟨rfl, hclosed⟩
    · obtain ⟨hmore, -, -⟩ := Channel.trySend_ok hsend
      rw [hmore, htracks.all (Channel.open_of_trySend hsend)]
      exact ⟨List.prefix_rfl, fun _ => rfl⟩
    · refine ⟨htracks.delivered.trans (List.prefix_append _ _), fun hstill => ?_⟩
      rw [hclosed] at hstill
      cases hstill
  constructor
  case totals =>
    rcases hafter with rfl | rfl
    · exact htotals
    · exact htotals.abandon
  case ended =>
    rw [History.payloads_response, List.any_append, hopen]
    simp [hlast]
  case grammatical => exact hgrammatical
  case fits =>
    rintro rfl
    obtain ⟨hstays, hcredits, hneed, -⟩ := haccepts.spends
    have hroom : accepted.Fits [sent] := hfits.sent hstays hcredits hneed hsent
    rcases hafter with rfl | rfl
    · exact hroom
    · exact ⟨hroom.1, nofun⟩
  case channel =>
    rcases hafter with rfl | rfl
    · rcases hseat with hnumber | ⟨hnone, -⟩
      · exact .inl hnumber
      · exact .inr ⟨hnone, hgone hnone⟩
    · exact .inr ⟨rfl, hgone rfl⟩
  case delivered =>
    rw [hitems]
    exact hitemSent.1
  case all =>
    intro hstill
    rw [hitems]
    exact hitemSent.2 hstill

theorem grammatical_credit {exchange : Exchange} (hpayload : History.payloads [exchange] = [])
    (hlawful : Lawful codec budgets initial history exchange)
    (hgrammatical : Grammatical codec budgets initial history) :
    Grammatical codec budgets initial (history ++ [exchange]) := by
  refine ⟨?_, lawful_append_iff.mpr ⟨hgrammatical.lawful, hlawful⟩⟩
  rw [History.payloads_credit history hpayload]
  exact hgrammatical.shape

theorem tracks_credit {exchange : Exchange} {credits : Nat}
    (hpayload : History.payloads [exchange] = [])
    (hlawful : Lawful codec budgets initial routed.history exchange)
    (hcredits : credits = History.credits initial (routed.history ++ [exchange]))
    (hfits : routed.ended = false → StreamPending.Fits [routed.channel]
      { routed.stream with outstandingCredits := credits })
    (htracks : Tracks codec budgets initial routed) :
    Tracks codec budgets initial { routed with
      stream := { routed.stream with outstandingCredits := credits }
      history := routed.history ++ [exchange] } := by
  have hsame := History.payloads_credit routed.history hpayload
  constructor
  case totals => exact htracks.totals.credit hpayload hcredits
  case ended => exact htracks.ended.trans (congrArg (List.any · lastPayload) hsame.symm)
  case fits => exact hfits
  case grammatical => exact grammatical_credit hpayload hlawful htracks.grammatical
  case channel => exact htracks.channel
  case delivered =>
    rw [History.items, hsame]
    exact htracks.delivered
  case all =>
    rw [History.items, hsame]
    exact htracks.all

/-- The consumer may take what it was sent, and go. -/
theorem tracks_channel {channel : Channel StreamItem} (hsent : channel.sent = routed.channel.sent)
    (hclosed : routed.channel.closed = true → channel.closed = true)
    (hfree : routed.channel.free ≤ channel.free) (htracks : Tracks codec budgets initial routed) :
    Tracks codec budgets initial { routed with channel } := by
  constructor
  case totals => exact htracks.totals
  case ended => exact htracks.ended
  case fits =>
    intro hended
    obtain ⟨hcredits, hroom⟩ := htracks.fits hended
    refine ⟨hcredits, fun number hnumber => ?_⟩
    obtain ⟨found, hfound, hneed⟩ := hroom number hnumber
    rcases htracks.channel with hzero | ⟨hnone, -⟩
    · obtain rfl : 0 = number := Option.some.inj (hzero.symm.trans hnumber)
      obtain rfl : routed.channel = found := Option.some.inj hfound
      exact ⟨channel, rfl, Nat.le_trans hneed hfree⟩
    · cases hnone.symm.trans hnumber
  case grammatical => exact htracks.grammatical
  case channel => exact htracks.channel.imp_right fun hgone => ⟨hgone.1, hclosed hgone.2⟩
  case delivered =>
    rw [hsent]
    exact htracks.delivered
  case all =>
    intro hopen
    rw [hsent]
    apply htracks.all
    by_contra hgone
    rw [Bool.not_eq_false] at hgone
    rw [hclosed hgone] at hopen
    cases hopen

theorem tracks_grant {credits : Nat} (htracks : Tracks codec budgets initial routed)
    (hstep : routed.step codec (.grant credits) = some next) :
    Tracks codec budgets initial next := by
  rw [RoutedStream.step] at hstep
  split at hstep
  · cases hstep
    exact htracks
  · rename_i reserved hreserve
    cases hstep
    obtain ⟨-, hlimit, hneed⟩ := PendingRequests.reserveCredits_ok hreserve
    obtain rfl : reserved = { routed.stream with
        outstandingCredits := routed.stream.outstandingCredits + credits } := by
      simp only [StreamPending.reserveCredits, Outcome.bind_eq_ok, Outcome.pure_eq_ok] at hreserve
      obtain ⟨-, -, -, -, -, -, -, -, -, -, -, -, heq⟩ := hreserve
      exact heq.symm
    apply tracks_credit _ _ _ _ htracks
    · rfl
    · trivial
    · rw [History.credits, List.foldl_append, htracks.totals.credits]
      rfl
    · intro hended
      refine ⟨hlimit, fun number hnumber => ?_⟩
      obtain ⟨found, hfound, -⟩ := (htracks.fits hended).2 number hnumber
      rcases htracks.channel with hzero | ⟨hnone, -⟩
      · obtain rfl : 0 = number := Option.some.inj (hzero.symm.trans hnumber)
        exact ⟨routed.channel, rfl, hneed⟩
      · cases hnone.symm.trans hnumber

theorem tracks_step {input : StreamInput} (htracks : Tracks codec budgets initial routed)
    (hstep : routed.step codec input = some next) : Tracks codec budgets initial next := by
  cases input with
  | response metadata payload => exact tracks_response htracks hstep
  | grant credits => exact tracks_grant htracks hstep
  | release credits =>
    cases hstep
    apply tracks_credit _ _ _ _ htracks
    · rfl
    · trivial
    · rw [History.credits, List.foldl_append, htracks.totals.credits]
      rfl
    · intro hended
      obtain ⟨hcredits, hroom⟩ := htracks.fits hended
      refine ⟨Nat.le_trans (Nat.sub_le _ _) hcredits, fun number hnumber => ?_⟩
      obtain ⟨found, hfound, hneed⟩ := hroom number hnumber
      refine ⟨found, hfound, Nat.le_trans ?_ hneed⟩
      exact Nat.add_le_add_right (Nat.sub_le _ _) _
  | receive =>
    rw [RoutedStream.step, Option.map_eq_some_iff] at hstep
    obtain ⟨channel, hrecv, rfl⟩ := hstep
    obtain ⟨hsent, hclosed, hfree⟩ := Channel.recv_some hrecv
    exact tracks_channel hsent hclosed.trans (by omega) htracks
  | hangUp =>
    cases hstep
    exact tracks_channel rfl (fun _ => rfl) Channel.free_le_close htracks

end Tracking

/-! ## Runs -/

theorem tracks_registered (codec : Wire.Codec) (budgets : QueryBudgets) {capacity initial : Nat}
    (hcapacity : initial + 2 ≤ capacity) (hinitial : initial ≤ maxCreditGrant) :
    Tracks codec budgets initial (.registered capacity initial budgets) := by
  constructor
  case totals => exact ⟨rfl, rfl, rfl, nofun, rfl, rfl, rfl⟩
  case ended => rfl
  case fits =>
    intro _
    refine ⟨Nat.le_trans hinitial (by decide), fun number hnumber => ?_⟩
    obtain rfl := Option.some.inj hnumber
    refine ⟨.new capacity, rfl, ?_⟩
    rw [Channel.free_new]
    exact hcapacity
  case grammatical => exact ⟨.nothing, fun before _ _ hsplit => by cases before <;> cases hsplit⟩
  case channel => exact .inl rfl
  case delivered => exact List.prefix_rfl
  case all => exact fun _ => rfl

theorem Grammatical.of_append {codec : Wire.Codec} {budgets : QueryBudgets} {initial : Nat}
    {history rest : History} (hall : Grammatical codec budgets initial (history ++ rest)) :
    Grammatical codec budgets initial history := by
  constructor
  · have hshape := hall.shape
    rw [History.payloads, List.filterMap_append] at hshape
    generalize rest.filterMap _ = later at hshape
    induction later using List.reverseRecOn with
    | nil => rwa [List.append_nil] at hshape
    | append_singleton later payload ih =>
      rw [← List.append_assoc, streamShape_append_iff] at hshape
      exact ih hshape.1
  · intro before exchange after hsplit
    exact hall.lawful before exchange (after ++ rest) (by simp [hsplit])

/-- A sequence of responses is accepted just when the history stays grammatical. -/
theorem Tracks.run_isSome_iff {codec : Wire.Codec} {budgets : QueryBudgets} {initial : Nat}
    {routed : RoutedStream} (htracks : Tracks codec budgets initial routed)
    (responses : List (Wire.ResponseMeta × Wire.Payload)) :
    (Machine.run (RoutedStream.step codec) routed
        (responses.map fun response => .response response.1 response.2)).isSome = true ↔
      Grammatical codec budgets initial
        (routed.history ++ responses.map fun response => .response response.1 response.2) := by
  induction responses generalizing routed with
  | nil =>
    rw [List.map_nil, List.map_nil, List.append_nil]
    exact ⟨fun _ => htracks.grammatical, fun _ => rfl⟩
  | cons response responses ih =>
    obtain ⟨metadata, payload⟩ := response
    rw [List.map_cons, List.map_cons, Machine.run_cons]
    have hsplit : ∀ rest : History, routed.history ++ .response metadata payload :: rest =
        routed.history ++ [.response metadata payload] ++ rest := by simp
    rw [hsplit]
    cases hstep : routed.step codec (.response metadata payload) with
    | none =>
      constructor
      · intro hsome
        cases hsome
      · intro hgrammatical
        have haccepts := htracks.accepts_iff.mpr hgrammatical.of_append
        rw [RoutedStream.Accepts, hstep] at haccepts
        cases haccepts
    | some next =>
      have hhistory : next.history = routed.history ++ [.response metadata payload] := by
        rw [RoutedStream.step] at hstep
        split_ifs at hstep
        split at hstep <;> cases hstep
        rfl
      rw [← hhistory]
      exact ih (tracks_step htracks hstep)

theorem refused_gone {codec : Wire.Codec} {table next : PendingRequests}
    {response : Wire.ServerEnvelope} {metadata : Wire.ResponseMeta} {error : RouteError}
    (hmeta : response.responseMeta = some metadata) (hid : metadata.requestId.utf8ByteSize ≠ 0)
    (hroute : table.routeResponse codec response = (next, .error error)) :
    next.find metadata.requestId = none ∧ next.channels = table.channels := by
  unfold PendingRequests.routeResponse at hroute
  simp only [hmeta, if_neg hid] at hroute
  cases hfind : table.find metadata.requestId with
  | none =>
    simp only [hfind, Prod.mk.injEq] at hroute
    rw [← hroute.1]
    exact ⟨hfind, rfl⟩
  | some request =>
    simp only [hfind] at hroute
    split at hroute
    · cases hroute
    · obtain rfl := congrArg Prod.fst hroute
      have hname : request.requestId = metadata.requestId := by
        simpa using List.find?_some hfind
      refine ⟨?_, PendingRequests.remove_channels⟩
      rw [PendingRequests.find, PendingRequests.remove_active, hname, Rows.find,
        List.find?_eq_none]
      intro other hother
      simpa [PendingRequests.others] using (List.mem_filter.mp hother).2

/-- What a run of a registered stream has accepted is grammatical, a sequence of responses
is accepted just when the history stays grammatical with it, and the consumer gets what was
accepted in order. A refused response takes its request out of the table and sends nothing. -/
theorem streamRouter_grammar (codec : Wire.Codec) (config : EngineConfig) (sessionId : String)
    (initial : Nat) (budgets : QueryBudgets) (inputs : List StreamInput) (routed : RoutedStream)
    (hregistered : PendingRequests.validateStreamRegistration
      (.stream 0 config.streamEventCapacity initial budgets) (some sessionId) = .ok ())
    (hrun : Machine.run (RoutedStream.step codec)
      (.registered config.streamEventCapacity initial budgets) inputs = some routed) :
    Grammatical codec budgets initial routed.history ∧
      (∀ responses : List (Wire.ResponseMeta × Wire.Payload),
        (Machine.run (RoutedStream.step codec) routed
            (responses.map fun response => .response response.1 response.2)).isSome = true ↔
          Grammatical codec budgets initial
            (routed.history ++ responses.map fun response => .response response.1 response.2)) ∧
      routed.channel.sent <+: routed.history.items ∧
      (routed.channel.closed = false → routed.channel.sent = routed.history.items) ∧
      ∀ (table next : PendingRequests) (response : Wire.ServerEnvelope)
        (metadata : Wire.ResponseMeta) (error : RouteError),
        response.responseMeta = some metadata → metadata.requestId.utf8ByteSize ≠ 0 →
        table.routeResponse codec response = (next, .error error) →
        next.find metadata.requestId = none ∧ next.channels = table.channels := by
  have hlimits : initial + 2 ≤ config.streamEventCapacity ∧ initial ≤ maxCreditGrant := by
    have hvalid := config.valid
    simp only [PendingRequests.validateStreamRegistration, Outcome.bind_eq_ok,
      Outcome.rejectIf_eq_ok] at hregistered
    obtain ⟨_, -, _, -, _, hcapacity, hgrant⟩ := hregistered
    omega
  have htracks : Tracks codec budgets initial routed := by
    apply Machine.run_invariant (tracks_registered codec budgets hlimits.1 hlimits.2) _ hrun
    exact fun before action after hbefore hstep => tracks_step hbefore hstep
  refine ⟨htracks.grammatical, htracks.run_isSome_iff, htracks.delivered, htracks.all, ?_⟩
  intro table next response metadata error hmeta hid hroute
  exact refused_gone hmeta hid hroute

/-- The query of one credit that runs without rows and completes. -/
def completedResponses : List (Wire.ResponseMeta × Wire.Payload) :=
  [({ requestId := "1-7", traceId := "engine-1-7", sequence := 0, terminal := false },
      .queryStarted { columns := [] }),
    ({ requestId := "1-7", traceId := "engine-1-7", sequence := 1, terminal := false },
      .rowBatch { startRowOffset := 0, rows := [] }),
    ({ requestId := "1-7", traceId := "engine-1-7", sequence := 2, terminal := true },
      .queryCompleted
        { rowCount := 0, truncatedByMaxRows := false, truncatedByMaxResultBytes := false })]

def smallBudgets : QueryBudgets :=
  { maxRows := 0, targetBatchRows := 0, targetBatchBytes := 0, maxResultBytes := 100 }

theorem completedResponses_grammatical :
    Grammatical emptyCodec smallBudgets 1
      (completedResponses.map fun response => .response response.1 response.2) := by
  obtain ⟨-, haccepted, -⟩ := streamRouter_grammar emptyCodec defaultConfig "session" 1 smallBudgets
    [] (.registered defaultConfig.streamEventCapacity 1 smallBudgets) rfl rfl
  exact (haccepted completedResponses).mp rfl

/-- The accounting that a payload leads to. -/
def StreamPending.accounted (codec : Wire.Codec) (stream : StreamPending) :
    Wire.Payload → StreamPending
  | .queryStarted started =>
    { stream with started := true, columnCount := started.columns.length }
  | .rowBatch batch =>
    { stream with
      outstandingCredits := stream.outstandingCredits - 1
      nextRowOffset := stream.nextRowOffset + batch.rows.length
      resultBytes := stream.resultBytes + (batch.rows.map codec.rowLength).sum }
  | _ => stream

/-- The stream as `route` leaves it, also where it refuses the response: the number is
counted after it was compared, and a payload before it is converted and sent. -/
def StreamPending.left (codec : Wire.Codec) (stream : StreamPending)
    (channels : List (Channel StreamItem)) (metadata : Wire.ResponseMeta)
    (payload : Wire.Payload) : StreamPending :=
  match stream.route codec channels metadata payload with
  | .ok (after, _, _) => after
  | .error (.sequence _ _) | .error .sequenceOverflow => stream
  | .error (.conversion _) | .error (.channelFull _) => stream.advance.accounted codec payload
  | .error _ => stream.advance

/-- A query that completes before it started is refused, and its number is counted. -/
theorem refusedCompletion_counted :
    ∃ (stream : StreamPending) (channels : List (Channel StreamItem))
      (metadata : Wire.ResponseMeta) (payload : Wire.Payload) (violation : StreamViolation),
      stream.route emptyCodec channels metadata payload = .error violation ∧
        stream.nextSequence = 0 ∧
        (stream.left emptyCodec channels metadata payload).nextSequence = 1 :=
  ⟨(RoutedStream.registered defaultConfig.streamEventCapacity 1 smallBudgets).stream,
    [.new defaultConfig.streamEventCapacity],
    { requestId := "1-7", traceId := "engine-1-7", sequence := 0, terminal := true },
    .queryCompleted
      { rowCount := 0, truncatedByMaxRows := false, truncatedByMaxResultBytes := false },
    .queryCompletedEnvelope, rfl, rfl, rfl⟩

end Chat2DB.Supervisor
