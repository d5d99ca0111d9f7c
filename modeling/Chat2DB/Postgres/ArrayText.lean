import Chat2DB.Postgres.Array

/-! # Reading rendered arrays back

The tokens of a rendered literal, and the levels that they open and close. The
literal denotes its shape and elements, unless an element that is not quoted
begins or ends with a vertical tab.
-/

namespace Chat2DB.Postgres

open Chat2DB.Sql Decimal

variable {text rest : List Char} {values : List ArrayValue} {length : Nat} {reading : ArrayReading}
  {outer : List (Option Nat)} {lengths : List Nat} {shape : List PostgresArrayDimension}

/-! ## Elements as tokens -/

/-- An element between the white space that the server skips. -/
def trimSpace (text : List Char) : List Char :=
  (text.dropWhile isArraySpace).rdropWhile isArraySpace

/-- The tokens that the server finds for an element. -/
def shownValue (value : ArrayValue) : List ArrayToken :=
  match value with
  | none => [.element none]
  | some text =>
    if needsQuote text = true then [.element (some text)]
    else if trimSpace text = [] then []
    else [plainElement (trimSpace text) false]

/-- A character that neither ends an element without quotes nor quotes one. -/
def Ordinary (c : Char) : Prop :=
  c ≠ ',' ∧ c ≠ '{' ∧ c ≠ '}' ∧ c ≠ '"' ∧ c ≠ '\\'

/-- What follows ends an element. -/
def EndsElement (rest : List Char) : Prop :=
  ∃ tail, rest = ',' :: tail ∨ rest = '}' :: tail

theorem lexAll_append (lexing : Lexing) (text rest : List Char) :
    lexAll lexing (text ++ rest) = (lexAll lexing text).bind fun next => lexAll next rest :=
  List.foldlM_append

theorem lexAll_cons (lexing : Lexing) (c : Char) (text : List Char) :
    lexAll lexing (c :: text) = (lexStep lexing c).bind fun next => lexAll next text :=
  List.foldlM_cons

theorem lexAll_quoted (text value : List Char) (tokens : List ArrayToken) (rest : List Char) :
    lexAll ⟨.quoted text, tokens⟩ (value.flatMap escapeCharacter ++ rest) =
      lexAll ⟨.quoted (text ++ value), tokens⟩ rest := by
  induction value generalizing text with
  | nil => simp
  | cons c value ih =>
    have hone : ∀ tail, lexAll ⟨.quoted text, tokens⟩ (escapeCharacter c ++ tail) =
        lexAll ⟨.quoted (text ++ [c]), tokens⟩ tail := by
      intro tail
      rw [escapeCharacter]
      split_ifs with hspecial
      · simp [lexAll_cons, lexStep]
      · rw [not_or] at hspecial
        simp [lexAll_cons, lexStep, hspecial]
    rw [List.flatMap_cons, List.append_assoc, hone, ih, List.append_assoc]
    rfl

theorem lexAll_spaces {spaces : List Char} (h : ∀ c ∈ spaces, isArraySpace c = true)
    (tokens : List ArrayToken) (rest : List Char) :
    lexAll ⟨.between, tokens⟩ (spaces ++ rest) = lexAll ⟨.between, tokens⟩ rest := by
  induction spaces with
  | nil => rfl
  | cons c spaces ih =>
    have hspace : isArraySpace c = true := h c List.mem_cons_self
    rw [List.cons_append, lexAll_cons, lexStep]
    simp only [hspace, if_true, Option.bind_some]
    exact ih fun d hd => h d (List.mem_cons_of_mem _ hd)

theorem lexAll_plain {first : Char} (hfirst : isArraySpace first = false)
    (htext : ∀ c ∈ text, Ordinary c) (tokens : List ArrayToken) :
    lexAll ⟨.plain [first] [] false, tokens⟩ text =
      some ⟨.plain ((first :: text).rdropWhile isArraySpace)
        ((first :: text).rtakeWhile isArraySpace) false, tokens⟩ := by
  induction text using List.reverseRecOn with
  | nil =>
    rw [show [first] = [] ++ [first] from rfl, List.rdropWhile_concat_neg _ _ _ (by simp [hfirst]),
      List.rtakeWhile_concat_neg _ _ _ (by simp [hfirst])]
    rfl
  | append_singleton text c ih =>
    have hc : Ordinary c := htext c (by simp)
    rw [lexAll_append, ih fun d hd => htext d (List.mem_append_left _ hd), Option.bind_some,
      lexAll_cons, lexStep]
    simp only [hc.1, hc.2.1, hc.2.2.1, hc.2.2.2.1, hc.2.2.2.2, or_self, if_false]
    by_cases hspace : isArraySpace c = true
    · rw [if_pos hspace, ← List.cons_append, List.rdropWhile_concat_pos _ _ _ hspace,
        List.rtakeWhile_concat_pos _ _ _ hspace]
      rfl
    · rw [if_neg hspace, ← List.cons_append, List.rdropWhile_concat_neg _ _ _ hspace,
        List.rtakeWhile_concat_neg _ _ _ hspace, List.rdropWhile_append_rtakeWhile]
      rfl

theorem lexAll_endsElement (hrest : EndsElement rest)
    (kept spaces : List Char) (tokens : List ArrayToken) :
    lexAll ⟨.plain kept spaces false, tokens⟩ rest =
      lexAll ⟨.between, tokens ++ [plainElement kept false]⟩ rest := by
  obtain ⟨tail, rfl | rfl⟩ := hrest <;> rfl

/-- An element without quotes is what stands between its white space. -/
theorem lexAll_unquoted (htext : ∀ c ∈ text, Ordinary c)
    (hrest : EndsElement rest) (tokens : List ArrayToken) :
    lexAll ⟨.between, tokens⟩ (text ++ rest) =
      lexAll ⟨.between, tokens ++
        if trimSpace text = [] then [] else [plainElement (trimSpace text) false]⟩ rest := by
  have hspaces : ∀ c ∈ text.takeWhile isArraySpace, isArraySpace c = true :=
    fun c hc => List.mem_takeWhile_imp hc
  rw [← List.takeWhile_append_dropWhile (p := isArraySpace) (l := text), List.append_assoc,
    lexAll_spaces hspaces, List.takeWhile_append_dropWhile, trimSpace]
  cases hdrop : text.dropWhile isArraySpace with
  | nil => simp
  | cons first others =>
    have hfirst : isArraySpace first = false := by
      have hhead := List.head?_dropWhile_not isArraySpace text
      rw [hdrop] at hhead
      simpa using hhead
    have hordinary : ∀ c ∈ first :: others, Ordinary c := by
      intro c hc
      rw [← hdrop] at hc
      exact htext c ((List.dropWhile_suffix _).subset hc)
    have hkept : (first :: others).rdropWhile isArraySpace ≠ [] := by
      rw [Ne, List.rdropWhile_eq_nil_iff]
      intro hall
      rw [hall first List.mem_cons_self] at hfirst
      cases hfirst
    have hstart : lexStep ⟨.between, tokens⟩ first =
        some ⟨.plain [first] [] false, tokens⟩ := by
      have hc := hordinary first List.mem_cons_self
      simp [lexStep, hfirst, hc.1, hc.2.1, hc.2.2.1, hc.2.2.2.1, hc.2.2.2.2]
    rw [if_neg hkept, List.cons_append, lexAll_cons, hstart, Option.bind_some, lexAll_append,
      lexAll_plain hfirst fun c hc => hordinary c (List.mem_cons_of_mem _ hc),
      Option.bind_some, lexAll_endsElement hrest]

theorem needsQuote_eq_false_iff :
    needsQuote text = false ↔ text ≠ [] ∧ isNullText text = false ∧
      ∀ c ∈ text, Ordinary c ∧ isAsciiWhitespace c = false := by
  simp only [needsQuote, Ordinary, decide_eq_false_iff_not, not_or, List.any_eq_true,
    decide_eq_true_eq, not_exists, not_and, Bool.not_eq_true]
  constructor
  · rintro ⟨hne, hnull, hall⟩
    exact ⟨hne, hnull, fun c hc => by have hc := hall c hc; tauto⟩
  · rintro ⟨hne, hnull, hall⟩
    exact ⟨hne, hnull, fun c hc => by have hc := hall c hc; tauto⟩

theorem lexAll_value (value : ArrayValue) (hrest : EndsElement rest) (tokens : List ArrayToken) :
    lexAll ⟨.between, tokens⟩ (valueText value ++ rest) =
      lexAll ⟨.between, tokens ++ shownValue value⟩ rest := by
  cases value with
  | none =>
    have hordinary : ∀ c ∈ ['N', 'U', 'L', 'L'], Ordinary c := by
      simp [Ordinary]
    rw [valueText, lexAll_unquoted hordinary hrest, shownValue]
    rfl
  | some text =>
    by_cases hquote : needsQuote text = true
    · have hopen : ∀ tail, lexAll ⟨.between, tokens⟩ ('"' :: tail) =
          lexAll ⟨.quoted [], tokens⟩ tail := fun tail => rfl
      have hclose : ∀ tail, lexAll ⟨.quoted text, tokens⟩ ('"' :: tail) =
          lexAll ⟨.between, tokens ++ [.element (some text)]⟩ tail := fun tail => rfl
      rw [valueText, elementText, if_neg (by simp [hquote]), shownValue, if_pos hquote,
        List.cons_append, List.append_assoc, hopen, lexAll_quoted, List.nil_append,
        List.singleton_append, hclose]
    · have hplain : needsQuote text = false := by simpa using hquote
      obtain ⟨_, _, hordinary⟩ := needsQuote_eq_false_iff.1 hplain
      rw [valueText, elementText, if_pos hplain,
        lexAll_unquoted (fun c hc => (hordinary c hc).1) hrest, shownValue, if_neg hquote]

/-! ## Levels as tokens -/

/-- The tokens of a level, with the tokens of its elements. -/
def blockTokens : List Nat → List ArrayValue → List ArrayToken
  | [], values => values.flatMap shownValue
  | length :: lengths, values =>
    .levelStart :: (delimited .delimiter length (fun index =>
      blockTokens lengths (chunk values lengths.prod index)) ++ [.levelEnd])

theorem length_chunk {α : Type} {values : List α} {size : Nat}
    (hlength : values.length = length * size) {index : Nat} (hindex : index < length) :
    (chunk values size index).length = size := by
  have hinside : (index + 1) * size ≤ length * size := Nat.mul_le_mul_right _ hindex
  rw [Nat.add_mul, Nat.one_mul] at hinside
  rw [chunk, List.length_take, List.length_drop]
  omega

/-- The text of a level is read as its tokens. -/
theorem lexAll_block (lengths : List Nat) (hvalues : values.length = lengths.prod)
    (hrest : lengths = [] → EndsElement rest) (tokens : List ArrayToken) :
    lexAll ⟨.between, tokens⟩ (blockText lengths values ++ rest) =
      lexAll ⟨.between, tokens ++ blockTokens lengths values⟩ rest := by
  induction lengths generalizing values rest tokens with
  | nil =>
    obtain ⟨value, rfl⟩ := List.length_eq_one_iff.1 hvalues
    rw [blockText, blockTokens, List.flatMap_singleton, List.flatMap_singleton,
      lexAll_value value (hrest rfl)]
  | cons length lengths ih =>
    rw [List.prod_cons] at hvalues
    -- The items in front of `index`, up to what follows them.
    have hitems : ∀ index ≤ length, ∀ (tokens : List ArrayToken) (rest : List Char),
        (0 < index → EndsElement rest) →
        lexAll ⟨.between, tokens⟩ (delimited ',' index (fun index =>
            blockText lengths (chunk values lengths.prod index)) ++ rest) =
          lexAll ⟨.between, tokens ++ delimited .delimiter index (fun index =>
            blockTokens lengths (chunk values lengths.prod index))⟩ rest := by
      intro index hindex
      induction index with
      | zero =>
        intro tokens rest _
        simp [delimited]
      | succ index ihIndex =>
        intro tokens rest hends
        have hitem := ih (length_chunk hvalues hindex) fun _ => hends (Nat.succ_pos _)
        rw [delimited_succ, delimited_succ, List.append_assoc, ihIndex (by omega)]
        · by_cases hfirst : 0 < index
          · have hcomma : ∀ (before : List ArrayToken) (tail : List Char),
                lexAll ⟨.between, before⟩ (',' :: tail) =
                  lexAll ⟨.between, before ++ [.delimiter]⟩ tail := fun _ _ => rfl
            rw [if_pos hfirst, if_pos hfirst, List.append_assoc, List.singleton_append, hcomma,
              hitem]
            simp
          · rw [if_neg hfirst, if_neg hfirst, List.nil_append, hitem]
            simp
        · intro hfirst
          rw [if_pos hfirst]
          exact ⟨_, Or.inl rfl⟩
    have hopen : ∀ tail, lexAll ⟨.between, tokens⟩ ('{' :: tail) =
        lexAll ⟨.between, tokens ++ [.levelStart]⟩ tail := fun _ => rfl
    have hclose : ∀ (before : List ArrayToken) (tail : List Char),
        lexAll ⟨.between, before⟩ ('}' :: tail) =
          lexAll ⟨.between, before ++ [.levelEnd]⟩ tail := fun _ _ => rfl
    rw [blockText, blockTokens, List.cons_append, List.append_assoc, hopen,
      List.singleton_append, hitems length le_rfl _ _ fun _ => ⟨_, Or.inr rfl⟩, hclose]
    simp

/-! ## The levels of a literal -/

theorem run_append (reading : ArrayReading) (left right : List ArrayToken) :
    reading.run (left ++ right) = (reading.run left).bind fun next => next.run right :=
  List.foldlM_append

theorem run_cons (reading : ArrayReading) (token : ArrayToken) (tokens : List ArrayToken) :
    reading.run (token :: tokens) = (reading.step token).bind fun next => next.run tokens :=
  List.foldlM_cons

/-- The sizes known so far fit a block of these lengths below the open levels:
either they end at those levels, or they are settled. -/
def ArrayReading.Admits (reading : ArrayReading) (outer : List (Option Nat))
    (lengths : List Nat) : Prop :=
  reading.expectDelimiter = false ∧ outer.length = reading.counts.length ∧
    (lengths = [] → reading.counts ≠ []) ∧
    ((reading.sizes = outer ∧ (lengths = [] ∨ reading.frozen = false)) ∨
      (reading.sizes = outer ++ lengths.map some ∧ reading.frozen = true))

/-- What a reading is after a block of these lengths with these elements. -/
def ArrayReading.after (reading : ArrayReading) (outer : List (Option Nat)) (lengths : List Nat)
    (values : List ArrayValue) : ArrayReading where
  counts := countElement reading.counts
  sizes := outer ++ lengths.map some
  frozen := true
  expectDelimiter := true
  values := reading.values ++ values

theorem run_element (h : reading.Admits outer []) (value : ArrayValue) :
    reading.run [.element value] = some (reading.after outer [] [value]) := by
  obtain ⟨hexpect, hlength, hopen, hsizes⟩ := h
  have hsame : reading.sizes = outer := by
    rcases hsizes with ⟨hsizes, _⟩ | ⟨hsizes, _⟩
    · exact hsizes
    · simpa using hsizes
  have hallowed : ¬ (reading.expectDelimiter = true ∨ reading.counts = [] ∨
      reading.counts.length ≠ reading.sizes.length) := by
    rw [hexpect, hsame, hlength]
    simp [hopen rfl]
  rw [run_cons, ArrayReading.step, if_neg hallowed]
  simp [ArrayReading.run, ArrayReading.after, hsame]

/-- A brace opens a level whose size is unknown, or is the one that was settled. -/
theorem step_levelStart (h : reading.Admits outer (length :: lengths)) :
    ∃ (size : Option Nat) (opened : ArrayReading), (size = none ∨ size = some length) ∧
      reading.step .levelStart = some opened ∧ opened.counts = 0 :: reading.counts ∧
      opened.values = reading.values ∧ opened.Admits (outer ++ [size]) lengths := by
  obtain ⟨hexpect, hlength, _, hsizes⟩ := h
  have hnot : ¬ reading.expectDelimiter = true := by
    rw [hexpect]
    exact Bool.false_ne_true
  rcases hsizes with ⟨hfresh, hfrozen⟩ | ⟨hknown, hfrozen⟩
  · have hfrozen : reading.frozen = false := by
      rcases hfrozen with hnil | hfrozen
      · cases hnil
      · exact hfrozen
    refine ⟨none, { reading with
      counts := 0 :: reading.counts
      sizes := reading.sizes ++ [none] }, Or.inl rfl, ?_, rfl, rfl, hexpect, ?_, ?_, ?_⟩
    · rw [ArrayReading.step, if_neg hnot, if_neg (by rw [hfresh, hlength]; omega),
        if_neg (by simp [hfrozen])]
    · simp [hlength]
    · simp
    · exact Or.inl ⟨by rw [hfresh], Or.inr hfrozen⟩
  · refine ⟨some length, { reading with counts := 0 :: reading.counts }, Or.inr rfl, ?_, rfl, rfl,
      hexpect, ?_, ?_, ?_⟩
    · rw [ArrayReading.step, if_neg hnot, if_pos (by rw [hknown]; simp; omega)]
    · simp [hlength]
    · simp
    · exact Or.inr ⟨by rw [hknown]; simp, hfrozen⟩

theorem step_levelEnd {counts : List Nat}
    {size : Option Nat} (hsize : size = none ∨ size = some length)
    (houter : outer.length = counts.length) (values : List ArrayValue) :
    ArrayReading.step ⟨length :: counts, outer ++ [size] ++ lengths.map some, true, true, values⟩
        .levelEnd =
      some ⟨countElement counts, outer ++ (length :: lengths).map some, true, true, values⟩ := by
  have hget : (outer ++ [size] ++ lengths.map some)[counts.length]? = some size := by
    rw [← houter, List.append_assoc, List.getElem?_append_right le_rfl]
    simp
  have hset : (outer ++ [size] ++ lengths.map some).set counts.length (some length) =
      outer ++ (length :: lengths).map some := by
    rw [← houter, List.append_assoc, List.set_append_right _ _ le_rfl]
    simp
  simp only [ArrayReading.step, hget, hset]
  simp [hsize]

theorem take_append_chunk {α : Type} (values : List α) (size index : Nat) :
    values.take (index * size) ++ chunk values size index = values.take ((index + 1) * size) := by
  rw [chunk, Nat.add_mul, Nat.one_mul, List.take_add]

/-- A block is read as its lengths and its elements. -/
theorem run_blockTokens (hpositive : ∀ length ∈ lengths, 1 ≤ length)
    (hvalues : values.length = lengths.prod)
    (hshown : ∀ value ∈ values, shownValue value = [.element value])
    (h : reading.Admits outer lengths) :
    reading.run (blockTokens lengths values) = some (reading.after outer lengths values) := by
  induction lengths generalizing values reading outer with
  | nil =>
    obtain ⟨value, rfl⟩ := List.length_eq_one_iff.1 hvalues
    rw [blockTokens, List.flatMap_singleton, hshown value (by simp), run_element h]
  | cons length lengths ih =>
    rw [List.prod_cons] at hvalues
    have hrest : ∀ other ∈ lengths, 1 ≤ other :=
      fun other hother => hpositive other (List.mem_cons_of_mem _ hother)
    have hlength : 1 ≤ length := hpositive length List.mem_cons_self
    obtain ⟨size, opened, hsize, hstart, hcounts, hopened, hadmits⟩ := step_levelStart h
    have hchunk : ∀ index, index < length → ∀ {next : ArrayReading},
        next.Admits (outer ++ [size]) lengths →
        next.run (blockTokens lengths (chunk values lengths.prod index)) =
          some (next.after (outer ++ [size]) lengths (chunk values lengths.prod index)) := by
      intro index hindex next hnext
      apply ih hrest (length_chunk hvalues hindex) _ hnext
      exact fun value hvalue => hshown value
        ((List.drop_subset _ _) ((List.take_subset _ _) hvalue))
    -- Behind the first item the sizes below the new level are settled.
    have hitems : ∀ index < length, opened.run (delimited .delimiter (index + 1) (fun index =>
          blockTokens lengths (chunk values lengths.prod index))) =
        some ⟨(index + 1) :: reading.counts, outer ++ [size] ++ lengths.map some, true, true,
          reading.values ++ values.take ((index + 1) * lengths.prod)⟩ := by
      intro index hindex
      induction index with
      | zero =>
        have hfirst := hchunk 0 hindex hadmits
        rw [ArrayReading.after, hcounts, hopened] at hfirst
        have htake := take_append_chunk values lengths.prod 0
        rw [Nat.zero_mul, List.take_zero, List.nil_append] at htake
        rw [← htake]
        simpa [delimited, countElement] using hfirst
      | succ index ihIndex =>
        have hnext : ArrayReading.Admits ⟨(index + 1) :: reading.counts,
            outer ++ [size] ++ lengths.map some, true, false,
            reading.values ++ values.take ((index + 1) * lengths.prod)⟩
            (outer ++ [size]) lengths :=
          ⟨rfl, by simp [h.2.1], by simp, Or.inr ⟨rfl, rfl⟩⟩
        rw [delimited_succ, run_append, ihIndex (by omega), Option.bind_some,
          if_pos (Nat.succ_pos _), List.singleton_append, run_cons]
        simp only [ArrayReading.step]
        rw [if_pos (by simp), Option.bind_some, hchunk _ hindex hnext,
          ← take_append_chunk values lengths.prod (index + 1), ← List.append_assoc]
        rfl
    have hall := hitems (length - 1) (by omega)
    rw [Nat.sub_add_cancel hlength, ← hvalues, List.take_length] at hall
    rw [blockTokens, run_cons, hstart, Option.bind_some, run_append, hall, Option.bind_some,
      run_cons, step_levelEnd hsize h.2.1]
    rfl

theorem mapM_some {α : Type} (values : List α) : values.mapM some = some values := by
  induction values with
  | nil => rfl
  | cons value values ih => simp [ih]

theorem arrayTokens_blockText (hne : lengths ≠ []) (hvalues : values.length = lengths.prod) :
    arrayTokens (blockText lengths values) = some (blockTokens lengths values) := by
  have hlex : lexAll _ (blockText lengths values ++ []) = _ :=
    lexAll_block lengths hvalues (fun hnil => absurd hnil hne) []
  rw [List.append_nil] at hlex
  rw [arrayTokens, hlex]
  rfl

theorem readLevels_blockText (hne : lengths ≠ []) (hpositive : ∀ length ∈ lengths, 1 ≤ length)
    (hvalues : values.length = lengths.prod)
    (hshown : ∀ value ∈ values, shownValue value = [.element value])
    {sizes : List (Option Nat)} {frozen : Bool}
    (hsizes : (sizes = [] ∧ frozen = false) ∨ (sizes = lengths.map some ∧ frozen = true)) :
    readLevels sizes frozen (blockText lengths values) = some (lengths, values) := by
  have hadmits : ArrayReading.Admits ⟨[], sizes, frozen, false, []⟩ [] lengths := by
    refine ⟨rfl, rfl, fun hnil => absurd hnil hne, ?_⟩
    rcases hsizes with ⟨rfl, rfl⟩ | ⟨rfl, rfl⟩
    · exact Or.inl ⟨rfl, Or.inr rfl⟩
    · exact Or.inr ⟨rfl, rfl⟩
  rw [readLevels, arrayTokens_blockText hne hvalues]
  simp only [Option.bind_eq_bind, Option.bind_some]
  rw [run_blockTokens hpositive hvalues hshown hadmits]
  simp [ArrayReading.finish, ArrayReading.after, countElement, mapM_some]

/-! ## The elements that tokens hold -/

def elementOf : ArrayToken → Option ArrayValue
  | .element value => some value
  | _ => none

def elementsOf (tokens : List ArrayToken) : List ArrayValue :=
  tokens.filterMap elementOf

theorem elementsOf_append (left right : List ArrayToken) :
    elementsOf (left ++ right) = elementsOf left ++ elementsOf right :=
  List.filterMap_append

theorem step_values {next : ArrayReading} {token : ArrayToken}
    (h : reading.step token = some next) :
    next.values = reading.values ++ elementsOf [token] := by
  cases token with
  | levelStart =>
    rw [ArrayReading.step] at h
    split_ifs at h <;> rw [← Option.some.inj h] <;> exact (List.append_nil _).symm
  | levelEnd =>
    rw [ArrayReading.step] at h
    split at h
    · cases h
    · split_ifs at h
      split at h
      · cases h
      · split_ifs at h
        rw [← Option.some.inj h]
        exact (List.append_nil _).symm
  | delimiter =>
    rw [ArrayReading.step] at h
    split_ifs at h
    rw [← Option.some.inj h]
    exact (List.append_nil _).symm
  | element value =>
    rw [ArrayReading.step] at h
    split_ifs at h
    rw [← Option.some.inj h]
    rfl

theorem run_values {next : ArrayReading} {tokens : List ArrayToken}
    (h : reading.run tokens = some next) :
    next.values = reading.values ++ elementsOf tokens := by
  induction tokens generalizing reading with
  | nil =>
    rw [← Option.some.inj h]
    simp [elementsOf]
  | cons token tokens ih =>
    rw [run_cons] at h
    obtain ⟨middle, hstep, hrun⟩ := Option.bind_eq_some_iff.1 h
    rw [ih hrun, step_values hstep, List.append_assoc, ← elementsOf_append]
    rfl

theorem flatMap_chunk {α : Type} {values : List α} {size : Nat}
    (hlength : values.length = length * size) :
    (List.range length).flatMap (chunk values size) = values := by
  have htake : ∀ index, (List.range index).flatMap (chunk values size) =
      values.take (index * size) := by
    intro index
    induction index with
    | zero => simp
    | succ index ih =>
      rw [List.range_succ, List.flatMap_append, ih, List.flatMap_singleton, take_append_chunk]
  rw [htake, ← hlength, List.take_length]

theorem elementsOf_blockTokens (lengths : List Nat) (hvalues : values.length = lengths.prod) :
    elementsOf (blockTokens lengths values) =
      values.flatMap fun value => elementsOf (shownValue value) := by
  induction lengths generalizing values with
  | nil =>
    obtain ⟨value, rfl⟩ := List.length_eq_one_iff.1 hvalues
    simp [blockTokens]
  | cons length lengths ih =>
    rw [List.prod_cons] at hvalues
    have hitems : elementsOf (delimited .delimiter length fun index =>
          blockTokens lengths (chunk values lengths.prod index)) =
        (List.range length).flatMap fun index =>
          (chunk values lengths.prod index).flatMap fun value => elementsOf (shownValue value) := by
      rw [delimited, elementsOf, List.filterMap_flatMap]
      apply List.flatMap_congr
      intro index hindex
      have hchunk := ih (length_chunk hvalues (List.mem_range.1 hindex))
      rw [← hchunk, elementsOf]
      split_ifs <;> rfl
    have hends : elementsOf (blockTokens (length :: lengths) values) =
        elementsOf (delimited .delimiter length fun index =>
          blockTokens lengths (chunk values lengths.prod index)) := by
      rw [blockTokens, elementsOf, elementsOf, List.filterMap_cons, List.filterMap_append]
      simp [elementOf]
    rw [hends, hitems, ← List.flatMap_assoc, flatMap_chunk hvalues]

theorem readLevels_values {sizes : List (Option Nat)} {frozen : Bool} {tokens : List ArrayToken}
    (htokens : arrayTokens text = some tokens)
    (h : readLevels sizes frozen text = some (lengths, values)) : values = elementsOf tokens := by
  rw [readLevels, htokens] at h
  obtain ⟨_, hsame, h⟩ := Option.bind_eq_some_iff.1 h
  obtain ⟨reading, hrun, hfinish⟩ := Option.bind_eq_some_iff.1 h
  rw [← Option.some.inj hsame] at hrun
  rw [ArrayReading.finish] at hfinish
  split_ifs at hfinish
  obtain ⟨_, _, hpair⟩ := Option.map_eq_some_iff.1 hfinish
  rw [← (Prod.mk.inj hpair).2, run_values hrun, List.nil_append]

/-- A list whose items give one item at most gives itself only when every item does. -/
theorem flatMap_eq_self {α : Type} {f : α → List α} (hshort : ∀ value, (f value).length ≤ 1)
    {values : List α} (h : values.flatMap f = values) : ∀ value ∈ values, f value = [value] := by
  have hbound : ∀ others : List α, (others.flatMap f).length ≤ others.length := by
    intro others
    induction others with
    | nil => simp
    | cons other others ih =>
      have hother := hshort other
      rw [List.flatMap_cons, List.length_append, List.length_cons]
      omega
  induction values with
  | nil => simp
  | cons value values ih =>
    rw [List.flatMap_cons] at h
    have hlength := hshort value
    rcases hvalue : f value with _ | ⟨first, _ | ⟨second, others⟩⟩
    · have hlong := hbound values
      rw [hvalue, List.nil_append] at h
      rw [h, List.length_cons] at hlong
      omega
    · rw [hvalue, List.singleton_append] at h
      obtain ⟨rfl, hrest⟩ := List.cons.inj h
      intro other hother
      rcases List.mem_cons.1 hother with rfl | hother
      · exact hvalue
      · exact ih hrest other hother
    · rw [hvalue, List.length_cons, List.length_cons] at hlength
      omega

/-! ## Bounds -/

theorem readBounds_boundText {dimension : PostgresArrayDimension} (h : 1 ≤ dimension.length)
    (fuel : Nat) (rest : List Char) :
    readBounds (fuel + 1) (boundText dimension ++ rest) =
      (readBounds fuel rest).map fun read => (dimension :: read.1, read.2) := by
  have hcolon : ∀ tail, NoDigitAhead (':' :: tail) := noDigitAhead_cons (by decide)
  have hbracket : ∀ tail, NoDigitAhead (']' :: tail) := noDigitAhead_cons (by decide)
  have htext : boundText dimension ++ rest = '[' :: (intText dimension.lowerBound ++
      ':' :: (intText (dimension.lowerBound + (dimension.length - 1 : Nat)) ++ ']' :: rest)) := by
    simp [boundText]
  have hspaces : ∀ tail, ('[' :: tail).dropWhile isArraySpace = '[' :: tail := fun _ => rfl
  have hordered : ¬ dimension.lowerBound + ((dimension.length - 1 : Nat) : Int) <
      dimension.lowerBound := by omega
  have hlength : (dimension.lowerBound + ((dimension.length - 1 : Nat) : Int) -
      dimension.lowerBound + 1).toNat = dimension.length := by omega
  rw [htext, readBounds, hspaces]
  simp only [readInt_intText _ (hcolon _), readInt_intText _ (hbracket _), Option.bind_eq_bind,
    Option.bind_some, Option.map_some, expectChar_self, hordered, if_false, hlength]
  cases readBounds fuel rest <;> rfl

theorem readBounds_flatMap (hlengths : ∀ dimension ∈ shape, 1 ≤ dimension.length) {fuel : Nat}
    (hfuel : shape.length < fuel) (hrest : ∃ tail, rest = '=' :: tail ∨ rest = '{' :: tail) :
    readBounds fuel (shape.flatMap boundText ++ rest) = some (shape, rest) := by
  induction shape generalizing fuel with
  | nil =>
    obtain ⟨fuel, rfl⟩ : ∃ others, fuel = others + 1 := ⟨fuel - 1, by
      rw [List.length_nil] at hfuel
      omega⟩
    obtain ⟨tail, rfl | rfl⟩ := hrest <;> rfl
  | cons dimension shape ih =>
    rw [List.length_cons] at hfuel
    obtain ⟨fuel, rfl⟩ : ∃ others, fuel = others + 1 := ⟨fuel - 1, by omega⟩
    rw [List.flatMap_cons, List.append_assoc,
      readBounds_boundText (hlengths dimension List.mem_cons_self),
      ih (fun other hother => hlengths other (List.mem_cons_of_mem _ hother)) (by omega)]
    rfl

theorem length_le_flatMap_boundText (shape : List PostgresArrayDimension) :
    shape.length ≤ (shape.flatMap boundText).length := by
  induction shape with
  | nil => exact le_rfl
  | cons dimension shape ih =>
    rw [List.flatMap_cons, List.length_append, List.length_cons]
    simp only [boundText, List.length_cons]
    omega

theorem blockText_head (hne : lengths ≠ []) (values : List ArrayValue) :
    ∃ tail, blockText lengths values = '{' :: tail := by
  cases lengths with
  | nil => exact absurd rfl hne
  | cons length lengths => exact ⟨_, rfl⟩

/-- The sizes that the bounds in front of a literal settle. -/
def settledSizes (shape : List PostgresArrayDimension) : List (Option Nat) :=
  if ∃ dimension ∈ shape, dimension.lowerBound ≠ 1 then
    (shape.map (·.length)).map some
  else []

/-- A rendered literal is read level by level behind its bounds. -/
theorem readArray_rendered (hne : shape ≠ [])
    (hlengths : ∀ dimension ∈ shape, 1 ≤ dimension.length) (values : List ArrayValue) :
    readArray (boundsText shape ++ blockText (shape.map (·.length)) values) =
      (readLevels (settledSizes shape) (decide (∃ dimension ∈ shape, dimension.lowerBound ≠ 1))
        (blockText (shape.map (·.length)) values)).map fun read =>
          if read.2 = [] then ([], [])
          else (if ∃ dimension ∈ shape, dimension.lowerBound ≠ 1 then shape
            else read.1.map fun size => { length := size, lowerBound := 1 }, read.2) := by
  have hlengthsNe : shape.map (·.length) ≠ [] := by simpa using hne
  obtain ⟨tail, htail⟩ := blockText_head hlengthsNe values
  -- bounds are printed only if some dimension does not begin at one
  by_cases hunusual : ∃ dimension ∈ shape, dimension.lowerBound ≠ 1
  · have hfuel : shape.length < (boundsText shape ++
        blockText (shape.map (·.length)) values).length + 1 := by
      have hshort := length_le_flatMap_boundText shape
      rw [boundsText, if_pos hunusual, List.length_append, List.length_append]
      omega
    have hbounds : readBounds _ (shape.flatMap boundText ++
        '=' :: blockText (shape.map (·.length)) values) = _ :=
      readBounds_flatMap hlengths hfuel ⟨_, Or.inl rfl⟩
    have htext : boundsText shape ++ blockText (shape.map (·.length)) values =
        shape.flatMap boundText ++ '=' :: blockText (shape.map (·.length)) values := by
      rw [boundsText, if_pos hunusual, List.append_assoc]
      rfl
    have hsizes : shape.map (fun dimension => some dimension.length) =
        (shape.map (·.length)).map some := by
      rw [List.map_map]
      rfl
    have hequals : ∀ others, ('=' :: others).dropWhile isArraySpace = '=' :: others :=
      fun _ => rfl
    rw [htext] at hbounds ⊢
    rw [readArray, hbounds]
    simp only [Option.bind_eq_bind, Option.bind_some, if_neg hne, hequals, expectChar_self,
      settledSizes, if_pos hunusual, decide_eq_true hunusual, hsizes]
    cases readLevels ((shape.map (·.length)).map some) true
      (blockText (shape.map (·.length)) values) with
    | none => rfl
    | some read => by_cases hnil : read.2 = [] <;> simp [hnil]
  · have hnone : ∀ dimension ∈ ([] : List PostgresArrayDimension), 1 ≤ dimension.length := by
      simp
    have hbounds := readBounds_flatMap hnone
      (Nat.succ_pos (blockText (shape.map (·.length)) values).length) ⟨tail, Or.inr htail⟩
    rw [List.flatMap_nil, List.nil_append] at hbounds
    rw [boundsText, if_neg hunusual, List.nil_append, readArray, hbounds]
    simp only [Option.bind_eq_bind, Option.bind_some, if_true, settledSizes, if_neg hunusual,
      decide_eq_false hunusual]
    cases readLevels [] false (blockText (shape.map (·.length)) values) with
    | none => rfl
    | some read => by_cases hnil : read.2 = [] <;> simp [hnil]

theorem map_length_eq (h : ∀ dimension ∈ shape, dimension.lowerBound = 1) :
    (shape.map (·.length)).map (fun size => { length := size, lowerBound := 1 }) = shape := by
  induction shape with
  | nil => rfl
  | cons dimension shape ih =>
    have hfirst := h dimension List.mem_cons_self
    rw [List.map_cons, List.map_cons,
      ih fun other hother => h other (List.mem_cons_of_mem _ hother), ← hfirst]

theorem shownValue_cases (value : ArrayValue) :
    shownValue value = [] ∨ ∃ shown, shownValue value = [.element shown] := by
  unfold shownValue plainElement
  split
  · exact Or.inr ⟨_, rfl⟩
  · split_ifs
    · exact Or.inr ⟨_, rfl⟩
    · exact Or.inl rfl
    · exact Or.inr ⟨_, rfl⟩
    · exact Or.inr ⟨_, rfl⟩

theorem shownValue_of_flatMap
    (h : values.flatMap (fun value => elementsOf (shownValue value)) = values) :
    ∀ value ∈ values, shownValue value = [.element value] := by
  have hshort : ∀ value, (elementsOf (shownValue value)).length ≤ 1 := by
    intro value
    rcases shownValue_cases value with hnone | ⟨shown, hshown⟩
    · simp [hnone, elementsOf]
    · simp [hshown, elementsOf, elementOf]
  intro value hvalue
  have hsame := flatMap_eq_self hshort h value hvalue
  rcases shownValue_cases value with hnone | ⟨shown, hshown⟩
  · rw [hnone] at hsame
    simp [elementsOf] at hsame
  · rw [hshown] at hsame ⊢
    rw [(List.cons.inj hsame).1]

/-- A rendered literal denotes its shape and elements exactly when the server finds
every element as it is. -/
theorem readArray_rendered_iff (hne : shape ≠ [])
    (hlengths : ∀ dimension ∈ shape, 1 ≤ dimension.length)
    (hvalues : values.length = (shape.map (·.length)).prod) :
    readArray (boundsText shape ++ blockText (shape.map (·.length)) values) =
        some (shape, values) ↔
      ∀ value ∈ values, shownValue value = [.element value] := by
  have hlengthsNe : shape.map (·.length) ≠ [] := by simpa using hne
  have hpositive : ∀ length ∈ shape.map (·.length), 1 ≤ length := by simpa using hlengths
  rw [readArray_rendered hne hlengths]
  constructor
  · intro hread
    obtain ⟨⟨lengths, found⟩, hlevels, hresult⟩ := Option.map_eq_some_iff.1 hread
    have hfound := readLevels_values (arrayTokens_blockText hlengthsNe hvalues) hlevels
    rw [elementsOf_blockTokens _ hvalues] at hfound
    by_cases hnil : found = []
    · rw [if_pos hnil] at hresult
      exact absurd (Prod.mk.inj hresult).1.symm hne
    · rw [if_neg hnil] at hresult
      have hsame : found = values := (Prod.mk.inj hresult).2
      rw [hsame] at hfound
      exact shownValue_of_flatMap hfound.symm
  · intro hshown
    have hsome : values ≠ [] := by
      rw [← List.length_pos_iff, hvalues]
      exact List.prod_pos fun length hlength => hpositive length hlength
    by_cases hunusual : ∃ dimension ∈ shape, dimension.lowerBound ≠ 1
    · rw [settledSizes, if_pos hunusual, readLevels_blockText hlengthsNe hpositive hvalues hshown
        (Or.inr ⟨rfl, decide_eq_true hunusual⟩), Option.map_some, if_neg hsome, if_pos hunusual]
    · have husual : ∀ dimension ∈ shape, dimension.lowerBound = 1 := by
        push Not at hunusual
        exact hunusual
      rw [settledSizes, if_neg hunusual, readLevels_blockText hlengthsNe hpositive hvalues hshown
        (Or.inl ⟨rfl, decide_eq_false hunusual⟩), Option.map_some, if_neg hsome, if_neg hunusual,
        map_length_eq husual]

/-! ## Elements that lose their white space -/

/-- The element begins or ends with a vertical tab. -/
def VerticalTabAtEdge (text : List Char) : Prop :=
  text.head? = some '\x0b' ∨ text.getLast? = some '\x0b'

/-- No element that is rendered without quotes begins or ends with a vertical tab. -/
def KeepsEdges (values : List ArrayValue) : Prop :=
  ∀ text, some text ∈ values → needsQuote text = false → ¬ VerticalTabAtEdge text

theorem isArraySpace_iff {c : Char} (h : isAsciiWhitespace c = false) :
    isArraySpace c = true ↔ c = '\x0b' := by
  simp only [isAsciiWhitespace, decide_eq_false_iff_not, not_or] at h
  simp only [isArraySpace, decide_eq_true_eq]
  tauto

theorem trimSpace_eq_self :
    trimSpace text = text ↔
      text.dropWhile isArraySpace = text ∧ text.rdropWhile isArraySpace = text := by
  constructor
  · intro h
    have hfront := (List.dropWhile_suffix (l := text) isArraySpace).length_le
    have hback := (List.rdropWhile_prefix isArraySpace (text.dropWhile isArraySpace)).length_le
    rw [trimSpace] at h
    have hlength := congrArg List.length h
    have hdrop : text.dropWhile isArraySpace = text :=
      (List.dropWhile_suffix isArraySpace).eq_of_length (by omega)
    rw [hdrop] at h
    exact ⟨hdrop, h⟩
  · rintro ⟨hfront, hback⟩
    rw [trimSpace, hfront, hback]

theorem trimSpace_eq_self_iff (hne : text ≠ []) (hplain : ∀ c ∈ text, isAsciiWhitespace c = false) :
    trimSpace text = text ↔ ¬ VerticalTabAtEdge text := by
  have hspace : ∀ c ∈ text, (isArraySpace c = true ↔ c = '\x0b') :=
    fun c hc => isArraySpace_iff (hplain c hc)
  have hlast := hspace _ (List.getLast_mem hne)
  have hfirst := hspace _ (List.head_mem hne)
  have hdrop : text.dropWhile isArraySpace = text ↔ ¬ isArraySpace (text.head hne) = true := by
    rw [List.dropWhile_eq_self_iff]
    constructor
    · intro h
      simpa [List.head_eq_getElem] using h (List.length_pos_iff.2 hne)
    · intro h _
      simpa [List.head_eq_getElem] using h
  have hrdrop : text.rdropWhile isArraySpace = text ↔
      ¬ isArraySpace (text.getLast hne) = true := by
    rw [List.rdropWhile_eq_self_iff]
    exact ⟨fun h => h hne, fun h _ => h⟩
  rw [trimSpace_eq_self, hdrop, hrdrop, hfirst, hlast, VerticalTabAtEdge,
    List.head?_eq_some_head hne, List.getLast?_eq_some_getLast hne, not_or, Option.some.injEq,
    Option.some.injEq]

theorem shownValue_iff (value : ArrayValue) :
    shownValue value = [.element value] ↔
      ∀ text, value = some text → needsQuote text = false → ¬ VerticalTabAtEdge text := by
  cases value with
  | none => simp [shownValue]
  | some text =>
    by_cases hquote : needsQuote text = true
    · simp [shownValue, hquote]
    · have hplain : needsQuote text = false := by simpa using hquote
      obtain ⟨hne, hnull, hall⟩ := needsQuote_eq_false_iff.1 hplain
      have htrim := trimSpace_eq_self_iff hne fun c hc => (hall c hc).2
      have hedges : (∀ other, some text = some other → needsQuote other = false →
          ¬ VerticalTabAtEdge other) ↔ trimSpace text = text := by
        rw [htrim]
        constructor
        · intro h
          exact h text rfl hplain
        · rintro h other hother _
          rwa [← Option.some.inj hother]
      rw [hedges, shownValue, if_neg hquote]
      constructor
      · intro hshown
        split_ifs at hshown with hnil
        unfold plainElement at hshown
        split_ifs at hshown
        · simp at hshown
        · simpa using hshown
      · intro hsame
        have hkept : plainElement text false = .element (some text) := by
          rw [plainElement, if_neg (by simp [hnull])]
        rw [hsame, if_neg hne, hkept]

/-- What is read off a payload without empty dimensions is what its layout says,
and the decoded text reads back as it exactly when no element that is rendered
without quotes begins or ends with a vertical tab. -/
theorem decodePostgresArray_reads_back_iff {elementOid : Nat}
    {decodeElement : List UInt8 → Except AppError (List Char)} {raw : List UInt8}
    {shape : List PostgresArrayDimension} {values : List ArrayValue}
    (hpayload : readPostgresArray elementOid decodeElement raw = .ok (shape, values))
    (hlengths : ∀ dimension ∈ shape, 1 ≤ dimension.length) {text : List Char}
    (h : decodePostgresArray elementOid decodeElement raw = .ok text) :
    ArrayPayload decodeElement raw shape values ∧
      (readArray text = some (shape, values) ↔ KeepsEdges values) := by
  refine ⟨readPostgresArray_ok hpayload, ?_⟩
  rw [decodePostgresArray, hpayload, Outcome.ok_bind] at h
  have hrender : renderPostgresArray shape values = .ok text := h
  by_cases hne : shape = []
  · subst hne
    rw [renderPostgresArray, if_pos rfl] at hrender
    obtain ⟨_, hnone, hpure⟩ := (Outcome.bind_eq_ok _ _ _).1 hrender
    have hnil : values = [] := by
      simpa using (Outcome.rejectIf_eq_ok _ _ _).1 hnone
    rw [← (Outcome.pure_eq_ok _ _).1 hpure, hnil]
    exact ⟨fun _ => by simp [KeepsEdges], fun _ => rfl⟩
  · obtain ⟨hvalues, htext⟩ := renderPostgresArray_ok hne hlengths hrender
    rw [htext, readArray_rendered_iff hne hlengths hvalues]
    constructor
    · intro hshown text hmem hquote
      exact (shownValue_iff _).1 (hshown _ hmem) text rfl hquote
    · intro hkeeps value hmem
      apply (shownValue_iff value).2
      rintro text rfl hquote
      exact hkeeps text hmem hquote

/-- Bytes as characters, the way a text column of ASCII decodes. -/
def asciiElement (bytes : List UInt8) : Except AppError (List Char) :=
  .ok (bytes.map fun byte => Char.ofNat byte.toNat)

/-- Two elements from index zero on: a comma that is quoted, and a null. -/
theorem decodePostgresArray_reads_back_sample :
    ArrayPayload asciiElement [0, 0, 0, 1, 0, 0, 0, 1, 0, 0, 0, 25, 0, 0, 0, 2, 0, 0, 0, 0,
        0, 0, 0, 1, 44, 255, 255, 255, 255] [⟨2, 0⟩] [some [','], none] ∧
      (readArray ['[', '0', ':', '1', ']', '=', '{', '"', ',', '"', ',', 'N', 'U', 'L', 'L', '}'] =
          some ([⟨2, 0⟩], [some [','], none]) ↔
        KeepsEdges [some [','], none]) :=
  decodePostgresArray_reads_back_iff
    (show readPostgresArray 25 asciiElement _ = .ok _ by decide +kernel) (by decide)
    (by decide +kernel)

/-- An element of one vertical tab is rendered without quotes and lost. -/
theorem decodePostgresArray_loses_tab :
    decodePostgresArray 25 asciiElement [0, 0, 0, 1, 0, 0, 0, 0, 0, 0, 0, 25, 0, 0, 0, 1,
        0, 0, 0, 1, 0, 0, 0, 2, 11, 97] = .ok ['{', '\x0b', 'a', '}'] ∧
      readPostgresArray 25 asciiElement [0, 0, 0, 1, 0, 0, 0, 0, 0, 0, 0, 25, 0, 0, 0, 1,
        0, 0, 0, 1, 0, 0, 0, 2, 11, 97] = .ok ([⟨1, 1⟩], [some ['\x0b', 'a']]) ∧
      readArray ['{', '\x0b', 'a', '}'] = some ([⟨1, 1⟩], [some ['a']]) ∧
      readArray ['{', '\x0b', 'a', '}'] ≠ some ([⟨1, 1⟩], [some ['\x0b', 'a']]) := by
  decide +kernel

end Chat2DB.Postgres
