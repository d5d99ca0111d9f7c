import Chat2DB.MySql.RoutinePreview
import Chat2DB.MySql.Tokens

/-! # Reading previews of routine calls

MySQL reads a preview as words, user variables, quoted texts and symbols, and its
statements end at semicolons. Read back, a preview sets the inputs, calls the routine
that was looked up and selects the outputs; the variables are distinct exactly if the
names that were left of the parameters are separate.
-/

namespace Chat2DB.MySql.Routine

variable {text name : List Char} {c : Char}

inductive Piece where
  | word (text : List Char)
  | userVariable (name : List Char)
  | quoted (opening : Char) (content : List Char)
  | symbol (c : Char)
deriving DecidableEq

/-! ## The reader -/

/-- What the characters since the last piece are the beginning of. -/
inductive PieceState where
  | between
  | word (text : List Char)
  | userVariable (name : List Char)
  | quoted (opening : Char) (content : List Char)
  | closing (opening : Char) (content : List Char)
deriving DecidableEq

structure Reader where
  state : PieceState
  pieces : List Piece
deriving DecidableEq

def Reader.start : Reader := { state := .between, pieces := [] }

def isBlank (c : Char) : Bool := c = ' ' || c = '\n'

def isQuote (c : Char) : Bool := c = '\'' || c = '"' || c = backtick

/-- The character after a piece that is complete. -/
def opened (pieces : List Piece) (c : Char) : Reader :=
  if isBlank c then { state := .between, pieces }
  else if c = '@' then { state := .userVariable [], pieces }
  else if isQuote c then { state := .quoted c [], pieces }
  else if isWordChar c then { state := .word [c], pieces }
  else { state := .between, pieces := pieces ++ [.symbol c] }

/-- A quote that is doubled within its text stands for itself. -/
def Reader.step (reader : Reader) (c : Char) : Reader :=
  match reader.state with
  | .between => opened reader.pieces c
  | .word text =>
    if isWordChar c then { reader with state := .word (text ++ [c]) }
    else opened (reader.pieces ++ [.word text]) c
  | .userVariable name =>
    if isWordChar c ∨ c = '.' then { reader with state := .userVariable (name ++ [c]) }
    else opened (reader.pieces ++ [.userVariable name]) c
  | .quoted opening content =>
    if c = opening then { reader with state := .closing opening content }
    else { reader with state := .quoted opening (content ++ [c]) }
  | .closing opening content =>
    if c = opening then { reader with state := .quoted opening (content ++ [c]) }
    else opened (reader.pieces ++ [.quoted opening content]) c

def Reader.finish (reader : Reader) : Option (List Piece) :=
  match reader.state with
  | .between => some reader.pieces
  | .word text => some (reader.pieces ++ [.word text])
  | .userVariable name => some (reader.pieces ++ [.userVariable name])
  | .quoted _ _ => none
  | .closing opening content => some (reader.pieces ++ [.quoted opening content])

/-- The pieces of a script, unless it ends within quotes. -/
def pieces (script : List Char) : Option (List Piece) :=
  (script.foldl Reader.step .start).finish

/-! ## What a preview has to be read as -/

/-- Each statement with the semicolon that ends it. -/
def terminated (statements : List (List Piece)) : List Piece :=
  statements.flatMap (· ++ [.symbol ';'])

def separated (names : List (List Char)) : List Piece :=
  [Piece.symbol ','].intercalate (names.map fun name => [.userVariable name])

/-- A default as it is read by itself. -/
def valuePieces (dataType : List Char) : List Piece :=
  (pieces (mysqlRoutineDefaultValue dataType)).getD []

def setPieces (pair : RoutineInvocationParameter × List Char) : List Piece :=
  [.word "set".toList, .userVariable pair.2, .symbol '='] ++ valuePieces pair.1.dataType

/-- The name of the routine, which is what its parameters are looked up by. -/
def namePiece (routineName : List Char) : Piece :=
  if isSimpleName (Text.trim routineName) then .word (mysqlRoutineLookupName routineName)
  else .quoted backtick (mysqlRoutineLookupName routineName)

def callPieces (routineType : MysqlRoutineType) (routineName : List Char)
    (names : List (List Char)) : List Piece :=
  [.word routineType.command, namePiece routineName, .symbol '('] ++ separated names ++
    [.symbol ')']

/-- The statements of a preview with these variables, in their order. -/
def scriptPieces (routineType : MysqlRoutineType) (routineName : List Char)
    (parameters : List RoutineInvocationParameter) (names : List (List Char)) :
    List (List Piece) :=
  let outputs := (outputsOf (parameters.zip names)).map Prod.snd
  (inputsOf (parameters.zip names)).map setPieces ++
    [callPieces routineType routineName names] ++
    if routineType = .procedure ∧ ¬ outputs.isEmpty then [.word "select".toList :: separated outputs]
    else []

/-- Each parameter has a variable of its own: the script sets those of the inputs, calls
the routine with all of them in order, and selects those of the outputs. -/
def Previews (routineType : MysqlRoutineType) (routineName : List Char)
    (parameters : List RoutineInvocationParameter) (script : List Char) : Prop :=
  ∃ names : List (List Char), names.length = parameters.length ∧
    (∀ name ∈ names, name ≠ []) ∧ (names.map folded).Nodup ∧
    pieces script =
      some (terminated (scriptPieces routineType routineName parameters names))

/-! ## Reading in parts -/

/-- The text is these pieces, and complete with them. -/
def Reads (text : List Char) (list : List Piece) : Prop :=
  text.foldl Reader.step .start = { state := .between, pieces := list }

instance (text : List Char) (list : List Piece) : Decidable (Reads text list) :=
  inferInstanceAs (Decidable (_ = _))

def Reader.preceded (before : List Piece) (reader : Reader) : Reader :=
  { reader with pieces := before ++ reader.pieces }

theorem opened_preceded (before list : List Piece) (c : Char) :
    opened (before ++ list) c = (opened list c).preceded before := by
  simp only [opened, Reader.preceded]
  split_ifs <;> simp

theorem Reader.step_preceded (before : List Piece) (reader : Reader) (c : Char) :
    (reader.preceded before).step c = (reader.step c).preceded before := by
  obtain ⟨state, list⟩ := reader
  cases state <;>
    simp only [Reader.step, Reader.preceded, List.append_assoc, opened_preceded] <;>
    split_ifs <;> rfl

theorem Reader.foldl_preceded (before : List Piece) (reader : Reader) (text : List Char) :
    text.foldl Reader.step (reader.preceded before) =
      (text.foldl Reader.step reader).preceded before := by
  induction text generalizing reader with
  | nil => rfl
  | cons c text ih => rw [List.foldl_cons, List.foldl_cons, step_preceded, ih]

theorem Reads.append {first second : List Char} {before later : List Piece}
    (hfirst : Reads first before) (hsecond : Reads second later) :
    Reads (first ++ second) (before ++ later) := by
  have hstart : ({ state := .between, pieces := before } : Reader) =
      Reader.start.preceded before := by
    simp [Reader.preceded, Reader.start]
  unfold Reads at *
  rw [List.foldl_append, hfirst, hstart, Reader.foldl_preceded, hsecond]
  rfl

theorem Reads.pieces_eq {list : List Piece} (h : Reads text list) :
    pieces text = some list := by
  rw [pieces, h]
  rfl

theorem reads_nil : Reads [] [] := rfl

/-! ## Single pieces -/

/-- A character that ends a word or a variable and opens nothing itself. -/
def endsPiece (c : Char) : Bool :=
  isBlank c || c = ',' || c = ';' || c = '(' || c = ')' || c = '='

def endPieces (c : Char) : List Piece :=
  if isBlank c then [] else [.symbol c]

theorem endsPiece_cases (hc : endsPiece c = true) :
    c = ' ' ∨ c = '\n' ∨ c = ',' ∨ c = ';' ∨ c = '(' ∨ c = ')' ∨ c = '=' := by
  simpa [endsPiece, isBlank, or_assoc] using hc

theorem opened_end (hc : endsPiece c = true) (list : List Piece) :
    opened list c = { state := .between, pieces := list ++ endPieces c } := by
  rcases endsPiece_cases hc with rfl | rfl | rfl | rfl | rfl | rfl | rfl
  · exact congrArg _ (List.append_nil list).symm
  · exact congrArg _ (List.append_nil list).symm
  all_goals rfl

theorem not_goes_on (hc : endsPiece c = true) :
    isWordChar c = false ∧ ¬ (isWordChar c = true ∨ c = '.') ∧ c ≠ backtick := by
  rcases endsPiece_cases hc with rfl | rfl | rfl | rfl | rfl | rfl | rfl <;> decide

theorem foldl_variable (hname : ∀ c ∈ name, isWordChar c = true) (before : List Char) :
    name.foldl Reader.step { state := .userVariable before, pieces := [] } =
      { state := .userVariable (before ++ name), pieces := [] } := by
  induction name generalizing before with
  | nil => simp
  | cons c name ih =>
    obtain ⟨hc, hrest⟩ := List.forall_mem_cons.1 hname
    have hstep : Reader.step { state := .userVariable before, pieces := [] } c =
        { state := .userVariable (before ++ [c]), pieces := [] } := if_pos (Or.inl hc)
    rw [List.foldl_cons, hstep, ih hrest, List.append_assoc]
    rfl

theorem reads_variable (hname : ∀ c ∈ name, isWordChar c = true) (hc : endsPiece c = true) :
    Reads ('@' :: name ++ [c]) (.userVariable name :: endPieces c) := by
  have hstart : Reader.start.step '@' = { state := .userVariable [], pieces := [] } := rfl
  unfold Reads
  rw [List.cons_append, List.foldl_cons, hstart, List.foldl_append, foldl_variable hname]
  exact (if_neg (not_goes_on hc).2.1).trans (opened_end hc _)

theorem foldl_word (htext : ∀ c ∈ text, isWordChar c = true) (before : List Char) :
    text.foldl Reader.step { state := .word before, pieces := [] } =
      { state := .word (before ++ text), pieces := [] } := by
  induction text generalizing before with
  | nil => simp
  | cons c text ih =>
    obtain ⟨hc, hrest⟩ := List.forall_mem_cons.1 htext
    have hstep : Reader.step { state := .word before, pieces := [] } c =
        { state := .word (before ++ [c]), pieces := [] } := if_pos hc
    rw [List.foldl_cons, hstep, ih hrest, List.append_assoc]
    rfl

theorem opened_word (hc : isWordChar c = true) :
    opened [] c = { state := .word [c], pieces := [] } := by
  have hne {d : Char} (hd : isWordChar d = false) : c ≠ d := by
    rintro rfl
    rw [hc] at hd
    cases hd
  have hblank : isBlank c = false := by
    simp [isBlank, hne (show isWordChar ' ' = false by decide),
      hne (show isWordChar '\n' = false by decide)]
  have hquote : isQuote c = false := by
    simp [isQuote, hne (show isWordChar '\'' = false by decide),
      hne (show isWordChar '"' = false by decide), hne (show isWordChar backtick = false by decide)]
  simp [opened, hblank, hquote, hc, hne (show isWordChar '@' = false by decide)]

theorem reads_word (hne : text ≠ []) (htext : ∀ c ∈ text, isWordChar c = true)
    (hc : endsPiece c = true) : Reads (text ++ [c]) (.word text :: endPieces c) := by
  obtain ⟨first, rest, rfl⟩ := List.exists_cons_of_ne_nil hne
  obtain ⟨hfirst, hrest⟩ := List.forall_mem_cons.1 htext
  have hstart : Reader.start.step first = { state := .word [first], pieces := [] } :=
    opened_word hfirst
  have hlast : ¬ isWordChar c = true := by simp [(not_goes_on hc).1]
  unfold Reads
  rw [List.cons_append, List.foldl_cons, hstart, List.foldl_append, foldl_word hrest]
  exact (if_neg hlast).trans (opened_end hc _)

theorem foldl_doubled (name before : List Char) :
    (doubleBackticks name).foldl Reader.step { state := .quoted backtick before, pieces := [] } =
      { state := .quoted backtick (before ++ name), pieces := [] } := by
  induction name generalizing before with
  | nil => simp [doubleBackticks]
  | cons c name ih =>
    have hcons : doubleBackticks (c :: name) =
        (if c = backtick then [backtick, backtick] else [c]) ++ doubleBackticks name := rfl
    have hone : (if c = backtick then [backtick, backtick] else [c]).foldl Reader.step
        { state := .quoted backtick before, pieces := [] } =
          { state := .quoted backtick (before ++ [c]), pieces := [] } := by
      split_ifs with hc
      · rw [hc]
        simp [Reader.step]
      · simp [Reader.step, hc]
    rw [hcons, List.foldl_append, hone, ih, List.append_assoc]
    rfl

theorem reads_quoted (name : List Char) (hc : endsPiece c = true) :
    Reads (backtick :: doubleBackticks name ++ [backtick, c])
      (.quoted backtick name :: endPieces c) := by
  have hstart : Reader.start.step backtick = { state := .quoted backtick [], pieces := [] } := rfl
  have hclose : Reader.step { state := .quoted backtick name, pieces := [] } backtick =
      { state := .closing backtick name, pieces := [] } := by
    simp [Reader.step]
  unfold Reads
  rw [List.cons_append, List.foldl_cons, hstart, List.foldl_append, foldl_doubled, List.nil_append,
    List.foldl_cons, hclose]
  exact (if_neg (not_goes_on hc).2.2).trans (opened_end hc _)

/-! ## The name of the routine -/

theorem doubleBackticks_undouble {inner : List Char} (h : backticksDoubled inner = true) :
    doubleBackticks (undoubleBackticks inner) = inner := by
  fun_induction undoubleBackticks inner with
  | case1 => rfl
  | case2 c =>
    have hc : c ≠ backtick := by simpa [backticksDoubled] using h
    simp [doubleBackticks, hc]
  | case3 c next rest hboth ih =>
    rw [hboth.1, hboth.2, backticksDoubled, if_pos rfl, Bool.and_eq_true] at h
    have hcons : doubleBackticks (backtick :: undoubleBackticks rest) =
        backtick :: backtick :: doubleBackticks (undoubleBackticks rest) := rfl
    rw [hcons, ih h.2, hboth.1, hboth.2]
  | case4 c next rest hnot ih =>
    rw [backticksDoubled] at h
    split_ifs at h with hc
    · rw [Bool.and_eq_true, decide_eq_true_eq] at h
      exact absurd ⟨hc, h.1⟩ hnot
    · have hcons : doubleBackticks (c :: undoubleBackticks (next :: rest)) =
          c :: doubleBackticks (undoubleBackticks (next :: rest)) := by
        simp [doubleBackticks, hc]
      rw [hcons, ih h]

theorem backtickInner_eq_some {identifier inner : List Char}
    (h : backtickInner identifier = some inner) : identifier = backtick :: inner ++ [backtick] := by
  cases identifier with
  | nil => cases h
  | cons c rest =>
    rw [backtickInner] at h
    split_ifs at h with hquoted
    obtain ⟨rfl, hlast⟩ := hquoted
    rw [← Option.some.inj h, List.cons_append, List.dropLast_append_getLast? _ hlast]

theorem isSimpleName_word (h : isSimpleName name = true) :
    name ≠ [] ∧ (∀ c ∈ name, isWordChar c = true) ∧ backtickInner name = none := by
  cases name with
  | nil => cases h
  | cons first rest =>
    rw [isSimpleName, Bool.and_eq_true, List.all_eq_true] at h
    obtain ⟨hfirst, hrest⟩ := h
    have hword : isWordChar first = true := by
      rw [Bool.or_eq_true] at hfirst
      rcases hfirst with halpha | hunder
      · simp [isWordChar, Char.isAlphanum, halpha]
      · simp [isWordChar, of_decide_eq_true hunder]
    have hne : first ≠ backtick := by
      rintro rfl
      exact absurd hword (by decide)
    refine ⟨List.cons_ne_nil _ _, List.forall_mem_cons.2 ⟨hword, hrest⟩, ?_⟩
    rw [backtickInner, if_neg fun hquoted => hne hquoted.1]

theorem lookupName_unquoted (h : ¬ mysqlIdentifierIsBacktickQuoted (Text.trim name) = true) :
    mysqlRoutineLookupName name = Text.trim name := by
  unfold mysqlRoutineLookupName
  dsimp only
  split
  · exact if_neg h
  · rfl

theorem lookupName_quoted (h : mysqlIdentifierIsBacktickQuoted (Text.trim name) = true) :
    Text.trim name = backtick :: doubleBackticks (mysqlRoutineLookupName name) ++ [backtick] := by
  have hquoted := h
  rw [mysqlIdentifierIsBacktickQuoted] at hquoted
  split at hquoted
  · cases hquoted
  · rename_i inner hinner
    have hlookup : mysqlRoutineLookupName name = undoubleBackticks inner := by
      rw [mysqlRoutineLookupName, hinner]
      exact if_pos h
    rw [Bool.and_eq_true] at hquoted
    rw [hlookup, doubleBackticks_undouble hquoted.2, ← backtickInner_eq_some hinner]

theorem reads_routineName (routineName : List Char) :
    Reads (mysqlRoutineInvocationName routineName ++ ['('])
      [namePiece routineName, .symbol '('] := by
  have hend : endsPiece '(' = true := by decide
  rw [mysqlRoutineInvocationName, namePiece]
  by_cases hsimple : isSimpleName (Text.trim routineName) = true
  · obtain ⟨hne, hword, hinner⟩ := isSimpleName_word hsimple
    have hunquoted : ¬ mysqlIdentifierIsBacktickQuoted (Text.trim routineName) = true := by
      rw [mysqlIdentifierIsBacktickQuoted, hinner]
      exact Bool.false_ne_true
    rw [if_pos (Or.inl hsimple), if_pos hsimple, lookupName_unquoted hunquoted]
    exact reads_word hne hword hend
  · rw [if_neg hsimple]
    by_cases hquoted : mysqlIdentifierIsBacktickQuoted (Text.trim routineName) = true
    · rw [if_pos (Or.inr hquoted), lookupName_quoted hquoted, List.append_assoc]
      exact reads_quoted _ hend
    · rw [if_neg (not_or.2 ⟨hsimple, hquoted⟩), lookupName_unquoted hquoted, List.append_assoc]
      exact reads_quoted _ hend

/-! ## The statements -/

theorem defaultValue_cases (dataType : List Char) :
    mysqlRoutineDefaultValue dataType ∈
      ["0".toList, "''".toList, "CURRENT_DATE".toList, "CURRENT_TIME".toList,
        "CURRENT_TIMESTAMP".toList, "YEAR(CURRENT_DATE)".toList, "'\x7b\x7d'".toList,
        "X''".toList, "NULL".toList] := by
  rw [mysqlRoutineDefaultValue]
  split_ifs <;> simp

theorem reads_value (dataType : List Char) :
    Reads (mysqlRoutineDefaultValue dataType ++ [';']) (valuePieces dataType ++ [.symbol ';']) ∧
      ∀ name, Piece.userVariable name ∉ valuePieces dataType := by
  have hall : ∀ value ∈ ["0".toList, "''".toList, "CURRENT_DATE".toList, "CURRENT_TIME".toList,
      "CURRENT_TIMESTAMP".toList, "YEAR(CURRENT_DATE)".toList, "'\x7b\x7d'".toList,
      "X''".toList, "NULL".toList],
      (value ++ [';']).foldl Reader.step .start =
          { state := .between, pieces := (pieces value).getD [] ++ [.symbol ';'] } ∧
        ((pieces value).getD []).all (fun piece =>
          match piece with
          | .userVariable _ => false
          | _ => true) = true := by
    decide
  obtain ⟨hreads, hnone⟩ := hall _ (defaultValue_cases dataType)
  refine ⟨hreads, fun name hname => ?_⟩
  exact absurd (List.all_eq_true.1 hnone _ hname) Bool.false_ne_true

theorem reads_setStatement (parameter : RoutineInvocationParameter)
    (hname : ∀ c ∈ name, isWordChar c = true) :
    Reads (setStatement parameter ('@' :: name)) (setPieces (parameter, name) ++ [.symbol ';']) := by
  have hset : Reads "set ".toList [.word "set".toList] := by decide
  have hequals : Reads "= ".toList [.symbol '='] := by decide
  have hvariable := reads_variable hname (show endsPiece ' ' = true by decide)
  have hjoined := ((hset.append hvariable).append hequals).append (reads_value parameter.dataType).1
  have htext : setStatement parameter ('@' :: name) =
      "set ".toList ++ ('@' :: name ++ [' ']) ++ "= ".toList ++
        (mysqlRoutineDefaultValue parameter.dataType ++ [';']) := by
    simp [setStatement]
  rw [htext]
  exact hjoined

theorem reads_setup {texts : List (List Char)} {lists : List (List Piece)}
    (hreads : List.Forall₂ Reads texts lists) :
    Reads (['\n'].intercalate texts ++ ['\n', '\n']) lists.flatten := by
  have hnewline : Reads ['\n'] [] := by decide
  have hnewlines : Reads ['\n', '\n'] [] := by decide
  induction hreads with
  | nil => exact hnewlines
  | @cons text list texts lists hfirst hrest ih =>
    cases hrest with
    | nil => simpa using hfirst.append hnewlines
    | cons hnext hlater =>
      have hjoined := (hfirst.append hnewline).append ih
      rw [List.append_nil] at hjoined
      rw [List.intercalate_cons_cons, List.append_assoc, List.flatten_cons]
      simpa using hjoined

theorem separated_singleton (name : List Char) : separated [name] = [.userVariable name] := by
  simp [separated]

theorem separated_cons (name next : List Char) (rest : List (List Char)) :
    separated (name :: next :: rest) =
      .userVariable name :: .symbol ',' :: separated (next :: rest) := by
  rw [separated, List.map_cons, List.map_cons, List.intercalate_cons_cons]
  rfl

theorem reads_arguments {rest : List (List Char)}
    (hnames : ∀ word ∈ name :: rest, ∀ c ∈ word, isWordChar c = true) :
    Reads (argumentLines ((name :: rest).map ('@' :: ·))) (separated (name :: rest)) := by
  have hindent : Reads "    ".toList [] := by decide
  have hnewline : Reads ['\n'] [] := by decide
  induction rest generalizing name with
  | nil =>
    have hvariable := reads_variable (hnames name (by simp)) (show endsPiece '\n' = true by decide)
    simpa [argumentLines, separated_singleton, endPieces, isBlank] using hindent.append hvariable
  | cons next rest ih =>
    obtain ⟨hname, hlater⟩ := List.forall_mem_cons.1 hnames
    have hvariable := reads_variable hname (show endsPiece ',' = true by decide)
    have hline := ((hindent.append hvariable).append hnewline).append (ih hlater)
    have htext : argumentLines ((name :: next :: rest).map ('@' :: ·)) =
        "    ".toList ++ ('@' :: name ++ [',']) ++ ['\n'] ++
          argumentLines ((next :: rest).map ('@' :: ·)) := by
      simp [argumentLines]
    rw [htext, separated_cons]
    exact hline

theorem reads_outputs {rest : List (List Char)}
    (hnames : ∀ word ∈ name :: rest, ∀ c ∈ word, isWordChar c = true) :
    Reads ([',', ' '].intercalate ((name :: rest).map ('@' :: ·)) ++ [';'])
      (separated (name :: rest) ++ [.symbol ';']) := by
  have hspace : Reads [' '] [] := by decide
  induction rest generalizing name with
  | nil =>
    have hvariable := reads_variable (hnames name (by simp)) (show endsPiece ';' = true by decide)
    simpa [separated_singleton, endPieces, isBlank] using hvariable
  | cons next rest ih =>
    obtain ⟨hname, hlater⟩ := List.forall_mem_cons.1 hnames
    have hvariable := reads_variable hname (show endsPiece ',' = true by decide)
    have hjoined := (hvariable.append hspace).append (ih hlater)
    have htext : [',', ' '].intercalate ((name :: next :: rest).map ('@' :: ·)) ++ [';'] =
        '@' :: name ++ [','] ++ [' '] ++
          ([',', ' '].intercalate ((next :: rest).map ('@' :: ·)) ++ [';']) := by
      rw [List.map_cons, List.map_cons, List.intercalate_cons_cons]
      simp
    rw [htext, separated_cons]
    exact hjoined

theorem reads_command (routineType : MysqlRoutineType) :
    Reads (routineType.command ++ [' ']) [.word routineType.command] := by
  cases routineType <;> decide

theorem reads_call (routineType : MysqlRoutineType) (routineName : List Char)
    {names : List (List Char)} (hnames : ∀ word ∈ names, ∀ c ∈ word, isWordChar c = true) :
    Reads (renderRoutineInvocation routineType.command (mysqlRoutineInvocationName routineName)
        (names.map ('@' :: ·)))
      (callPieces routineType routineName names ++ [.symbol ';']) := by
  have hopen := (reads_command routineType).append (reads_routineName routineName)
  have hclose : Reads ");".toList [.symbol ')', .symbol ';'] := by decide
  cases names with
  | nil =>
    have hjoined := hopen.append hclose
    simpa [renderRoutineInvocation, callPieces, separated] using hjoined
  | cons name rest =>
    have hnewline : Reads ['\n'] [] := by decide
    have hjoined := ((hopen.append hnewline).append (reads_arguments hnames)).append hclose
    have htext : renderRoutineInvocation routineType.command
        (mysqlRoutineInvocationName routineName) ((name :: rest).map ('@' :: ·)) =
          routineType.command ++ [' '] ++ (mysqlRoutineInvocationName routineName ++ ['(']) ++
            ['\n'] ++ argumentLines ((name :: rest).map ('@' :: ·)) ++ ");".toList := by
      simp [renderRoutineInvocation]
    rw [htext]
    simpa [callPieces] using hjoined

/-! ## The variables -/

theorem isWordChar_digits (number : Nat) : ∀ c ∈ Nat.toDigits 10 number, isWordChar c = true := by
  intro c hc
  have hdigit := Decimal.allDigits_toDigits number c hc
  simp [isWordChar, Char.isAlphanum, hdigit]

theorem normalizedName_word (parameterName : List Char) (index : Nat) :
    normalizedName parameterName index ≠ [] ∧
      ∀ c ∈ normalizedName parameterName index, isWordChar c = true := by
  unfold normalizedName
  generalize (if Text.trim parameterName = [] then 'p' :: Nat.toDigits 10 index
    else parameterName) = named
  have hword : ∀ c ∈ named.map (fun c => if c.isAlphanum || c = '_' then c else '_'),
      isWordChar c = true := by
    intro c hc
    obtain ⟨d, -, rfl⟩ := List.mem_map.1 hc
    by_cases hd : (d.isAlphanum || d = '_') = true
    · rw [if_pos hd, isWordChar, hd, Bool.true_or]
    · rw [if_neg hd]
      decide
  dsimp only
  generalize named.map (fun c => if c.isAlphanum || c = '_' then c else '_') = normalized at *
  split
  next hfirst =>
    refine ⟨fun hnil => ?_, hword⟩
    rw [hnil] at hfirst
    cases hfirst
  next hfirst =>
    refine ⟨by simp, fun c hc => ?_⟩
    rcases List.mem_append.1 hc with hc | hc
    · have hplace : "p_".toList.all isWordChar = true := by decide
      exact List.all_eq_true.1 hplace c hc
    · exact isWordChar_digits index c hc

theorem spelled_word {numbered : List Char × Nat} (hne : numbered.1 ≠ [])
    (hword : ∀ c ∈ numbered.1, isWordChar c = true) :
    spelled numbered ≠ [] ∧ ∀ c ∈ spelled numbered, isWordChar c = true := by
  unfold spelled
  split
  · exact ⟨hne, hword⟩
  · refine ⟨by simp, fun c hc => ?_⟩
    rcases List.mem_append.1 hc with hc | hc
    · exact hword c hc
    · rcases List.mem_cons.1 hc with rfl | hc
      · decide
      · exact isWordChar_digits _ c hc

theorem variableNames_word {counts : List Char → Nat} {index : Nat}
    {parameters : List RoutineInvocationParameter} :
    ∀ name ∈ variableNames counts index parameters,
      name ≠ [] ∧ ∀ c ∈ name, isWordChar c = true := by
  have hnormalized : ∀ name ∈ normalizedNames index parameters,
      name ≠ [] ∧ ∀ c ∈ name, isWordChar c = true := by
    induction parameters generalizing index with
    | nil => simp [normalizedNames]
    | cons parameter rest ih =>
      exact List.forall_mem_cons.2 ⟨normalizedName_word parameter.name index, ih⟩
  intro name hname
  obtain ⟨numbered, hnumbered, rfl⟩ := List.mem_map.1 hname
  have hmem : numbered.1 ∈ normalizedNames index parameters := by
    rw [← Occurrences.map_fst_numbering counts (normalizedNames index parameters)]
    exact List.mem_map_of_mem hnumbered
  exact spelled_word (hnormalized _ hmem).1 (hnormalized _ hmem).2

theorem inputsOf_marked (parameters : List RoutineInvocationParameter) (names : List (List Char)) :
    inputsOf (parameters.zip (names.map ('@' :: ·))) =
      (inputsOf (parameters.zip names)).map (Prod.map id ('@' :: ·)) := by
  rw [List.zip_map_right, inputsOf, inputsOf, List.filter_map]
  rfl

theorem outputsOf_marked (parameters : List RoutineInvocationParameter) (names : List (List Char)) :
    outputsOf (parameters.zip (names.map ('@' :: ·))) =
      (outputsOf (parameters.zip names)).map (Prod.map id ('@' :: ·)) := by
  rw [List.zip_map_right, outputsOf, outputsOf, List.filter_map]
  rfl

/-- The parts of a preview, with the names of its variables. -/
structure Collected (parts : PreviewParts) (parameters : List RoutineInvocationParameter)
    (names : List (List Char)) : Prop where
  setup : parts.setupSql = (inputsOf (parameters.zip names)).map fun pair =>
    setStatement pair.1 ('@' :: pair.2)
  arguments : parts.argumentSql = names.map ('@' :: ·)
  outputs : parts.outputVariables =
    ((outputsOf (parameters.zip names)).map Prod.snd).map ('@' :: ·)

theorem collected_foldl (parameters : List RoutineInvocationParameter) :
    Collected (parameters.foldl PreviewParts.add .empty) parameters
      (variableNames (fun _ => 0) 1 parameters) := by
  obtain ⟨hsetup, harguments, houtputs⟩ := foldl_add .empty parameters
  have hlength := length_variableNames (fun _ => 0) 1 parameters
  have hzip : (parameters.zip ((variableNames (fun _ => 0) 1 parameters).map ('@' :: ·))).map
      Prod.snd = (variableNames (fun _ => 0) 1 parameters).map ('@' :: ·) :=
    List.map_snd_zip (by rw [List.length_map, hlength])
  constructor
  · rw [hsetup]
    show [] ++ (inputsOf (parameters.zip ((variableNames (fun _ => 0) 1 parameters).map _))).map _ = _
    rw [inputsOf_marked, List.nil_append, List.map_map]
    rfl
  · rw [harguments]
    show [] ++ (parameters.zip ((variableNames (fun _ => 0) 1 parameters).map _)).map _ = _
    rw [hzip, List.nil_append]
  · rw [houtputs]
    show [] ++ (outputsOf (parameters.zip ((variableNames (fun _ => 0) 1 parameters).map _))).map _ = _
    rw [outputsOf_marked, List.nil_append, List.map_map, List.map_map]
    rfl

theorem reads_sets {pairs : List (RoutineInvocationParameter × List Char)}
    (hpairs : ∀ pair ∈ pairs, ∀ c ∈ pair.2, isWordChar c = true) :
    let setupSql := pairs.map fun pair => setStatement pair.1 ('@' :: pair.2)
    Reads (if setupSql.isEmpty then [] else ['\n'].intercalate setupSql ++ ['\n', '\n'])
      (terminated (pairs.map setPieces)) := by
  intro setupSql
  by_cases hnone : pairs = []
  · simp [setupSql, hnone, terminated, reads_nil]
  · have hreads : List.Forall₂ Reads setupSql
        (pairs.map fun pair => setPieces pair ++ [.symbol ';']) := by
      rw [List.forall₂_map_left_iff, List.forall₂_map_right_iff, List.forall₂_same]
      exact fun pair hpair => reads_setStatement pair.1 (hpairs pair hpair)
    have hempty : ¬ setupSql.isEmpty = true := by
      simpa [setupSql, List.isEmpty_iff] using hnone
    rw [if_neg hempty, terminated, List.flatMap_map]
    exact reads_setup hreads

theorem reads_select {routineType : MysqlRoutineType} {names : List (List Char)}
    (hnames : ∀ word ∈ names, ∀ c ∈ word, isWordChar c = true) :
    Reads (if routineType = .procedure ∧ ¬ (names.map ('@' :: ·)).isEmpty then
        "\nselect ".toList ++ [',', ' '].intercalate (names.map ('@' :: ·)) ++ [';']
      else [])
      (terminated (if routineType = .procedure ∧ ¬ names.isEmpty then
        [.word "select".toList :: separated names] else [])) := by
  rw [List.isEmpty_map]
  split
  next houtputs =>
    have hselect : Reads "\nselect ".toList [.word "select".toList] := by decide
    cases names with
    | nil => exact absurd rfl houtputs.2
    | cons name rest =>
      have hjoined := hselect.append (reads_outputs hnames)
      rw [List.append_assoc]
      simpa [terminated] using hjoined
  next => exact reads_nil

/-- A preview is read as its statements, with the variables that the loop gave. -/
theorem reads_preview (routineType : MysqlRoutineType) (routineName : List Char)
    (parameters : List RoutineInvocationParameter) :
    Reads (renderRoutineInvocationPreview routineType routineName parameters)
      (terminated (scriptPieces routineType routineName parameters
        (variableNames (fun _ => 0) 1 parameters))) := by
  have hword := @variableNames_word (fun _ => 0) 1 parameters
  have hcollected := collected_foldl parameters
  unfold renderRoutineInvocationPreview
  generalize parameters.foldl PreviewParts.add .empty = parts at *
  generalize variableNames (fun _ => 0) 1 parameters = names at *
  dsimp only
  rw [hcollected.setup, hcollected.arguments, hcollected.outputs]
  have hzip : ∀ pair ∈ parameters.zip names, ∀ c ∈ pair.2, isWordChar c = true := by
    intro pair hpair
    exact (hword pair.2 (List.of_mem_zip hpair).2).2
  have hcall := reads_call routineType routineName fun name hname => (hword name hname).2
  have hinputs : ∀ pair ∈ inputsOf (parameters.zip names), ∀ c ∈ pair.2, isWordChar c = true :=
    fun pair hpair => hzip pair (List.mem_of_mem_filter hpair)
  have houtputs : ∀ name ∈ (outputsOf (parameters.zip names)).map Prod.snd,
      ∀ c ∈ name, isWordChar c = true := by
    intro name hname
    obtain ⟨pair, hpair, rfl⟩ := List.mem_map.1 hname
    exact hzip pair (List.mem_of_mem_filter hpair)
  have hsets := reads_sets hinputs
  have hselect := @reads_select routineType _ houtputs
  have hjoined := (hsets.append hcall).append hselect
  simpa only [terminated, scriptPieces, List.flatMap_append, List.flatMap_cons, List.flatMap_nil,
    List.append_nil] using hjoined

/-! ## The variables of a script -/

/-- The user variables among the pieces, in their order. -/
def userVariables (list : List Piece) : List (List Char) :=
  list.filterMap fun piece =>
    match piece with
    | .userVariable name => some name
    | _ => none

theorem userVariables_append (first second : List Piece) :
    userVariables (first ++ second) = userVariables first ++ userVariables second :=
  List.filterMap_append

theorem userVariables_separated (names : List (List Char)) :
    userVariables (separated names) = names := by
  induction names with
  | nil => rfl
  | cons name rest ih =>
    cases rest with
    | nil => rw [separated_singleton]; rfl
    | cons next rest =>
      rw [separated_cons]
      exact congrArg (name :: ·) ih

theorem userVariables_value (dataType : List Char) : userVariables (valuePieces dataType) = [] := by
  apply List.filterMap_eq_nil_iff.2
  intro piece hpiece
  cases piece with
  | userVariable name => exact absurd hpiece ((reads_value dataType).2 name)
  | word | quoted | symbol => rfl

theorem userVariables_set (pair : RoutineInvocationParameter × List Char) :
    userVariables (setPieces pair) = [pair.2] := by
  rw [setPieces, userVariables_append, userVariables_value, List.append_nil]
  rfl

theorem userVariables_call (routineType : MysqlRoutineType) (routineName : List Char)
    (names : List (List Char)) : userVariables (callPieces routineType routineName names) = names := by
  have hname : userVariables [.word routineType.command, namePiece routineName, .symbol '('] = [] := by
    rw [namePiece]
    split <;> rfl
  rw [callPieces, userVariables_append, userVariables_append, hname, userVariables_separated]
  exact List.append_nil names

/-- The variables of the inputs come first, and then all of them. -/
theorem userVariables_script (routineType : MysqlRoutineType) (routineName : List Char)
    (parameters : List RoutineInvocationParameter) (names : List (List Char)) :
    ∃ later, userVariables (terminated (scriptPieces routineType routineName parameters names)) =
      (inputsOf (parameters.zip names)).map Prod.snd ++ names ++ later := by
  have hsets : userVariables (terminated ((inputsOf (parameters.zip names)).map setPieces)) =
      (inputsOf (parameters.zip names)).map Prod.snd := by
    induction inputsOf (parameters.zip names) with
    | nil => rfl
    | cons pair pairs ih =>
      have hcons : terminated ((pair :: pairs).map setPieces) =
          setPieces pair ++ ([.symbol ';'] ++ terminated (pairs.map setPieces)) :=
        List.append_assoc _ _ _
      rw [hcons, userVariables_append, userVariables_append, userVariables_set, ih]
      rfl
  have hcall : userVariables (terminated [callPieces routineType routineName names]) = names := by
    rw [terminated, List.flatMap_singleton, userVariables_append, userVariables_call]
    exact List.append_nil names
  unfold scriptPieces
  dsimp only
  generalize (if routineType = .procedure ∧
      ¬ ((outputsOf (parameters.zip names)).map Prod.snd).isEmpty = true then
      [Piece.word "select".toList :: separated ((outputsOf (parameters.zip names)).map Prod.snd)]
    else []) = query
  refine ⟨userVariables (terminated query), ?_⟩
  rw [terminated] at hsets hcall
  rw [terminated, List.flatMap_append, List.flatMap_append, userVariables_append,
    userVariables_append, hsets, hcall, terminated]

theorem length_inputsOf {parameters : List RoutineInvocationParameter} {names : List (List Char)}
    (hlength : names.length = parameters.length) :
    (inputsOf (parameters.zip names)).length =
      (parameters.filter fun parameter => routineParameterIsInput parameter.mode).length := by
  have hfst : (inputsOf (parameters.zip names)).map Prod.fst =
      parameters.filter fun parameter => routineParameterIsInput parameter.mode := by
    conv_rhs => rw [← @List.map_fst_zip _ _ parameters names (by omega), List.filter_map]
    rfl
  rw [← hfst, List.length_map]

theorem scriptPieces_inj {routineType : MysqlRoutineType} {routineName : List Char}
    {parameters : List RoutineInvocationParameter} {first second : List (List Char)}
    (hfirst : first.length = parameters.length) (hsecond : second.length = parameters.length)
    (h : terminated (scriptPieces routineType routineName parameters first) =
      terminated (scriptPieces routineType routineName parameters second)) : first = second := by
  obtain ⟨rest, hrest⟩ := userVariables_script routineType routineName parameters first
  obtain ⟨later, hlater⟩ := userVariables_script routineType routineName parameters second
  rw [h, hlater, List.append_assoc, List.append_assoc] at hrest
  have hinputs : ((inputsOf (parameters.zip second)).map Prod.snd).length =
      ((inputsOf (parameters.zip first)).map Prod.snd).length := by
    rw [List.length_map, List.length_map, length_inputsOf hfirst, length_inputsOf hsecond]
  exact (List.append_inj (List.append_inj hrest hinputs).2 (by omega)).1.symm

/-- Every parameter has a variable of its own exactly if the names that are left of the
parameters are separate. -/
theorem preview_iff_separate (routineType : MysqlRoutineType) (routineName : List Char)
    (parameters : List RoutineInvocationParameter) :
    Previews routineType routineName parameters
        (renderRoutineInvocationPreview routineType routineName parameters) ↔
      Separate (normalizedNames 1 parameters) := by
  have hlength := length_variableNames (fun _ => 0) 1 parameters
  have hpieces := (reads_preview routineType routineName parameters).pieces_eq
  rw [← nodup_spelled_iff]
  constructor
  · rintro ⟨names, hnames, -, hnodup, hread⟩
    rw [hpieces] at hread
    rwa [← scriptPieces_inj hlength hnames (Option.some.inj hread)] at hnodup
  · intro hnodup
    exact ⟨_, hlength, fun name hname => (variableNames_word name hname).1, hnodup, hpieces⟩

def collidingParameters : List RoutineInvocationParameter :=
  [{ name := "a b".toList, mode := "IN".toList, dataType := "INT".toList },
    { name := "a-b".toList, mode := "IN".toList, dataType := "INT".toList },
    { name := "a_b_2".toList, mode := "IN".toList, dataType := "INT".toList }]

/-- Three names of which two are left with the variable `a_b_2`. -/
theorem collidingNames_preview :
    (collidingParameters.map RoutineInvocationParameter.name).Nodup ∧
      renderRoutineInvocationPreview .procedure "p".toList collidingParameters =
        ("set @a_b = 0;\nset @a_b_2 = 0;\nset @a_b_2 = 0;\n\n" ++
          "call p(\n    @a_b,\n    @a_b_2,\n    @a_b_2\n);").toList ∧
      ¬ Previews .procedure "p".toList collidingParameters
        (renderRoutineInvocationPreview .procedure "p".toList collidingParameters) := by
  refine ⟨by decide, by decide +kernel, ?_⟩
  rintro ⟨names, hlength, -, hnodup, hread⟩
  have hpieces := (reads_preview .procedure "p".toList collidingParameters).pieces_eq
  rw [hpieces] at hread
  have hnames := scriptPieces_inj (length_variableNames (fun _ => 0) 1 collidingParameters) hlength
    (Option.some.inj hread)
  rw [← hnames] at hnodup
  exact absurd hnodup (by decide +kernel)

end Chat2DB.MySql.Routine
