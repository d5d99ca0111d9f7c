import Chat2DB.Base.Decimal
import Chat2DB.Base.Occurrences
import Chat2DB.MySql.Scripts

/-! # Previews of routine calls

A script that calls a routine: a session variable for each parameter, the variables of
the inputs set to a default, the call, and a query of the outputs. The names of the
variables are the names of the parameters without the characters that a variable
cannot have, and a number behind the name where it was given before.
-/

namespace Chat2DB.MySql.Routine

inductive MysqlRoutineType where
  | function
  | procedure
deriving DecidableEq

def MysqlRoutineType.command : MysqlRoutineType → List Char
  | .function => "select".toList
  | .procedure => "call".toList

structure RoutineInvocationParameter where
  name : List Char
  mode : List Char
  dataType : List Char
deriving DecidableEq

def eqIgnoreAsciiCase (left right : List Char) : Bool :=
  left.map Char.toLower = right.map Char.toLower

def routineParameterIsInput (mode : List Char) : Bool :=
  eqIgnoreAsciiCase mode "IN".toList || eqIgnoreAsciiCase mode "INOUT".toList

def routineParameterIsOutput (mode : List Char) : Bool :=
  eqIgnoreAsciiCase mode "OUT".toList || eqIgnoreAsciiCase mode "INOUT".toList

def mysqlRoutineDefaultValue (dataType : List Char) : List Char :=
  let name := String.ofList ((Text.trim dataType).map Char.toUpper)
  if name ∈ ["TINYINT", "SMALLINT", "MEDIUMINT", "INT", "INTEGER", "BIGINT", "DECIMAL", "NUMERIC",
      "FLOAT", "DOUBLE", "REAL", "BIT", "BOOL", "BOOLEAN"] then "0".toList
  else if name ∈ ["CHAR", "VARCHAR", "TINYTEXT", "TEXT", "MEDIUMTEXT", "LONGTEXT", "ENUM", "SET"] then
    "''".toList
  else if name = "DATE" then "CURRENT_DATE".toList
  else if name = "TIME" then "CURRENT_TIME".toList
  else if name ∈ ["DATETIME", "TIMESTAMP"] then "CURRENT_TIMESTAMP".toList
  else if name = "YEAR" then "YEAR(CURRENT_DATE)".toList
  else if name = "JSON" then "'\x7b\x7d'".toList
  else if name ∈ ["BINARY", "VARBINARY", "TINYBLOB", "BLOB", "MEDIUMBLOB", "LONGBLOB"] then
    "X''".toList
  else "NULL".toList

/-! ## The name of the routine -/

/-- What stands between two backticks. -/
def backtickInner : List Char → Option (List Char)
  | [] => none
  | c :: rest =>
    if c = backtick ∧ rest.getLast? = some backtick then some rest.dropLast else none

/-- Each backtick is followed by another one, which is skipped with it. -/
def backticksDoubled : List Char → Bool
  | [] => true
  | [c] => c ≠ backtick
  | c :: next :: rest =>
    if c = backtick then next = backtick && backticksDoubled rest
    else backticksDoubled (next :: rest)

def mysqlIdentifierIsBacktickQuoted (identifier : List Char) : Bool :=
  match backtickInner identifier with
  | none => false
  | some inner => !inner.isEmpty && backticksDoubled inner

def isSimpleName : List Char → Bool
  | [] => false
  | first :: rest =>
    (first.isAlpha || first = '_') && rest.all fun c => c.isAlphanum || c = '_' || c = '$'

def doubleBackticks (name : List Char) : List Char :=
  name.flatMap fun c => if c = backtick then [backtick, backtick] else [c]

def mysqlRoutineInvocationName (name : List Char) : List Char :=
  let trimmed := Text.trim name
  if isSimpleName trimmed ∨ mysqlIdentifierIsBacktickQuoted trimmed then trimmed
  else backtick :: doubleBackticks trimmed ++ [backtick]

/-- `replace` of two backticks by one. -/
def undoubleBackticks : List Char → List Char
  | [] => []
  | [c] => [c]
  | c :: next :: rest =>
    if c = backtick ∧ next = backtick then backtick :: undoubleBackticks rest
    else c :: undoubleBackticks (next :: rest)

def mysqlRoutineLookupName (name : List Char) : List Char :=
  let trimmed := Text.trim name
  match backtickInner trimmed with
  | some inner =>
    if mysqlIdentifierIsBacktickQuoted trimmed then undoubleBackticks inner else trimmed
  | none => trimmed

/-! ## The variables -/

/-- The name that is left of a parameter's name, or of its place `index` if that is no name. -/
def normalizedName (parameterName : List Char) (index : Nat) : List Char :=
  let named := if Text.trim parameterName = [] then 'p' :: Nat.toDigits 10 index else parameterName
  let normalized := named.map fun c => if c.isAlphanum || c = '_' then c else '_'
  if normalized.head?.any Char.isAlpha then normalized else "p_".toList ++ Nat.toDigits 10 index

/-- The name of a variable from its numbered name. -/
def spelled (numbered : List Char × Nat) : List Char :=
  if numbered.2 = 1 then numbered.1 else numbered.1 ++ '_' :: Nat.toDigits 10 numbered.2

def mysqlRoutineVariableName (parameterName : List Char) (index : Nat)
    (variableNameCounts : List Char → Nat) : List Char × (List Char → Nat) :=
  let normalized := normalizedName parameterName index
  let count := variableNameCounts normalized + 1
  (spelled (normalized, count), Function.update variableNameCounts normalized count)

/-! ## The script -/

structure PreviewParts where
  setupSql : List (List Char)
  argumentSql : List (List Char)
  outputVariables : List (List Char)
  variableNameCounts : List Char → Nat

def PreviewParts.empty : PreviewParts where
  setupSql := []
  argumentSql := []
  outputVariables := []
  variableNameCounts := fun _ => 0

/-- The statement that sets a variable to the default of its type. -/
def setStatement (parameter : RoutineInvocationParameter) (sessionVariable : List Char) : List Char :=
  "set ".toList ++ sessionVariable ++ " = ".toList ++ mysqlRoutineDefaultValue parameter.dataType ++ [';']

def PreviewParts.add (parts : PreviewParts) (parameter : RoutineInvocationParameter) :
    PreviewParts :=
  let named := mysqlRoutineVariableName parameter.name (parts.argumentSql.length + 1)
    parts.variableNameCounts
  let sessionVariable := '@' :: named.1
  { setupSql :=
      if routineParameterIsInput parameter.mode then
        parts.setupSql ++ [setStatement parameter sessionVariable]
      else parts.setupSql
    argumentSql := parts.argumentSql ++ [sessionVariable]
    outputVariables :=
      if routineParameterIsOutput parameter.mode then parts.outputVariables ++ [sessionVariable]
      else parts.outputVariables
    variableNameCounts := named.2 }

/-- Each argument on a line of its own, with a comma behind it unless it is the last. -/
def argumentLines : List (List Char) → List Char
  | [] => []
  | [argument] => "    ".toList ++ argument ++ ['\n']
  | argument :: rest => "    ".toList ++ argument ++ [',', '\n'] ++ argumentLines rest

def renderRoutineInvocation (command routineName : List Char) (arguments : List (List Char)) :
    List Char :=
  if arguments.isEmpty then command ++ ' ' :: routineName ++ "();".toList
  else command ++ ' ' :: routineName ++ "(\n".toList ++ argumentLines arguments ++ ");".toList

def renderRoutineInvocationPreview (routineType : MysqlRoutineType) (routineName : List Char)
    (parameters : List RoutineInvocationParameter) : List Char :=
  let parts := parameters.foldl PreviewParts.add .empty
  let setup :=
    if parts.setupSql.isEmpty then [] else ['\n'].intercalate parts.setupSql ++ ['\n', '\n']
  let call := renderRoutineInvocation routineType.command (mysqlRoutineInvocationName routineName)
    parts.argumentSql
  let query :=
    if routineType = .procedure ∧ ¬ parts.outputVariables.isEmpty then
      "\nselect ".toList ++ [',', ' '].intercalate parts.outputVariables ++ [';']
    else []
  setup ++ call ++ query

/-! ## What the loop collects -/

/-- What is left of the names of the parameters from the place `index` on. -/
def normalizedNames (index : Nat) : List RoutineInvocationParameter → List (List Char)
  | [] => []
  | parameter :: rest =>
    normalizedName parameter.name index :: normalizedNames (index + 1) rest

def variableNames (variableNameCounts : List Char → Nat) (index : Nat)
    (parameters : List RoutineInvocationParameter) : List (List Char) :=
  (Occurrences.numbering variableNameCounts (normalizedNames index parameters)).map spelled

theorem length_variableNames (variableNameCounts : List Char → Nat) (index : Nat)
    (parameters : List RoutineInvocationParameter) :
    (variableNames variableNameCounts index parameters).length = parameters.length := by
  have hnames : (normalizedNames index parameters).length = parameters.length := by
    induction parameters generalizing index with
    | nil => rfl
    | cons parameter rest ih => rw [normalizedNames, List.length_cons, ih, List.length_cons]
  have hfst := congrArg List.length
    (Occurrences.map_fst_numbering variableNameCounts (normalizedNames index parameters))
  rw [variableNames, List.length_map, ← hnames, ← hfst, List.length_map]

/-- The parameters with their variables that are inputs. -/
def inputsOf (named : List (RoutineInvocationParameter × List Char)) :
    List (RoutineInvocationParameter × List Char) :=
  named.filter fun pair => routineParameterIsInput pair.1.mode

def outputsOf (named : List (RoutineInvocationParameter × List Char)) :
    List (RoutineInvocationParameter × List Char) :=
  named.filter fun pair => routineParameterIsOutput pair.1.mode

/-- What one parameter contributes, and then the rest of them. -/
theorem foldl_add (parts : PreviewParts) (parameters : List RoutineInvocationParameter) :
    let names := variableNames parts.variableNameCounts (parts.argumentSql.length + 1) parameters
    let named := parameters.zip (names.map ('@' :: ·))
    let collected := parameters.foldl PreviewParts.add parts
    collected.setupSql =
        parts.setupSql ++ (inputsOf named).map (fun pair => setStatement pair.1 pair.2) ∧
      collected.argumentSql = parts.argumentSql ++ named.map Prod.snd ∧
      collected.outputVariables = parts.outputVariables ++ (outputsOf named).map Prod.snd := by
  induction parameters generalizing parts with
  | nil => simp [inputsOf, outputsOf]
  | cons parameter rest ih =>
    obtain ⟨hsetup, harguments, houtputs⟩ := ih (parts.add parameter)
    have hlength : (parts.add parameter).argumentSql.length = parts.argumentSql.length + 1 := by
      simp [PreviewParts.add]
    rw [hlength] at hsetup harguments houtputs
    dsimp only at *
    rw [List.foldl_cons, hsetup, harguments, houtputs]
    refine ⟨?_, ?_, ?_⟩
    · by_cases hinput : routineParameterIsInput parameter.mode
      · simp [PreviewParts.add, inputsOf, variableNames, normalizedNames, Occurrences.numbering,
          mysqlRoutineVariableName, hinput]
      · simp [PreviewParts.add, inputsOf, variableNames, normalizedNames, Occurrences.numbering,
          mysqlRoutineVariableName, hinput]
    · simp [PreviewParts.add, variableNames, normalizedNames, Occurrences.numbering,
        mysqlRoutineVariableName]
    · by_cases houtput : routineParameterIsOutput parameter.mode
      · simp [PreviewParts.add, outputsOf, variableNames, normalizedNames, Occurrences.numbering,
          mysqlRoutineVariableName, houtput]
      · simp [PreviewParts.add, outputsOf, variableNames, normalizedNames, Occurrences.numbering,
          mysqlRoutineVariableName, houtput]

/-! ## When the variables are distinct -/

/-- A name as MySQL compares names of user variables. -/
def folded (name : List Char) : List Char := name.map Char.toLower

/-- The normalised names do not differ in case alone, and none is another one with the
number that is put behind one of its occurrences. -/
structure Separate (names : List (List Char)) : Prop where
  same_case : ∀ first ∈ names, ∀ second ∈ names, folded first = folded second → first = second
  suffixes : ∀ first ∈ names, ∀ second ∈ names, ∀ number, 2 ≤ number →
    number ≤ names.count second → folded first ≠ folded (spelled (second, number))

theorem spelled_one (name : List Char) : spelled (name, 1) = name := by
  simp [spelled]

theorem folded_spelled {name : List Char} {number : Nat} (hnumber : number ≠ 1) :
    folded (spelled (name, number)) = folded name ++ '_' :: Nat.toDigits 10 number := by
  have hdigits : (Nat.toDigits 10 number).map Char.toLower = Nat.toDigits 10 number := by
    apply (List.map_congr_left _).trans (List.map_id _)
    intro c hc
    have hplain : ∀ digit < 10, (Nat.digitChar digit).toLower = Nat.digitChar digit := by decide
    obtain ⟨hsmall, hchar⟩ := Decimal.AllDigits.digit (Decimal.allDigits_toDigits number c hc)
    rw [hchar]
    exact hplain _ hsmall
  rw [spelled, if_neg hnumber, folded, List.map_append, List.map_cons, hdigits]
  rfl

theorem append_number_inj {first second : List Char} {m n : Nat}
    (h : first ++ '_' :: Nat.toDigits 10 m = second ++ '_' :: Nat.toDigits 10 n) :
    first = second ∧ m = n := by
  have hplain (number : Nat) : ∀ c ∈ (Nat.toDigits 10 number).reverse, decide (c ≠ '_') = true := by
    intro c hc
    apply decide_eq_true
    rintro rfl
    exact absurd (Decimal.allDigits_toDigits number _ (List.mem_reverse.1 hc)) (by decide)
  have hreverse := congrArg List.reverse h
  simp only [List.reverse_append, List.reverse_cons, List.append_assoc, List.cons_append,
    List.nil_append] at hreverse
  have hnumber := congrArg (List.takeWhile fun c => decide (c ≠ '_')) hreverse
  have hname := congrArg (List.dropWhile fun c => decide (c ≠ '_')) hreverse
  rw [List.takeWhile_append_of_pos (hplain m), List.takeWhile_append_of_pos (hplain n)] at hnumber
  rw [List.dropWhile_append_of_pos (hplain m), List.dropWhile_append_of_pos (hplain n)] at hname
  have hdigits : Nat.toDigits 10 m = Nat.toDigits 10 n := by simpa using hnumber
  refine ⟨by simpa using hname, ?_⟩
  rw [← Decimal.value_toDigits m, hdigits, Decimal.value_toDigits]

/-- Variables are distinct exactly if the names are separate. -/
theorem nodup_spelled_iff (names : List (List Char)) :
    (((Occurrences.numbering (fun _ => 0) names).map spelled).map folded).Nodup ↔
      Separate names := by
  have hmem (name : List Char) (number : Nat) :
      (name, number) ∈ Occurrences.numbering (fun _ => 0) names ↔
        0 < number ∧ number ≤ names.count name := by
    rw [Occurrences.mem_numbering, Nat.zero_add]
  have hfirst {name : List Char} (hname : name ∈ names) :
      (name, 1) ∈ Occurrences.numbering (fun _ => 0) names :=
    (hmem name 1).2 ⟨Nat.one_pos, List.count_pos_iff.2 hname⟩
  rw [List.map_map, List.nodup_map_iff_inj_on (Occurrences.nodup_numbering _ _)]
  constructor
  · intro h
    constructor
    · intro first hf second hs hsame
      have hpair := h (first, 1) (hfirst hf) (second, 1) (hfirst hs)
        (by simpa [spelled_one] using hsame)
      exact (Prod.mk.inj hpair).1
    · intro first hf second hs number hnumber hcount hsame
      have hpair := h (first, 1) (hfirst hf) (second, number) ((hmem _ _).2 ⟨by omega, hcount⟩)
        (by simpa [spelled_one] using hsame)
      have := (Prod.mk.inj hpair).2
      omega
  · rintro hseparate ⟨first, m⟩ hf ⟨second, n⟩ hs hsame
    obtain ⟨hm, hmcount⟩ := (hmem _ _).1 hf
    obtain ⟨hn, hncount⟩ := (hmem _ _).1 hs
    have hfmem : first ∈ names := List.count_pos_iff.1 (by omega)
    have hsmem : second ∈ names := List.count_pos_iff.1 (by omega)
    rw [Function.comp_apply, Function.comp_apply] at hsame
    by_cases hm1 : m = 1
    · by_cases hn1 : n = 1
      · rw [hm1, hn1, spelled_one, spelled_one] at hsame
        rw [hm1, hn1, hseparate.same_case first hfmem second hsmem hsame]
      · rw [hm1, spelled_one] at hsame
        exact absurd hsame (hseparate.suffixes first hfmem second hsmem n (by omega) hncount)
    · by_cases hn1 : n = 1
      · rw [hn1, spelled_one] at hsame
        exact absurd hsame.symm (hseparate.suffixes second hsmem first hfmem m (by omega) hmcount)
      · rw [folded_spelled hm1, folded_spelled hn1] at hsame
        obtain ⟨hname, hnumber⟩ := append_number_inj hsame
        rw [hnumber, hseparate.same_case first hfmem second hsmem hname]

end Chat2DB.MySql.Routine
