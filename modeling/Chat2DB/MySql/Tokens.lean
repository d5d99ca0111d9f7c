import Mathlib
import Chat2DB.MySql.Scripts

/-! # The tokens of a statement

MySQL reads a statement character by character. Read here are words, names in backticks,
strings, bytes and bits, numbers and the symbols of simple statements; a text with
comments, semicolons or anything else is not read at all. Whether a backslash escapes
depends on the SQL mode.
-/

namespace Chat2DB.MySql

variable {text between : List Char} {list before joint : List Token}

inductive Token where
  | word (text : List Char)
  | name (text : List Char)
  | text (content : List Char)
  | bytes (content : List UInt8)
  | bits (content : List Bool)
  | number (text : List Char)
  | symbol (c : Char)
deriving DecidableEq

/-! ## The reader -/

/-- What the characters since the last token are the beginning of. -/
inductive Reading where
  | between
  | word (text : List Char)
  | minus
  | dot
  | number (text : List Char)
  | exponent (text : List Char)
  | scaled (text : List Char)
  | hexNumber (digits : List Nat)
  | name (text : List Char)
  | nameEnd (text : List Char)
  | qualifier (text : List Char)
  | text (content : List Char)
  | escape (content : List Char)
  | textEnd (content : List Char)
  | hexText (digits : List Nat)
  | bitText (content : List Bool)
  | closed (token : Token)
  | stuck
deriving DecidableEq

def hexDigit (c : Char) : Option Nat :=
  if c.isDigit then some (c.toNat - '0'.toNat)
  else if 'A' ≤ c ∧ c ≤ 'F' then some (c.toNat - 'A'.toNat + 10)
  else if 'a' ≤ c ∧ c ≤ 'f' then some (c.toNat - 'a'.toNat + 10)
  else none

def hexPairs : List Nat → Option (List UInt8)
  | [] => some []
  | [_] => none
  | high :: low :: rest => (hexPairs rest).map (UInt8.ofNat (high * 16 + low) :: ·)

/-- An odd number of digits is preceded by a zero. -/
def hexBytes (digits : List Nat) : Option (List UInt8) :=
  if digits.length % 2 = 0 then hexPairs digits else hexPairs (0 :: digits)

/-- The characters that a backslash and this one stand for. -/
def unescaped (c : Char) : List Char :=
  match c with
  | '0' => [Char.ofNat 0]
  | 'b' => [Char.ofNat 0x08]
  | 'n' => ['\n']
  | 'r' => ['\r']
  | 't' => ['\t']
  | 'Z' => [Char.ofNat 0x1A]
  | '%' => ['\\', '%']
  | '_' => ['\\', '_']
  | other => [other]

def isWordStart (c : Char) : Bool := c.isAlpha || c = '_'

def isWordChar (c : Char) : Bool := c.isAlphanum || c = '_' || c = '$'

def isSymbol (c : Char) : Bool := c = '(' || c = ')' || c = ',' || c = '=' || c = '+'

/-- What a character opens, after the token before it is complete. -/
def opening (c : Char) : Reading :=
  if c = ' ' ∨ isSymbol c then .between
  else if isWordStart c then .word [c]
  else if c.isDigit then .number [c]
  else if c = backtick then .name []
  else if c = '\'' then .text []
  else if c = '-' then .minus
  else if c = '.' then .dot
  else .stuck

/-- What a word and a quote open. -/
def prefixed (text : List Char) : Reading :=
  if text = ['X'] ∨ text = ['x'] then .hexText []
  else if text = ['B'] ∨ text = ['b'] then .bitText []
  else .stuck

section Reader

open Reading (closed hexText stuck)

-- whether a backslash escapes the next character of a string
variable (escapes : Bool)

/-- What the characters of the token are with one more, unless it is not one of them. -/
def continued : Reading → Char → Option Reading
  | .between, _ => none
  | .closed _, c => if c = '\'' then some .stuck else none
  | .word text, c =>
    if isWordChar c then some (.word (text ++ [c]))
    else if c = '\'' then some (prefixed text)
    else if c = '.' then some .stuck
    else none
  | .minus, c => if c = '-' then some .stuck else none
  | .dot, c => some (if c.isDigit then .number ['.', c] else .stuck)
  | .number text, c =>
    if c.isDigit then some (.number (text ++ [c]))
    else if c = '.' then some (if '.' ∈ text then .stuck else .number (text ++ [c]))
    else if c = 'e' ∨ c = 'E' then some (.exponent (text ++ [c]))
    else if c = 'x' ∧ text = ['0'] then some (.hexNumber [])
    else if isWordChar c then some .stuck
    else none
  | .exponent text, c =>
    if c.isDigit then some (.scaled (text ++ [c]))
    else if (c = '+' ∨ c = '-') ∧ text.getLast?.any (fun last => last = 'e' || last = 'E') then
      some (.exponent (text ++ [c]))
    else some .stuck
  | .scaled text, c =>
    if c.isDigit then some (.scaled (text ++ [c]))
    else if isWordChar c ∨ c = '.' then some .stuck
    else none
  | .hexNumber digits, c =>
    match hexDigit c with
    | some digit => some (.hexNumber (digits ++ [digit]))
    | none => if isWordChar c ∨ c = '.' then some .stuck else none
  | .name text, c => some (if c = backtick then .nameEnd text else .name (text ++ [c]))
  | .nameEnd text, c =>
    if c = backtick then some (.name (text ++ [c]))
    else if c = '.' then some (.qualifier text)
    else none
  | .qualifier _, c => if c = backtick then none else some .stuck
  | .text content, c =>
    some (if c = '\\' ∧ escapes then .escape content
      else if c = '\'' then .textEnd content
      else .text (content ++ [c]))
  | .escape content, c => some (.text (content ++ unescaped c))
  | .textEnd content, c => if c = '\'' then some (.text (content ++ [c])) else none
  | .hexText digits, c =>
    some (if c = '\'' then ((hexPairs digits).map fun content => closed (.bytes content)).getD stuck
      else ((hexDigit c).map fun digit => hexText (digits ++ [digit])).getD stuck)
  | .bitText content, c =>
    some (if c = '\'' then .closed (.bits content)
      else if c = '0' then .bitText (content ++ [false])
      else if c = '1' then .bitText (content ++ [true])
      else .stuck)
  | .stuck, _ => some .stuck

/-- The tokens that the characters are, when the statement or the token ends here. A `0x`
without digits is a word. -/
def completed : Reading → Option (List Token)
  | .between => some []
  | .word text => some [.word text]
  | .minus => some [.symbol '-']
  | .number text | .scaled text => some [.number text]
  | .hexNumber [] => some [.word ['0', 'x']]
  | .hexNumber digits => (hexBytes digits).map fun content => [.bytes content]
  | .nameEnd text => if text = [] then none else some [.name text]
  | .textEnd content => some [.text content]
  | .closed token => some [token]
  | .qualifier text => if text = [] then none else some [.name text, .symbol '.']
  | .dot | .exponent _ | .name _ | .text _ | .escape _ | .hexText _ | .bitText _ | .stuck => none

structure Lexed where
  reading : Reading
  tokens : List Token
deriving DecidableEq

def Lexed.start : Lexed := { reading := .between, tokens := [] }

def Lexed.opened (tokens : List Token) (c : Char) : Lexed :=
  { reading := opening c, tokens := tokens ++ if isSymbol c then [.symbol c] else [] }

def Lexed.step (lexed : Lexed) (c : Char) : Lexed :=
  match continued escapes lexed.reading c with
  | some reading => { lexed with reading }
  | none =>
    match completed lexed.reading with
    | some tokens => .opened (lexed.tokens ++ tokens) c
    | none => { lexed with reading := .stuck }

def Lexed.after (lexed : Lexed) (text : List Char) : Lexed :=
  text.foldl (Lexed.step escapes) lexed

end Reader

section Reader

variable {escapes : Bool} {lexed : Lexed}

/-- The tokens of the statement, as far as it is one that is read here. -/
def tokens (escapes : Bool) (statement : List Char) : Option (List Token) :=
  let last := Lexed.start.after escapes statement
  (completed last.reading).map (last.tokens ++ ·)

/-! ## Reading in parts -/

/-- The characters that no token but a quoted one goes on with. -/
def isBreak (c : Char) : Bool := c = ' ' || isSymbol c

def Lexed.preceded (before : List Token) (lexed : Lexed) : Lexed :=
  { lexed with tokens := before ++ lexed.tokens }

/-- The tokens up to here, and that a break would end the last of them. -/
structure Lexed.Ends (escapes : Bool) (lexed : Lexed) (tokens : List Token) : Prop where
  complete : (completed lexed.reading).map (lexed.tokens ++ ·) = some tokens
  breaks : ∀ c, isBreak c = true → continued escapes lexed.reading c = none

theorem Lexed.after_nil : lexed.after escapes [] = lexed := rfl

theorem Lexed.after_cons (c : Char) (text : List Char) :
    lexed.after escapes (c :: text) = (lexed.step escapes c).after escapes text := rfl

theorem Lexed.after_append (first second : List Char) :
    lexed.after escapes (first ++ second) = (lexed.after escapes first).after escapes second :=
  List.foldl_append

theorem Lexed.step_preceded (before : List Token) (c : Char) :
    (lexed.preceded before).step escapes c = (lexed.step escapes c).preceded before := by
  unfold Lexed.step Lexed.preceded
  cases hgoes : continued escapes lexed.reading c with
  | some reading => rfl
  | none =>
    cases hdone : completed lexed.reading with
    | some tokens => simp [Lexed.opened]
    | none => rfl

theorem Lexed.after_preceded (before : List Token) (text : List Char) :
    (lexed.preceded before).after escapes text = (lexed.after escapes text).preceded before := by
  induction text generalizing lexed with
  | nil => rfl
  | cons c text ih => rw [after_cons, after_cons, step_preceded, ih]

theorem Lexed.Ends.preceded {tokens : List Token} (hends : lexed.Ends escapes tokens)
    (before : List Token) : (lexed.preceded before).Ends escapes (before ++ tokens) := by
  constructor
  · obtain ⟨done, hdone, rfl⟩ := Option.map_eq_some_iff.mp hends.complete
    show (completed lexed.reading).map _ = _
    rw [hdone]
    simp [Lexed.preceded]
  · exact hends.breaks

theorem Lexed.Ends.step {tokens : List Token} (hends : lexed.Ends escapes tokens) {c : Char}
    (hc : isBreak c = true) : lexed.step escapes c = .opened tokens c := by
  obtain ⟨done, hdone, rfl⟩ := Option.map_eq_some_iff.mp hends.complete
  unfold Lexed.step
  rw [hends.breaks c hc, hdone]

/-- The text is these tokens, with a break or the end behind it. -/
def Reads (escapes : Bool) (text : List Char) (tokens : List Token) : Prop :=
  (Lexed.start.after escapes text).Ends escapes tokens

/-- What stands between two parts of a statement: it begins with a break, and all of it is
read as these tokens. -/
structure Joint (escapes : Bool) (text : List Char) (tokens : List Token) : Prop where
  head : text.head?.any isBreak = true
  reads : Lexed.start.after escapes text = { reading := .between, tokens }

theorem Reads.tokens_eq (hreads : Reads escapes text list) :
    tokens escapes text = some list :=
  hreads.complete

theorem reads_nil : Reads escapes [] [] := ⟨rfl, fun _ _ => rfl⟩

theorem Lexed.ends_of_reads (hreads : Reads escapes text list) :
    (Lexed.after escapes { reading := .between, tokens := before } text).Ends escapes
      (before ++ list) := by
  have hstart : ({ reading := .between, tokens := before } : Lexed) = start.preceded before := by
    simp [preceded, start]
  rw [hstart, after_preceded]
  exact hreads.preceded before

theorem Lexed.Ends.after_joint {tokens : List Token}
    (hends : lexed.Ends escapes tokens) (hjoint : Joint escapes text joint) :
    lexed.after escapes text = { reading := .between, tokens := tokens ++ joint } := by
  cases text with
  | nil => cases hjoint.head
  | cons c text =>
    have hc : isBreak c = true := hjoint.head
    have hnil : start.Ends escapes [] := reads_nil
    have hreads := hjoint.reads
    rw [after_cons, hnil.step hc] at hreads
    rw [after_cons, hends.step hc]
    have hbefore : opened tokens c = Lexed.preceded tokens (opened [] c) := by
      simp [Lexed.preceded, opened]
    rw [hbefore, after_preceded, hreads]
    rfl

theorem Reads.join {first second : List Char} {later : List Token}
    (hfirst : Reads escapes first before) (hjoint : Joint escapes between joint)
    (hsecond : Reads escapes second later) :
    Reads escapes (first ++ between ++ second) (before ++ joint ++ later) := by
  unfold Reads
  rw [Lexed.after_append, Lexed.after_append, hfirst.after_joint hjoint]
  exact Lexed.ends_of_reads hsecond

theorem Reads.lead {first second : List Char} {later : List Token}
    (hfirst : Lexed.start.after escapes first = { reading := .between, tokens := list })
    (hsecond : Reads escapes second later) : Reads escapes (first ++ second) (list ++ later) := by
  unfold Reads
  rw [Lexed.after_append, hfirst]
  exact Lexed.ends_of_reads hsecond

theorem Reads.append_joint
    (hreads : Reads escapes text before) (hjoint : Joint escapes between joint) :
    Reads escapes (text ++ between) (before ++ joint) := by
  have hjoined := hreads.join hjoint reads_nil
  rwa [List.append_nil, List.append_nil] at hjoined

theorem Reads.intercalate
    (hjoint : Joint escapes between joint) {parts : List (List Char)} {lists : List (List Token)}
    (hreads : List.Forall₂ (Reads escapes) parts lists) :
    Reads escapes (between.intercalate parts) (joint.intercalate lists) := by
  induction hreads with
  | nil => exact reads_nil
  | @cons part list parts lists hpart hparts ih =>
    cases hparts with
    | nil => simpa using hpart
    | cons hnext hrest =>
      rw [List.intercalate_cons_cons, List.intercalate_cons_cons]
      exact hpart.join hjoint ih

/-! ## The parts -/

theorem isBreak_cases {c : Char} (hc : isBreak c = true) :
    c = ' ' ∨ c = '(' ∨ c = ')' ∨ c = ',' ∨ c = '=' ∨ c = '+' := by
  simpa [isBreak, isSymbol, or_assoc] using hc

theorem continued_break {reading : Reading}
    (hdone : completed reading = some list) (hname : ∀ text, reading ≠ .qualifier text) {c : Char}
    (hc : isBreak c = true) : continued escapes reading c = none := by
  have hword : isWordChar c = false := by
    rcases isBreak_cases hc with rfl | rfl | rfl | rfl | rfl | rfl <;> decide
  have hhex : hexDigit c = none := by
    rcases isBreak_cases hc with rfl | rfl | rfl | rfl | rfl | rfl <;> decide
  have hplain : c.isDigit = false ∧ c ≠ '.' ∧ c ≠ 'e' ∧ c ≠ 'E' ∧ c ≠ 'x' ∧ c ≠ '-' ∧ c ≠ '\'' ∧
      c ≠ backtick := by
    rcases isBreak_cases hc with rfl | rfl | rfl | rfl | rfl | rfl <;> decide
  obtain ⟨hdigit, hdot, he, hE, hx, hminus, hquote, htick⟩ := hplain
  cases reading with
  | qualifier text => exact absurd rfl (hname text)
  | between => rfl
  | closed token => simp [continued, hquote]
  | word text => simp [continued, hword, hquote, hdot]
  | minus => simp [continued, hminus]
  | number text => simp [continued, hdigit, hdot, he, hE, hx, hword]
  | scaled text => simp [continued, hdigit, hword, hdot]
  | hexNumber digits => simp [continued, hhex, hword, hdot]
  | nameEnd text => simp [continued, htick, hdot]
  | textEnd content => simp [continued, hquote]
  | dot | exponent | name | text | escape | hexText | bitText | stuck => cases hdone

theorem reads_of_after (reading : Reading)
    (hafter : Lexed.start.after escapes text = { reading, tokens := [] })
    (hdone : completed reading = some list) (hname : ∀ text, reading ≠ .qualifier text) :
    Reads escapes text list := by
  unfold Reads
  rw [hafter]
  refine ⟨?_, fun c hc => continued_break hdone hname hc⟩
  show (completed reading).map _ = some list
  rw [hdone]
  rfl

end Reader

end Chat2DB.MySql
