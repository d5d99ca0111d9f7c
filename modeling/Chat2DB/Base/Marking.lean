import Chat2DB.Base.Text

/-! # Lexers that mark text

A lexer reads a text from left to right with a view of what is still to come and
marks every character: as code, as part of a quoted item, as part of a comment,
or as something that separates statements. Nothing is lost, and what is between
the separators can be read again on its own.
-/

namespace Marking

universe u

inductive Mark where
  | code
  | quoted
  | comment
  | stop
deriving DecidableEq

abbrev Marked := List (Char × Mark)

def text (marked : Marked) : List Char := marked.map Prod.fst

def NoStop (marked : Marked) : Prop := ∀ item ∈ marked, item.2 ≠ .stop

/-! ## Statements -/

/-- What is between the separators. -/
def segments (marked : Marked) : List (List Char) :=
  (marked.splitOnP fun item => item.2 = .stop).map text

/-- The text without the blanks around it, unless nothing is left. -/
def push (current : List Char) : List (List Char) :=
  let statement := Text.trim current
  if statement = [] then [] else [statement]

def statements (marked : Marked) : List (List Char) := (segments marked).flatMap push

/-- The statements that come when some characters are there already. -/
def collect (current : List Char) : Marked → List (List Char)
  | [] => push current
  | (c, mark) :: rest =>
    if mark = .stop then push current ++ collect [] rest else collect (current ++ [c]) rest

theorem collect_append {current : List Char} {first : Marked} (rest : Marked)
    (hfirst : NoStop first) : collect current (first ++ rest) = collect (current ++ text first) rest := by
  induction first generalizing current with
  | nil => simp [text]
  | cons item first ih =>
    obtain ⟨c, mark⟩ := item
    have hmark : mark ≠ .stop := hfirst (c, mark) List.mem_cons_self
    have hrest : NoStop first := fun other hother => hfirst other (List.mem_cons_of_mem _ hother)
    rw [List.cons_append, collect, if_neg hmark, ih hrest]
    simp [text]

theorem segments_of_noStop {marked : Marked} (hmarked : NoStop marked) :
    segments marked = [text marked] := by
  unfold segments
  rw [List.splitOnP_eq_singleton (by simpa [NoStop] using hmarked)]
  rfl

theorem segments_append_stop {first : Marked} {c : Char} (later : Marked) (hfirst : NoStop first) :
    segments (first ++ (c, .stop) :: later) = text first :: segments later := by
  unfold segments
  rw [List.splitOnP_append_cons _ _ (by simp),
    List.splitOnP_eq_singleton (by simpa [NoStop] using hfirst)]
  rfl

/-- A marked text up to its first separator. -/
theorem exists_first (marked : Marked) :
    ∃ first, NoStop first ∧
      (marked = first ∨ ∃ c later, marked = first ++ (c, .stop) :: later) := by
  induction marked with
  | nil => exact ⟨[], by simp [NoStop], .inl rfl⟩
  | cons item rest ih =>
    obtain ⟨c, mark⟩ := item
    by_cases hmark : mark = .stop
    · subst hmark
      exact ⟨[], by simp [NoStop], .inr ⟨c, rest, rfl⟩⟩
    · obtain ⟨first, hfirst, hrest⟩ := ih
      refine ⟨(c, mark) :: first, List.forall_mem_cons.mpr ⟨hmark, hfirst⟩, ?_⟩
      rcases hrest with rfl | ⟨d, later, rfl⟩
      · exact .inl rfl
      · exact .inr ⟨d, later, rfl⟩

/-- Induction along the segments of a marked text. -/
theorem segment_induction {motive : Marked → Prop} (hlast : ∀ last, NoStop last → motive last)
    (hnext : ∀ first c later, NoStop first → motive later →
      motive (first ++ (c, .stop) :: later)) (marked : Marked) : motive marked := by
  induction hlength : marked.length using Nat.strong_induction_on generalizing marked with
  | _ length ih =>
    obtain ⟨first, hfirst, rfl | ⟨c, later, rfl⟩⟩ := exists_first marked
    · exact hlast marked hfirst
    · apply hnext first c later hfirst
      apply ih later.length _ later rfl
      simp only [List.length_append, List.length_cons] at hlength
      omega

/-- Collecting from nothing gives the statements. -/
theorem collect_nil (marked : Marked) : collect [] marked = statements marked := by
  induction marked using segment_induction with
  | hlast last hlast =>
    have hcollect := @collect_append [] last [] hlast
    rw [List.append_nil, List.nil_append] at hcollect
    simp [hcollect, collect, statements, segments_of_noStop hlast]
  | hnext first c later hfirst ih =>
    rw [collect_append _ hfirst, collect, if_pos rfl, ih, statements, statements,
      segments_append_stop later hfirst]
    simp

/-- The separators before and after a segment, if there are any. -/
structure Between (before after : Marked) : Prop where
  before : before = [] ∨ ∃ earlier c, before = earlier ++ [(c, .stop)]
  after : after = [] ∨ ∃ c later, after = (c, .stop) :: later

theorem exists_of_mem_segments {marked : Marked} {segment : List Char}
    (hsegment : segment ∈ segments marked) :
    ∃ before middle after, marked = before ++ middle ++ after ∧ text middle = segment ∧
      NoStop middle ∧ Between before after := by
  induction marked using segment_induction with
  | hlast last hlast =>
    rw [segments_of_noStop hlast, List.mem_singleton] at hsegment
    exact ⟨[], last, [], by simp, hsegment.symm, hlast, .inl rfl, .inl rfl⟩
  | hnext first c later hfirst ih =>
    rw [segments_append_stop later hfirst, List.mem_cons] at hsegment
    rcases hsegment with rfl | hsegment
    · exact ⟨[], first, (c, .stop) :: later, rfl, rfl, hfirst, .inl rfl, .inr ⟨c, later, rfl⟩⟩
    · obtain ⟨before, middle, after, rfl, htext, hmiddle, hbetween⟩ := ih hsegment
      refine ⟨first ++ (c, .stop) :: before, middle, after, by simp, htext, hmiddle, .inr ?_,
        hbetween.after⟩
      rcases hbetween.before with rfl | ⟨earlier, d, rfl⟩
      · exact ⟨first, c, rfl⟩
      · exact ⟨first ++ (c, .stop) :: earlier, d, by simp⟩

theorem mem_statements {marked : Marked} {statement : List Char} :
    statement ∈ statements marked ↔
      ∃ segment ∈ segments marked, statement = Text.trim segment ∧ statement ≠ [] := by
  unfold statements push
  rw [List.mem_flatMap]
  constructor
  · rintro ⟨segment, hsegment, hstatement⟩
    dsimp only at hstatement
    split_ifs at hstatement with hblank
    · cases hstatement
    · obtain rfl := List.mem_singleton.mp hstatement
      exact ⟨segment, hsegment, rfl, hblank⟩
  · rintro ⟨segment, hsegment, rfl, hblank⟩
    exact ⟨segment, hsegment, by simp [hblank]⟩

/-- Nothing crosses a separator. -/
theorem statements_append_stop (before after : Marked) (c : Char) :
    statements (before ++ (c, .stop) :: after) = statements before ++ statements after := by
  unfold statements segments
  rw [List.splitOnP_append_cons _ _ (by simp), List.map_append, List.flatMap_append]

/-- Without statements there is nothing but blanks and separators. -/
theorem blank_of_statements_eq_nil {marked : Marked} (hnone : statements marked = []) :
    ∀ item ∈ marked, item.2 ≠ .stop → Text.blank item.1 = true := by
  have hblank : ∀ part : Marked, NoStop part → statements part = [] →
      ∀ item ∈ part, Text.blank item.1 = true := by
    intro part hpart hempty item hitem
    have htrim : Text.trim (text part) = [] := by
      simpa [statements, segments_of_noStop hpart, push] using hempty
    exact Text.trim_eq_nil_iff.mp htrim item.1 (List.mem_map_of_mem hitem)
  induction marked using segment_induction with
  | hlast last hlast => exact fun item hitem _ => hblank last hlast hnone item hitem
  | hnext first c later hfirst ih =>
    rw [statements_append_stop, List.append_eq_nil_iff] at hnone
    intro item hitem hstop
    rcases List.mem_append.mp hitem with hitem | hitem
    · exact hblank first hfirst hnone.1 item hitem
    · rcases List.mem_cons.mp hitem with rfl | hitem
      · exact absurd rfl hstop
      · exact ih hnone.2 item hitem hstop

/-- The statements have every character that is not blank and separates nothing. -/
theorem flatten_statements (marked : Marked) :
    (statements marked).flatten.filter (fun c => !Text.blank c) =
      (text (marked.filter fun item => item.2 ≠ .stop)).filter fun c => !Text.blank c := by
  have hsegment : ∀ part : Marked, NoStop part →
      (statements part).flatten.filter (fun c => !Text.blank c) =
        (text (part.filter fun item => item.2 ≠ .stop)).filter fun c => !Text.blank c := by
    intro part hpart
    have hall : part.filter (fun item => item.2 ≠ .stop) = part :=
      List.filter_eq_self.mpr fun item hitem => by simpa using hpart item hitem
    rw [hall, ← Text.filter_trim (text part)]
    simp only [statements, segments_of_noStop hpart, push, List.flatMap_cons, List.flatMap_nil,
      List.append_nil]
    split_ifs with hblank
    · rw [hblank]
      rfl
    · simp
  induction marked using segment_induction with
  | hlast last hlast => exact hsegment last hlast
  | hnext first c later hfirst ih =>
    rw [statements_append_stop, List.flatten_append, List.filter_append, ih, hsegment first hfirst]
    simp [text]

/-! ## Lexers -/

/-- The text may end where the state is complete. -/
structure Lexer (σ : Type u) where
  start : σ
  step : σ → Char → List Char → σ × Mark
  complete : σ → Bool

namespace Lexer

variable {σ : Type u} (lexer : Lexer σ)

def readFrom : σ → List Char → Option Marked
  | state, [] => if lexer.complete state then some [] else none
  | state, c :: rest =>
    let (next, mark) := lexer.step state c rest
    (readFrom next rest).map ((c, mark) :: ·)

/-- The marks of a text that ends where it may. -/
def read (text : List Char) : Option Marked := lexer.readFrom lexer.start text

/-- The marks of a text, wherever it ends. -/
def marks : σ → List Char → Marked
  | _, [] => []
  | state, c :: rest =>
    let (next, mark) := lexer.step state c rest
    (c, mark) :: marks next rest

variable {lexer} {state : σ} {marked : Marked}

theorem readFrom_cons {c : Char} {rest : List Char} :
    lexer.readFrom state (c :: rest) =
      (lexer.readFrom (lexer.step state c rest).1 rest).map
        ((c, (lexer.step state c rest).2) :: ·) := rfl

/-- Every character of the text is marked. -/
theorem text_readFrom {input : List Char} (hread : lexer.readFrom state input = some marked) :
    text marked = input := by
  induction input generalizing state marked with
  | nil =>
    unfold readFrom at hread
    split_ifs at hread
    obtain rfl := Option.some.inj hread
    rfl
  | cons c rest ih =>
    rw [readFrom_cons, Option.map_eq_some_iff] at hread
    obtain ⟨later, hlater, rfl⟩ := hread
    simp only [text, List.map_cons]
    congr 1
    exact ih hlater

theorem marks_of_readFrom {input : List Char} (hread : lexer.readFrom state input = some marked) :
    lexer.marks state input = marked := by
  induction input generalizing state marked with
  | nil =>
    unfold readFrom at hread
    split_ifs at hread
    exact Option.some.inj hread
  | cons c rest ih =>
    rw [readFrom_cons, Option.map_eq_some_iff] at hread
    obtain ⟨later, hlater, rfl⟩ := hread
    exact congrArg _ (ih hlater)

/-! ## Reading a statement again -/

variable (lexer) in
/-- A separator ends what was read, nothing before it looks beyond it or beyond a
blank, and blanks neither begin nor end anything. -/
structure Cutting (separator : Char) : Prop where
  stop : ∀ state c rest, (lexer.step state c rest).2 = .stop →
    c = separator ∧ (lexer.step state c rest).1 = lexer.start ∧ lexer.complete state = true
  blind : ∀ state c rest d later, d = separator ∨ Text.blank d = true →
    lexer.step state c (rest ++ d :: later) = lexer.step state c rest
  blank_start : ∀ c rest, Text.blank c = true → lexer.step lexer.start c rest = (lexer.start, .code)
  blank_open : ∀ state c rest, Text.blank c = true → lexer.complete state = false →
    lexer.complete (lexer.step state c rest).1 = false

theorem readFrom_text_cons {item : Char × Mark} {rest : Marked}
    (hread : lexer.readFrom state (text (item :: rest)) = some (item :: rest)) :
    (lexer.step state item.1 (text rest)).2 = item.2 ∧
      lexer.readFrom (lexer.step state item.1 (text rest)).1 (text rest) = some rest := by
  have hcons : text (item :: rest) = item.1 :: text rest := rfl
  rw [hcons, readFrom_cons, Option.map_eq_some_iff] at hread
  obtain ⟨later, hlater, heq⟩ := hread
  obtain ⟨hitem, rfl⟩ := List.cons.inj heq
  exact ⟨congrArg Prod.snd hitem, hlater⟩

theorem readFrom_text_cons_of {item : Char × Mark} {rest : Marked}
    (hmark : (lexer.step state item.1 (text rest)).2 = item.2)
    (hrest : lexer.readFrom (lexer.step state item.1 (text rest)).1 (text rest) = some rest) :
    lexer.readFrom state (text (item :: rest)) = some (item :: rest) := by
  have hcons : text (item :: rest) = item.1 :: text rest := rfl
  rw [hcons, readFrom_cons, hrest, hmark]
  rfl

namespace Cutting

variable {separator : Char} (hcutting : lexer.Cutting separator)
include hcutting

/-- After a separator reading starts anew. -/
theorem after_stop {earlier later : Marked} {c : Char}
    (hread : lexer.readFrom state (text (earlier ++ (c, .stop) :: later)) =
      some (earlier ++ (c, .stop) :: later)) :
    lexer.readFrom lexer.start (text later) = some later := by
  induction earlier generalizing state with
  | nil =>
    obtain ⟨hmark, hlater⟩ := readFrom_text_cons hread
    rwa [(hcutting.stop _ _ _ hmark).2.1] at hlater
  | cons item earlier ih => exact ih (readFrom_text_cons hread).2

theorem eq_separator {earlier later : Marked} {c : Char}
    (hread : lexer.readFrom state (text (earlier ++ (c, .stop) :: later)) =
      some (earlier ++ (c, .stop) :: later)) : c = separator := by
  induction earlier generalizing state with
  | nil => exact (hcutting.stop _ _ _ (readFrom_text_cons hread).1).1
  | cons item earlier ih => exact ih (readFrom_text_cons hread).2

/-- What comes before a separator can be read without it. -/
theorem before_stop {middle later : Marked} {c : Char}
    (hread : lexer.readFrom state (text (middle ++ (c, .stop) :: later)) =
      some (middle ++ (c, .stop) :: later)) :
    lexer.readFrom state (text middle) = some middle := by
  induction middle generalizing state with
  | nil =>
    obtain ⟨hmark, -⟩ := readFrom_text_cons hread
    simp [text, readFrom, (hcutting.stop _ _ _ hmark).2.2]
  | cons item middle ih =>
    have hseparator := hcutting.eq_separator hread
    rw [List.cons_append] at hread
    obtain ⟨hmark, hrest⟩ := readFrom_text_cons hread
    have hmiddle := ih hrest
    have hsplit : text (middle ++ (c, .stop) :: later) = text middle ++ c :: text later := by
      simp [text]
    rw [hsplit, hcutting.blind _ _ _ _ _ (.inl hseparator)] at hmark hmiddle
    exact readFrom_text_cons_of hmark hmiddle

/-- Blanks in front can be left out. -/
theorem after_blanks {blanks rest : Marked} (hblanks : ∀ item ∈ blanks, Text.blank item.1 = true)
    (hread : lexer.readFrom lexer.start (text (blanks ++ rest)) = some (blanks ++ rest)) :
    lexer.readFrom lexer.start (text rest) = some rest := by
  induction blanks with
  | nil => exact hread
  | cons item blanks ih =>
    rw [List.forall_mem_cons] at hblanks
    obtain ⟨-, hrest⟩ := readFrom_text_cons hread
    rw [hcutting.blank_start _ _ hblanks.1] at hrest
    exact ih hblanks.2 hrest

/-- Only blanks follow where the text may end. -/
theorem complete_of_blanks {blanks : Marked} (hblanks : ∀ item ∈ blanks, Text.blank item.1 = true)
    (hread : lexer.readFrom state (text blanks) = some blanks) : lexer.complete state = true := by
  induction blanks generalizing state with
  | nil =>
    by_contra hopen
    simp [text, readFrom, hopen] at hread
  | cons item blanks ih =>
    rw [List.forall_mem_cons] at hblanks
    have hafter := ih hblanks.2 (readFrom_text_cons hread).2
    by_contra hopen
    rw [hcutting.blank_open _ _ _ hblanks.1 (by simpa using hopen)] at hafter
    cases hafter

/-- Blanks at the end can be left out. -/
theorem before_blanks {middle blanks : Marked}
    (hblanks : ∀ item ∈ blanks, Text.blank item.1 = true)
    (hread : lexer.readFrom state (text (middle ++ blanks)) = some (middle ++ blanks)) :
    lexer.readFrom state (text middle) = some middle := by
  induction middle generalizing state with
  | nil =>
    have hcomplete := hcutting.complete_of_blanks hblanks hread
    simp [text, readFrom, hcomplete]
  | cons item middle ih =>
    rw [List.cons_append] at hread
    obtain ⟨hmark, hrest⟩ := readFrom_text_cons hread
    have hblind : lexer.step state item.1 (text (middle ++ blanks)) =
        lexer.step state item.1 (text middle) := by
      cases blanks with
      | nil => rw [List.append_nil]
      | cons first others =>
        have hsplit : text (middle ++ first :: others) =
            text middle ++ first.1 :: text others := by simp [text]
        rw [hsplit]
        exact hcutting.blind _ _ _ _ _ (.inr (hblanks first List.mem_cons_self))
    have hmiddle := ih hrest
    rw [hblind] at hmark hmiddle
    exact readFrom_text_cons_of hmark hmiddle

/-- A statement can be read again, as it was read before. -/
theorem read_of_mem_statements {input statement : List Char} (hread : lexer.read input = some marked)
    (hstatement : statement ∈ statements marked) :
    ∃ middle, lexer.read statement = some middle ∧ NoStop middle ∧ middle.Sublist marked := by
  have hmarked := hread
  rw [← text_readFrom hread] at hmarked
  obtain ⟨segment, hsegment, rfl, -⟩ := mem_statements.mp hstatement
  obtain ⟨before, middle, after, rfl, rfl, hmiddle, hbetween⟩ := exists_of_mem_segments hsegment
  -- The segment alone.
  have hrest : lexer.readFrom lexer.start (text (middle ++ after)) = some (middle ++ after) := by
    rw [List.append_assoc] at hmarked
    rcases hbetween.before with rfl | ⟨earlier, c, rfl⟩
    · exact hmarked
    · rw [List.append_assoc] at hmarked
      exact hcutting.after_stop hmarked
  have halone : lexer.readFrom lexer.start (text middle) = some middle := by
    rcases hbetween.after with rfl | ⟨c, later, rfl⟩
    · simpa using hrest
    · exact hcutting.before_stop hrest
  -- The blanks around it.
  obtain ⟨before', after', hsplit, hbefore, hafter⟩ := Text.exists_trim (text middle)
  obtain ⟨first, rest, rfl, hfirst, hrestText⟩ := List.map_eq_append_iff.mp
    (show middle.map Prod.fst = before' ++ (Text.trim (text middle) ++ after') from
      hsplit.trans (List.append_assoc _ _ _))
  obtain ⟨core, last, rfl, hcore, hlast⟩ := List.map_eq_append_iff.mp hrestText
  have hfirstBlank : ∀ item ∈ first, Text.blank item.1 = true := fun item hitem =>
    hbefore _ (hfirst ▸ List.mem_map_of_mem hitem)
  have hlastBlank : ∀ item ∈ last, Text.blank item.1 = true := fun item hitem =>
    hafter _ (hlast ▸ List.mem_map_of_mem hitem)
  refine ⟨core, ?_, ?_, ?_⟩
  · have hcoreRead := hcutting.before_blanks hlastBlank (hcutting.after_blanks hfirstBlank halone)
    unfold read
    rw [← hcore]
    exact hcoreRead
  · intro item hitem
    exact hmiddle item (List.mem_append_right _ (List.mem_append_left _ hitem))
  · simp only [List.append_assoc]
    exact ((List.sublist_append_left core _).trans (List.sublist_append_right first _)).trans
      (List.sublist_append_right before _)

end Cutting

end Lexer

end Marking
