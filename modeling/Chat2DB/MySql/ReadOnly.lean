import Chat2DB.MySql.LexerAgreement

/-! # Read-only consoles

The server reads a text as far as it goes and runs every statement in it. The policy
looks at the words of the whole text, and at its semicolons only behind a SELECT.
-/

namespace Chat2DB.MySql

open Marking (Mark Marked Lexer)

variable {marked : Marked} {text : List Char}

/-! ## What the server sees -/

/-- Neither blank nor part of a comment. -/
def significant (item : Char × Mark) : Bool :=
  item.2 ≠ .comment && !(Utf8.asciiWhitespace item.1 || item.1 = Char.ofNat 0x0B)

/-- The statements that the server finds in a text. -/
def serverStatements (text : List Char) : List Marked :=
  ((mysql.lexer.marks .text text).splitOnP fun item => item.2 = .stop).filter
    fun segment => segment.any significant

def wordsOf (marked : Marked) : List (List Char) := (tokensOf marked).filterMap SqlToken.toWord

/-- The first thing in the statement is a word. -/
def opensWithWord (statement : Marked) : Bool :=
  (statement.find? significant).any fun item => item.2 = .code && wordStart item.1

/-- The statement starts with a permitted head, and a SELECT neither locks rows nor
writes files. -/
def readsOnly (statement : Marked) : Bool :=
  opensWithWord statement &&
    (readHeads.any (beginsWith (wordsOf statement)) ||
      (beginsWith (wordsOf statement) ["SELECT"] && !forbiddenRead (wordsOf statement)))

/-- Every statement that the server sees is a read. -/
def OnlyReads (request : NativeConsoleRequest) : Prop :=
  ∀ texts, readOnlyConsoleTexts request = .ok texts →
    ∀ text ∈ texts, ∀ statement ∈ serverStatements text, readsOnly statement = true

/-! ## Words of the parts -/

theorem tokensFrom_append_stop (word : List Char) {first : Marked} (c : Char) (later : Marked) :
    tokensFrom word (first ++ (c, .stop) :: later) =
      tokensFrom word first ++ .semicolon :: tokensFrom [] later := by
  induction first generalizing word with
  | nil => simp [tokensFrom]
  | cons item first ih =>
    obtain ⟨d, mark⟩ := item
    rw [List.cons_append, tokensFrom, tokensFrom, ih, ih]
    by_cases hword : mark = .code ∧ (if word = [] then wordStart d else wordPart d) = true
    · rw [if_pos hword, if_pos hword]
    · rw [if_neg hword, if_neg hword, List.append_assoc, List.append_assoc, List.append_assoc]

theorem wordsOf_eq (marked : Marked) :
    wordsOf marked = (marked.splitOnP fun item => item.2 = .stop).flatMap wordsOf := by
  induction marked using Marking.segment_induction with
  | hlast last hlast =>
    rw [List.splitOnP_eq_singleton (by simpa [Marking.NoStop] using hlast)]
    simp
  | hnext first c later hfirst ih =>
    rw [List.splitOnP_append_cons _ _ (by simp),
      List.splitOnP_eq_singleton (by simpa [Marking.NoStop] using hfirst), List.singleton_append,
      List.flatMap_cons, ← ih]
    simp [wordsOf, tokensOf, tokensFrom_append_stop, List.filterMap_cons]

theorem not_wordStart_of_insignificant {c : Char} (hnone : significant (c, .code) = false) :
    wordStart c = false := by
  simp only [significant, ne_eq, reduceCtorEq, not_false_eq_true, decide_true, Bool.true_and,
    Bool.not_eq_false', Bool.or_eq_true, decide_eq_true_eq] at hnone
  rcases hnone with hblank | rfl
  · exact not_wordStart_of_blank hblank
  · rfl

theorem wordsOf_of_insignificant (hnone : marked.any significant = false) :
    wordsOf marked = [] := by
  induction marked with
  | nil => rfl
  | cons item rest ih =>
    obtain ⟨c, mark⟩ := item
    rw [List.any_cons, Bool.or_eq_false_iff] at hnone
    have hword : ¬(mark = .code ∧ (if ([] : List Char) = [] then wordStart c else wordPart c) =
        true) := by
      rintro ⟨rfl, hstart⟩
      rw [if_pos rfl, not_wordStart_of_insignificant hnone.1] at hstart
      cases hstart
    have hrest := ih hnone.2
    simp only [wordsOf, tokensOf] at hrest ⊢
    rw [tokensFrom, if_neg hword]
    split_ifs <;> simp [flushWord, List.filterMap_cons, hrest, -List.filterMap_eq_nil_iff]

/-- A text with one statement has the words of this statement. -/
theorem wordsOf_of_single {statement : Marked}
    (hstatement : statement ∈ (marked.splitOnP fun item => item.2 = .stop).filter
      fun segment => segment.any significant)
    (hone : ((marked.splitOnP fun item => item.2 = .stop).filter
      fun segment => segment.any significant).length ≤ 1) :
    wordsOf marked = wordsOf statement := by
  have hparts : ∀ parts : List Marked, parts.flatMap wordsOf =
      (parts.filter fun segment => segment.any significant).flatMap wordsOf := by
    intro parts
    induction parts with
    | nil => rfl
    | cons part parts ih =>
      rw [List.filter_cons, List.flatMap_cons, ih]
      split_ifs with hpart
      · rfl
      · rw [wordsOf_of_insignificant (by simpa using hpart), List.nil_append]
  rw [wordsOf_eq, hparts]
  generalize (marked.splitOnP fun item => item.2 = .stop).filter
    (fun segment => segment.any significant) = found at hstatement hone
  match found with
  | [] => cases hstatement
  | [only] =>
    obtain rfl := List.mem_singleton.mp hstatement
    simp
  | _ :: _ :: _ => simp at hone

/-- A word that has begun is reported. -/
theorem words_of_begun {word : List Char} (hword : word ≠ []) (marked : Marked) :
    (tokensFrom word marked).filterMap SqlToken.toWord ≠ [] := by
  induction marked generalizing word with
  | nil => simp [tokensFrom, flushWord, hword]
  | cons item rest ih =>
    obtain ⟨c, mark⟩ := item
    rw [tokensFrom]
    by_cases hgoes : mark = .code ∧ (if word = [] then wordStart c else wordPart c) = true
    · rw [if_pos hgoes]
      exact ih (by simp)
    · rw [if_neg hgoes]
      simp [flushWord, hword]

theorem wordsOf_of_opens {statement : Marked} (hopens : opensWithWord statement = true) :
    wordsOf statement ≠ [] := by
  induction statement with
  | nil => cases hopens
  | cons item rest ih =>
    obtain ⟨c, mark⟩ := item
    rw [wordsOf, tokensOf, tokensFrom]
    by_cases hsignificant : significant (c, mark) = true
    · rw [opensWithWord, List.find?_cons_of_pos hsignificant, Option.any_some, Bool.and_eq_true,
        decide_eq_true_eq] at hopens
      rw [if_pos ⟨hopens.1, by rw [if_pos rfl]; exact hopens.2⟩]
      exact words_of_begun (by simp) rest
    · have hskipped : ¬(mark = .code ∧
          (if ([] : List Char) = [] then wordStart c else wordPart c) = true) := by
        rintro ⟨rfl, hstart⟩
        rw [if_pos rfl, not_wordStart_of_insignificant (by simpa using hsignificant)] at hstart
        cases hstart
      rw [opensWithWord, List.find?_cons_of_neg hsignificant] at hopens
      rw [if_neg hskipped, List.filterMap_append]
      exact List.append_ne_nil_of_right_ne_nil _ (ih hopens)

/-! ## The policy -/

/-- What the policy looks for behind a SELECT: nothing behind a semicolon, and no locks and
files. -/
structure SingleRead (tokens : List SqlToken) : Prop where
  last : .semicolon ∈ tokens → tokens.idxOf .semicolon + 1 = tokens.length
  plain : forbiddenRead (tokens.filterMap SqlToken.toWord) = false

theorem singleRead_of_validated {lexemes : SqlLexemes}
    (hlexemes : sqlLexemes text = .ok lexemes) (hok : validateReadSql text = .ok ()) :
    SingleRead lexemes.tokens := by
  unfold validateReadSql readPolicyTokens at hok
  rw [hlexemes] at hok
  by_cases hcomment : lexemes.executableComment = true
  · simp [hcomment] at hok
  simp only [if_neg hcomment] at hok
  split_ifs at hok with hhead hsemicolon hforbidden
  refine ⟨fun hmem => ?_, by simpa using hforbidden⟩
  by_contra hmore
  exact hsemicolon ⟨List.idxOf_lt_length_iff.mpr hmem, .inl hmore⟩

/-- A text that the policy lets pass begins with the words of a head, or is a single SELECT. -/
theorem words_of_validated {lexemes : SqlLexemes}
    (hlexemes : sqlLexemes text = .ok lexemes) (hok : validateReadOnlyStatement text = .ok ()) :
    readHeads.any (beginsWith (lexemes.tokens.filterMap SqlToken.toWord)) = true ∨
      (beginsWith (lexemes.tokens.filterMap SqlToken.toWord) ["SELECT"] = true ∧
        SingleRead lexemes.tokens) := by
  unfold validateReadOnlyStatement readPolicyTokens at hok
  rw [hlexemes] at hok
  by_cases hcomment : lexemes.executableComment = true
  · simp [hcomment] at hok
  simp only [if_neg hcomment] at hok
  by_cases hselect : beginsWith (lexemes.tokens.filterMap SqlToken.toWord) ["SELECT"] = true
  · rw [if_pos hselect] at hok
    split_ifs at hok with hread
    cases hvalid : validateReadSql text with
    | error failure =>
      rw [hvalid] at hread
      cases hread
    | ok => exact .inr ⟨hselect, singleRead_of_validated hlexemes hvalid⟩
  · rw [if_neg hselect] at hok
    split_ifs at hok with hhead
    exact .inl hhead

/-- No head but its own begins with SELECT. -/
theorem not_select_of_head {words : List (List Char)}
    (hhead : readHeads.any (beginsWith words) = true) : ¬beginsWith words ["SELECT"] = true := by
  intro hselect
  obtain ⟨head, hmem, hbegins⟩ := List.any_eq_true.mp hhead
  obtain ⟨rest, rfl⟩ := List.isPrefixOf_iff_prefix.mp hselect
  fin_cases hmem <;> revert hbegins <;> simp [beginsWith]

/-- With nothing behind a semicolon there is one statement, as every statement has a word. -/
theorem SingleRead.statements (hread : SingleRead (tokensOf marked))
    (hopens : ∀ statement ∈ (marked.splitOnP fun item => item.2 = .stop).filter
      fun segment => segment.any significant, opensWithWord statement = true) :
    ((marked.splitOnP fun item => item.2 = .stop).filter
      fun segment => segment.any significant).length ≤ 1 := by
  induction marked using Marking.segment_induction with
  | hlast last hlast =>
    rw [List.splitOnP_eq_singleton (by simpa [Marking.NoStop] using hlast)]
    exact List.length_filter_le _ _
  | hnext first c later hfirst _ =>
    have hsplit : (first ++ (c, .stop) :: later).splitOnP (fun item => item.2 = .stop) =
        first :: later.splitOnP fun item => item.2 = .stop := by
      rw [List.splitOnP_append_cons _ _ (by simp),
        List.splitOnP_eq_singleton (by simpa [Marking.NoStop] using hfirst), List.singleton_append]
    have htokens : tokensOf (first ++ (c, .stop) :: later) =
        tokensOf first ++ .semicolon :: tokensOf later := tokensFrom_append_stop [] c later
    have hbefore : .semicolon ∉ tokensOf first := by
      rw [tokensOf, semicolon_mem_tokensFrom]
      rintro ⟨item, hitem, hstop⟩
      exact hfirst item hitem hstop
    -- the first semicolon is the last token
    have hnothing : tokensOf later = [] := by
      have hlast := hread.last (by rw [htokens]; simp)
      rw [htokens, List.idxOf_append_of_notMem hbefore, List.idxOf_cons_self, List.length_append,
        List.length_cons] at hlast
      exact List.length_eq_zero_iff.mp (by omega)
    have hwordless : ∀ segment ∈ later.splitOnP fun item => item.2 = .stop,
        wordsOf segment = [] := by
      have hwords : wordsOf later = [] := by rw [wordsOf, hnothing]; rfl
      rw [wordsOf_eq, List.flatMap_eq_nil_iff] at hwords
      exact hwords
    rw [hsplit] at hopens ⊢
    rw [List.filter_cons] at hopens ⊢
    have hnone : (later.splitOnP fun item => item.2 = .stop).filter
        (fun segment => segment.any significant) = [] := by
      rw [List.filter_eq_nil_iff]
      intro segment hsegment hsignificant
      refine wordsOf_of_opens (hopens segment ?_) (hwordless segment hsegment)
      split <;> simp [hsegment, hsignificant]
    rw [hnone]
    split <;> simp

/-- The rules of the readers do not differ on the text, what the server finds in it opens with
words, and behind another head than SELECT there is one statement at most. -/
structure Safe (text : List Char) : Prop where
  clean : clean .text false text = true
  opens : ∀ statement ∈ serverStatements text, opensWithWord statement = true
  single : ¬beginsWith (wordsOf (mysql.lexer.marks .text text)) ["SELECT"] = true →
    (serverStatements text).length ≤ 1

theorem Safe.reads (hsafe : Safe text) (hok : validateReadOnlyStatement text = .ok ()) :
    ∀ statement ∈ serverStatements text, readsOnly statement = true := by
  intro statement hstatement
  have hscans := sqlLexemes_of_clean hsafe.clean
  cases hread : mysql.lexer.read text with
  | none =>
    rw [hread] at hscans
    obtain ⟨error, herror⟩ := hscans
    simp [validateReadOnlyStatement, readPolicyTokens, herror] at hok
  | some marked =>
    rw [hread] at hscans
    have hmarks : mysql.lexer.marks .text text = marked := Lexer.marks_of_readFrom hread
    have haccepted : readHeads.any (beginsWith (wordsOf marked)) = true ∨
        (beginsWith (wordsOf marked) ["SELECT"] = true ∧ SingleRead (tokensOf marked)) :=
      words_of_validated hscans hok
    have hopens := hsafe.opens
    have hsingle := hsafe.single
    unfold serverStatements at hstatement hopens hsingle
    rw [hmarks] at hstatement hopens hsingle
    -- behind a SELECT the policy has seen to the semicolons itself
    have hone : ((marked.splitOnP fun item => item.2 = .stop).filter
        fun segment => segment.any significant).length ≤ 1 := by
      by_cases hselect : beginsWith (wordsOf marked) ["SELECT"] = true
      · rcases haccepted with hhead | ⟨-, hone⟩
        · exact absurd hselect (not_select_of_head hhead)
        · exact hone.statements hopens
      · exact hsingle hselect
    have hwords : wordsOf marked = wordsOf statement := wordsOf_of_single hstatement hone
    rw [readsOnly, hopens statement hstatement, Bool.true_and, Bool.or_eq_true, Bool.and_eq_true,
      Bool.not_eq_true', ← hwords]
    exact haccepted.imp_right fun hselect => ⟨hselect.1, hselect.2.plain⟩

/-- Changing the database is a read. -/
theorem use_reads (databaseName : List Char) :
    ∀ statement ∈ serverStatements ("USE ".toList ++ quoteName databaseName),
      readsOnly statement = true := by
  have hreport : mysql.report .text [] ("USE ".toList ++ quoteName databaseName) =
      some ([.word "USE".toList], false) := by
    have hword := report_wordThen (c := 'U') (d := ' ') "SE".toList rfl rfl rfl
      (quoteName databaseName)
    have hname := report_quoteName databaseName [] (by simp)
    rw [List.append_nil, report_nil] at hname
    rw [report_idle (c := ' ') rfl, hname] at hword
    exact hword
  rw [Rules.report, Option.map_eq_some_iff] at hreport
  obtain ⟨marked, hread, hpair⟩ := hreport
  have htokens : tokensFrom [] marked = [.word "USE".toList] := congrArg Prod.fst hpair
  have hmarks : mysql.lexer.marks .text ("USE ".toList ++ quoteName databaseName) = marked :=
    Lexer.marks_of_readFrom hread
  have hnoStop : ∀ item ∈ marked, decide (item.2 = .stop) = false := by
    intro item hitem
    by_contra hstop
    have hmem := (semicolon_mem_tokensFrom [] marked).mpr ⟨item, hitem, by simpa using hstop⟩
    rw [htokens] at hmem
    cases hmem with
    | tail _ hmem => cases hmem
  intro statement hstatement
  unfold serverStatements at hstatement
  rw [hmarks, List.splitOnP_eq_singleton hnoStop] at hstatement
  obtain rfl := List.mem_singleton.mp (List.mem_of_mem_filter hstatement)
  have hopens : opensWithWord statement = true := by
    rw [← hmarks]
    rfl
  have hwords : wordsOf statement = ["USE".toList] := by
    rw [wordsOf, tokensOf, htokens]
    rfl
  rw [readsOnly, hopens, hwords]
  decide

/-! ## Requests -/

/-- A statement as it is sent. -/
def NativeConsoleRequest.sent (request : NativeConsoleRequest) (statement : List Char) :
    List Char :=
  if request.explain then "EXPLAIN ".toList ++ statement else statement

/-- If the request is accepted at all, the client cuts it as the console does and every
statement is sent as a safe text. -/
def SafeRequest (request : NativeConsoleRequest) : Prop :=
  (readOnlyConsoleTexts request).isOk = true →
    if request.single then Safe (request.sent (Text.trim request.sql))
    else (∀ line ∈ reachedDirectives request.sql, line.1.pending = .plain) ∧
      ∀ list, clientStatements request.sql = some list →
        ∀ statement ∈ list, Safe (request.sent statement)

theorem validated_of_console {statements : List (List Char)}
    (hok : validateReadOnlyConsole statements = .ok ()) :
    ∀ statement ∈ statements, validateReadOnlyStatement statement = .ok () := by
  induction statements with
  | nil => exact nofun
  | cons statement rest ih =>
    rw [validateReadOnlyConsole] at hok
    cases hfirst : validateReadOnlyStatement statement with
    | error failure =>
      rw [hfirst] at hok
      cases hok
    | ok =>
      rw [hfirst] at hok
      exact List.forall_mem_cons.mpr ⟨hfirst, ih hok⟩

/-- The statements of a safe request are safe. -/
theorem safe_of_prepared {request : NativeConsoleRequest} (hsafe : SafeRequest request)
    (haccepted : (readOnlyConsoleTexts request).isOk = true)
    {statements : List (List Char)} {page : Nat × Nat}
    (hprepared : prepareConsoleStatements request = .ok (statements, page)) :
    ∀ statement ∈ statements, Safe statement := by
  unfold prepareConsoleStatements at hprepared
  cases hpage : validateConsoleRequest request with
  | error failure =>
    rw [hpage] at hprepared
    cases hprepared
  | ok offsets =>
    cases hsplit : (if request.single then .ok [Text.trim request.sql]
        else splitMysqlScript request.sql) with
    | error failure =>
      rw [hpage] at hprepared
      simp only [hsplit] at hprepared
      cases hprepared
    | ok list =>
      have hlist : ∀ statement ∈ list, Safe (request.sent statement) := by
        have hsafe := hsafe haccepted
        split_ifs at hsafe hsplit with hsingle
        · obtain rfl := Except.ok.inj hsplit
          intro statement hstatement
          obtain rfl := List.mem_singleton.mp hstatement
          exact hsafe
        · exact hsafe.2 list (((faithful_of_plain hsafe.1).outcome list).mp hsplit)
      have hstatements : statements = list.map request.sent := by
        rw [hpage] at hprepared
        simp only [hsplit] at hprepared
        by_cases hempty : list = []
        · simp [hempty] at hprepared
        simp only [if_neg hempty, Except.ok.injEq, Prod.mk.injEq] at hprepared
        rw [← hprepared.1]
        unfold NativeConsoleRequest.sent
        split_ifs
        · rfl
        · exact (List.map_id' list).symm
      intro statement hstatement
      rw [hstatements, List.mem_map] at hstatement
      obtain ⟨original, horiginal, rfl⟩ := hstatement
      exact hlist original horiginal

/-- A request whose texts are safe sends reads only. -/
theorem readOnlyConsole_onlyReads (request : NativeConsoleRequest) (hsafe : SafeRequest request) :
    OnlyReads request := by
  intro texts htexts text htext
  have haccepted : (readOnlyConsoleTexts request).isOk = true := by rw [htexts]; rfl
  unfold readOnlyConsoleTexts at htexts
  cases hprepared : prepareConsoleStatements request with
  | error failure =>
    rw [hprepared] at htexts
    cases htexts
  | ok prepared =>
    obtain ⟨statements, page⟩ := prepared
    have hsafeStatements := safe_of_prepared hsafe haccepted hprepared
    cases hvalid : validateReadOnlyConsole statements with
    | error failure =>
      rw [hprepared] at htexts
      simp only [hvalid] at htexts
      cases htexts
    | ok =>
      have hreads : ∀ statement ∈ statements, ∀ seen ∈ serverStatements statement,
          readsOnly seen = true := fun statement hstatement =>
        (hsafeStatements statement hstatement).reads
          (validated_of_console hvalid statement hstatement)
      rw [hprepared] at htexts
      simp only [hvalid, quoteIdentifier] at htexts
      split_ifs at htexts
      · obtain rfl := Except.ok.inj htexts
        exact hreads text htext
      · obtain rfl := Except.ok.inj htexts
        rcases List.mem_cons.mp htext with rfl | hstatement
        · exact use_reads request.databaseName
        · exact hreads text hstatement

/-- A console request for one statement. -/
def singleRequest (databaseName sql : List Char) : NativeConsoleRequest where
  datasourceId := "1".toList
  databaseName := databaseName
  sql := sql
  single := true
  explain := false
  pageNo := 1
  pageSize := 100
  pageSizeAll := false
  resultSetId := none

theorem showTables_onlyReads : OnlyReads (singleRequest "shop".toList "SHOW TABLES;".toList) := by
  apply readOnlyConsole_onlyReads
  exact fun _ => ⟨by decide, by decide, by decide⟩

/-- A second statement behind the first one is not looked at. -/
theorem secondStatement_unread :
    ¬OnlyReads (singleRequest [] "SHOW TABLES; DROP TABLE t".toList) := by
  intro hreads
  have hscans := sqlLexemes_eq "SHOW TABLES; DROP TABLE t".toList
  have hreport : lexemeRules.report .text [] "SHOW TABLES; DROP TABLE t".toList =
      some ([.word "SHOW".toList, .word "TABLES".toList, .semicolon, .word "DROP".toList,
        .word "TABLE".toList, .word "T".toList], false) := by decide
  rw [hreport] at hscans
  have htexts : readOnlyConsoleTexts (singleRequest [] "SHOW TABLES; DROP TABLE t".toList) =
      .ok ["SHOW TABLES; DROP TABLE t".toList] := by
    have hprepared : prepareConsoleStatements
        (singleRequest [] "SHOW TABLES; DROP TABLE t".toList) =
          .ok (["SHOW TABLES; DROP TABLE t".toList], 0, 100) := rfl
    have hvalid : validateReadOnlyConsole ["SHOW TABLES; DROP TABLE t".toList] = .ok () := by
      unfold validateReadOnlyConsole validateReadOnlyStatement readPolicyTokens
      rw [hscans]
      rfl
    unfold readOnlyConsoleTexts
    rw [hprepared]
    simp only [hvalid]
    rfl
  have hall := hreads _ htexts _ (List.mem_singleton_self _)
  revert hall
  decide

end Chat2DB.MySql
