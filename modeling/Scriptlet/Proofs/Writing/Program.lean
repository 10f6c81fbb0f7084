import Scriptlet.Proofs.Parser.Program
import Scriptlet.Proofs.Writing.Expression

/-!
# Reading undoes writing

What is written as a program stands for it in the grammar. Hence reading gives the program back, as
long as its nesting stays within the limits, and reading fails if it does not.

A statement that ends in a branch without `else` is a phrase only if no `else` follows. In a
program none ever does: the branches in front of an `else` do not end in that way, and nothing else
is followed by one.

## Main definitions

* `Stmt.Declares` — a written statement is a phrase

## Main results

* `Stmt.Writable.declares` — every written statement is a phrase
* `yields_writing_iff` — a written program is read as that program if its nesting stays within the
  limits
-/

namespace Scriptlet

open Grammar

/-! ## Expressions in statements -/

/-- An expression in a statement, in front of a token that ends it. -/
theorem Writing.Fits.expression {writing : Writing} {tree : Expr} (h : writing.Fits tree 0)
    {tokens : List Token} (hspelled : (writing.deeper .expression).Spelled tokens)
    {next : TokenKind} (hstops : Stops 0 next) :
    ∃ openings, Expression tokens next tree openings ∧
      (writing.levels.more .expression).Measure openings := by
  obtain ⟨openings, hphrase, hmeasure⟩ :=
    h.entered hspelled.deeper (Nat.le_refl (writing.levels.more .expression).expression) hstops
  exact ⟨openings, ⟨_, hphrase⟩, hmeasure⟩

theorem Writing.Fits.guarded {writing : Writing} {tree : Expr} (h : writing.Fits tree 0) :
    writing.guarded.Fits tree 0 := by
  unfold Writing.guarded
  split
  · exact h.parenthesised.lower (by decide) (by decide)
  · exact h

/-- A guarded expression does not start with the word `print`. -/
theorem Writing.Spelled.guarded_ahead {writing : Writing} {tokens : List Token}
    (h : writing.guarded.Spelled tokens) {next : TokenKind} (hnext : next ≠ .kwPrint) :
    kindAhead tokens next ≠ .kwPrint := by
  have hhead := h.head_kind
  have hguarded : writing.guarded.pieces.head?.map Piece.kind ≠ some .kwPrint := by
    unfold Writing.guarded
    split
    · exact nofun
    · assumption
  cases tokens with
  | nil => exact hnext
  | cons token rest =>
    intro hkind
    refine hguarded (hhead.symm.trans ?_)
    exact congrArg some hkind

/-! ## Statements -/

/-- A written statement is a phrase for it, if it is not followed by an `else` that would belong to
it. It can stand wherever a declaration can, and if it is no function, wherever a statement can. -/
def Stmt.Declares (statement : Stmt) : Prop :=
  ∀ ⦃tokens⦄, statement.writing.Spelled tokens →
    ∀ ⦃levels⦄, statement.writing.levels.statement ≤ levels →
      ∀ ⦃next⦄, (statement.EndsOpen → next ≠ .kwElse) →
        ∃ openings, DeclarationWithin levels tokens next statement openings ∧
          (¬ statement.IsFunction → StatementWithin levels tokens next statement openings) ∧
            statement.writing.levels.Measure openings

/-- What is left to show of a statement that is no function: that it has the form of a statement
inside the level that it opens. -/
theorem declares_of_form {statement : Stmt} {writing : Writing}
    (hwriting : statement.writing = writing.deeper .statement)
    (h : ∀ ⦃tokens⦄, writing.Spelled tokens → ∀ ⦃levels⦄, writing.levels.statement ≤ levels →
      ∀ ⦃next⦄, (statement.EndsOpen → next ≠ .kwElse) →
        ∃ openings, StatementForm (StatementWithin levels) (DeclarationWithin levels) tokens next
          statement openings ∧ writing.levels.Measure openings) :
    statement.Declares := by
  intro tokens hspelled levels hlevels next hnext
  rw [hwriting] at hspelled hlevels ⊢
  obtain ⟨levels, rfl⟩ : ∃ less, levels = less + 1 :=
    Nat.exists_eq_succ_of_ne_zero (Nat.ne_of_gt (Nat.lt_of_lt_of_le (Nat.succ_pos _) hlevels))
  obtain ⟨openings, hform, hmeasure⟩ :=
    h hspelled.deeper (Nat.le_of_succ_le_succ hlevels) hnext
  obtain ⟨token, rest, rfl, _⟩ := StatementForm.starts hform
  have hstatement : StatementWithin (levels + 1) (token :: rest) next statement
      (⟨.statement, token, 0⟩ :: openings.map (.deeper .statement)) := .intro hform
  exact ⟨_, .statement hstatement, fun _ => hstatement, hmeasure.deeper .statement token⟩

theorem declares_expression {value : Expr} (h : value.Writable) :
    (Stmt.expression value).Declares := by
  refine declares_of_form rfl ?_
  intro tokens hspelled levels _ next _
  obtain ⟨before, _, rfl, hbefore, hmark⟩ := hspelled.append
  obtain ⟨mark, rfl, isMark⟩ := hmark.mark
  have hstops : Stops 0 .semicolon := by decide
  obtain ⟨openings, hphrase, hmeasure⟩ := h.fits.guarded.expression hbefore hstops
  have hahead : kindAhead (before ++ [mark]) next ≠ .kwPrint := by
    rw [kindAhead_append, kindAhead_cons, isMark]
    exact hbefore.deeper.guarded_ahead (by decide)
  refine ⟨openings, .expression (.semicolon hphrase isMark) hahead, ?_⟩
  rwa [Writing.levels_append, Writing.levels_mark, Limits.max_zero]

theorem declares_print {value : Expr} (h : value.Writable) : (Stmt.print value).Declares := by
  refine declares_of_form rfl ?_
  intro tokens hspelled levels _ next _
  obtain ⟨before, _, rfl, hbefore, hmark⟩ := hspelled.append
  obtain ⟨_, inside, rfl, hkeyword, hinside⟩ := hbefore.append
  obtain ⟨mark, rfl, isMark⟩ := hmark.mark
  obtain ⟨keyword, rfl, isPrint⟩ := hkeyword.mark
  have hstops : Stops 0 .semicolon := by decide
  obtain ⟨openings, hphrase, hmeasure⟩ := h.fits.expression hinside hstops
  refine ⟨openings, .print isPrint (.semicolon hphrase isMark), ?_⟩
  simpa using hmeasure

theorem declares_ret {keyword : Token} (h : keyword.kind = .kwReturn) :
    (Stmt.ret keyword none).Declares := by
  refine declares_of_form rfl ?_
  intro tokens hspelled levels _ next _
  obtain ⟨_, _, rfl, hkeyword, hmark⟩ := hspelled.append
  obtain ⟨mark, rfl, isMark⟩ := hmark.mark
  obtain rfl := hkeyword.held
  exact ⟨[], .returnMarked h isMark, Limits.measure_nil⟩

theorem declares_retValue {keyword : Token} {value : Expr} (h : keyword.kind = .kwReturn)
    (hvalue : value.Writable) : (Stmt.ret keyword (some value)).Declares := by
  refine declares_of_form rfl ?_
  intro tokens hspelled levels _ next _
  obtain ⟨before, _, rfl, hbefore, hmark⟩ := hspelled.append
  obtain ⟨_, inside, rfl, hkeyword, hinside⟩ := hbefore.append
  obtain ⟨mark, rfl, isMark⟩ := hmark.mark
  obtain rfl := hkeyword.held
  have hstops : Stops 0 .semicolon := by decide
  obtain ⟨openings, hphrase, hmeasure⟩ := hvalue.fits.expression hinside hstops
  refine ⟨openings, .returnValue h (.semicolon hphrase isMark), ?_⟩
  simpa using hmeasure

/-- A keyword, a condition and another keyword: how branches and loops start. -/
theorem exists_condition {first second : TokenKind} {condition : Expr} (h : condition.Writable)
    (hstops : Stops 0 second) {tokens : List Token} (hspelled :
      (.mark first ++ condition.writing.deeper .expression ++ .mark second : Writing).Spelled
        tokens) :
    ∃ keyword word inside openings, tokens = keyword :: (inside ++ [word]) ∧
      keyword.kind = first ∧ word.kind = second ∧ Expression inside second condition openings ∧
        (condition.writing.levels.more .expression).Measure openings := by
  obtain ⟨before, _, rfl, hbefore, hsecond⟩ := hspelled.append
  obtain ⟨_, inside, rfl, hfirst, hinside⟩ := hbefore.append
  obtain ⟨keyword, rfl, isFirst⟩ := hfirst.mark
  obtain ⟨word, rfl, isSecond⟩ := hsecond.mark
  obtain ⟨openings, hphrase, hmeasure⟩ := h.fits.expression hinside hstops
  exact ⟨keyword, word, inside, openings, rfl, isFirst, isSecond, hphrase, hmeasure⟩

theorem declares_branch {condition : Expr} {yes : Stmt} (h : condition.Writable)
    (hyes : yes.Declares) (plain : ¬ yes.IsFunction) :
    (Stmt.branch condition yes none).Declares := by
  refine declares_of_form rfl ?_
  intro tokens hspelled levels hlevels next hnext
  obtain ⟨_, later, rfl, hcondition, hlater⟩ := hspelled.append
  obtain ⟨keyword, word, inside, openings, rfl, isIf, isThen, hphrase, hmeasure⟩ :=
    exists_condition h (by decide) hcondition
  rw [Writing.levels_append] at hlevels ⊢
  have hnext : next ≠ .kwElse := hnext trivial
  obtain ⟨added, -, hstatement, hadded⟩ :=
    hyes hlater (Nat.max_le.mp hlevels).2 fun _ => hnext
  refine ⟨openings ++ added, ?_, ?_⟩
  · rw [List.cons_append, List.append_assoc, List.singleton_append]
    exact .branch isIf hphrase isThen (hstatement plain) hnext
  · simpa using hmeasure.append hadded

theorem declares_branchElse {condition : Expr} {yes no : Stmt} (h : condition.Writable)
    (hyes : yes.Declares) (plain : ¬ yes.IsFunction) (closed : ¬ yes.EndsOpen)
    (hno : no.Declares) (plainNo : ¬ no.IsFunction) :
    (Stmt.branch condition yes (some no)).Declares := by
  refine declares_of_form rfl ?_
  intro tokens hspelled levels hlevels next hnext
  obtain ⟨before, last, rfl, hbefore, hlast⟩ := hspelled.append
  obtain ⟨start, _, rfl, hstart, hmark⟩ := hbefore.append
  obtain ⟨_, later, rfl, hcondition, hlater⟩ := hstart.append
  obtain ⟨other, rfl, isElse⟩ := hmark.mark
  obtain ⟨keyword, word, inside, openings, rfl, isIf, isThen, hphrase, hmeasure⟩ :=
    exists_condition h (by decide) hcondition
  simp only [Writing.levels_append, Writing.levels_mark, Limits.max_zero, Limits.zero_max,
    Writing.levels_deeper] at hlevels ⊢
  obtain ⟨hlaterLevels, hlastLevels⟩ := Nat.max_le.mp hlevels
  obtain ⟨added, -, hyesPhrase, hadded⟩ :=
    hyes hlater (Nat.max_le.mp hlaterLevels).2 fun hopen => absurd hopen closed
  obtain ⟨more, -, hnoPhrase, hmore⟩ := hno hlast hlastLevels hnext
  refine ⟨openings ++ (added ++ more), ?_, ?_⟩
  · simp only [List.cons_append, List.append_assoc, List.nil_append]
    exact .branchElse isIf hphrase isThen (hyesPhrase plain) isElse (hnoPhrase plainNo)
  · rw [← List.append_assoc]
    exact (hmeasure.append hadded).append hmore

theorem declares_loop {condition : Expr} {body : Stmt} (h : condition.Writable)
    (hbody : body.Declares) (plain : ¬ body.IsFunction) :
    (Stmt.loop condition body).Declares := by
  refine declares_of_form rfl ?_
  intro tokens hspelled levels hlevels next hnext
  obtain ⟨_, later, rfl, hcondition, hlater⟩ := hspelled.append
  obtain ⟨keyword, word, inside, openings, rfl, isWhile, isDo, hphrase, hmeasure⟩ :=
    exists_condition h (by decide) hcondition
  rw [Writing.levels_append] at hlevels ⊢
  obtain ⟨added, -, hstatement, hadded⟩ := hbody hlater (Nat.max_le.mp hlevels).2 hnext
  refine ⟨openings ++ added, ?_, ?_⟩
  · rw [List.cons_append, List.append_assoc, List.singleton_append]
    exact .loop isWhile hphrase isDo (hstatement plain)
  · simpa using hmeasure.append hadded

/-! ## Sequences and functions -/

/-- No declaration starts with an `else`. -/
theorem sequence_ahead {levels : Nat} {tokens : List Token} {next : TokenKind}
    {trees : List Stmt} {openings : List Opening}
    (h : Sequence (DeclarationWithin levels) tokens next trees openings) (hnext : next ≠ .kwElse) :
    kindAhead tokens next ≠ .kwElse := by
  cases h with
  | stop => exact hnext
  | @step tokens rest _ tree trees _ _ first others =>
    have hstarts := (DeclarationWithin.starts levels).ahead first (kindAhead rest next)
    rw [kindAhead_append]
    intro helse
    rw [helse] at hstarts
    exact absurd hstarts (by decide)

theorem sequence_of_declares {body : List Stmt} (h : ∀ statement ∈ body, statement.Declares)
    {tokens : List Token} (hspelled : (Stmt.writings body).Spelled tokens) {levels : Nat}
    (hlevels : (Stmt.writings body).levels.statement ≤ levels) {next : TokenKind}
    (hnext : next ≠ .kwElse) :
    ∃ openings, Sequence (DeclarationWithin levels) tokens next body openings ∧
      (Stmt.writings body).levels.Measure openings := by
  induction body generalizing tokens with
  | nil =>
    cases hspelled
    exact ⟨[], .stop, Limits.measure_nil⟩
  | cons statement body ih =>
    obtain ⟨hfirst, hothers⟩ := List.forall_mem_cons.mp h
    obtain ⟨before, later, rfl, hbefore, hlater⟩ := hspelled.append
    obtain ⟨hfirstLevels, hlaterLevels⟩ := Nat.max_le.mp hlevels
    obtain ⟨added, hsequence, hadded⟩ := ih hothers hlater hlaterLevels
    obtain ⟨openings, hdeclaration, -, hmeasure⟩ :=
      hfirst hbefore hfirstLevels fun _ => sequence_ahead hsequence hnext
    exact ⟨openings ++ added, .step hdeclaration hsequence, hmeasure.append hadded⟩

theorem braced_of_declares {body : List Stmt} (h : ∀ statement ∈ body, statement.Declares)
    {tokens : List Token} (hspelled : (Stmt.writings body).braced.Spelled tokens) {levels : Nat}
    (hlevels : (Stmt.writings body).levels.statement ≤ levels) (next : TokenKind) :
    ∃ openings, Braced (DeclarationWithin levels) tokens next body openings ∧
      (Stmt.writings body).levels.Measure openings := by
  obtain ⟨before, _, rfl, hbefore, hright⟩ := hspelled.append
  obtain ⟨_, inside, rfl, hleft, hinside⟩ := hbefore.append
  obtain ⟨left, rfl, isLeft⟩ := hleft.mark
  obtain ⟨right, rfl, isRight⟩ := hright.mark
  have hnext : TokenKind.rightBrace ≠ .kwElse := by decide
  obtain ⟨openings, hsequence, hmeasure⟩ := sequence_of_declares h hinside hlevels hnext
  exact ⟨openings, .intro isLeft hsequence isRight, hmeasure⟩

theorem declares_block {body : List Stmt} (h : ∀ statement ∈ body, statement.Declares) :
    (Stmt.block body).Declares := by
  refine declares_of_form rfl ?_
  intro tokens hspelled levels hlevels next _
  rw [Writing.levels_braced] at hlevels ⊢
  obtain ⟨openings, hbraced, hmeasure⟩ := braced_of_declares h hspelled hlevels next
  exact ⟨openings, .block hbraced, hmeasure⟩

theorem enters_params {params : List Token} (h : ∀ param ∈ params, param.kind = .identifier)
    (levels : Nat) : List.Forall₂ (Writing.Enters Parameter levels) (params.map .held) params := by
  induction params with
  | nil => exact .nil
  | cons param params ih =>
    obtain ⟨hfirst, hothers⟩ := List.forall_mem_cons.mp h
    refine .cons ?_ (ih hothers)
    intro tokens hspelled _ next _
    obtain rfl := hspelled.held
    exact ⟨[], .intro hfirst, Limits.measure_nil⟩

theorem declares_function {name : Token} {params : List Token} {body : List Stmt}
    (isName : name.kind = .identifier) (hparams : ∀ param ∈ params, param.kind = .identifier)
    (count : params.length ≤ 255) (h : ∀ statement ∈ body, statement.Declares) :
    (Stmt.function name params body).Declares := by
  intro tokens hspelled levels hlevels next _
  obtain ⟨_, tokens, rfl, hkeyword, hinside⟩ := hspelled.append
  obtain ⟨keyword, rfl, isFunction⟩ := hkeyword.mark
  obtain ⟨before, later, rfl, hbefore, hbody⟩ := hinside.deeper.append
  obtain ⟨start, _, rfl, hstart, hright⟩ := hbefore.append
  obtain ⟨first, inside, rfl, hfirst, hlist⟩ := hstart.append
  obtain ⟨_, _, rfl, hname, hleft⟩ := hfirst.append
  obtain rfl := hname.held
  obtain ⟨left, rfl, isLeft⟩ := hleft.mark
  obtain ⟨right, rfl, isRight⟩ := hright.mark
  simp only [Stmt.writing, Writing.levels_append, Writing.levels_mark, Writing.levels_held,
    Writing.levels_deeper, Writing.levels_braced, Limits.zero_max, Limits.max_zero] at hlevels ⊢
  obtain ⟨levels, rfl⟩ : ∃ less, levels = less + 1 :=
    Nat.exists_eq_succ_of_ne_zero (Nat.ne_of_gt (Nat.lt_of_lt_of_le (Nat.succ_pos _) hlevels))
  obtain ⟨openings, hentries, hmeasure⟩ := Writing.entries_of_enters (enters_params hparams _) count
    hlist (Nat.le_refl _)
  obtain ⟨added, hbraced, hadded⟩ := braced_of_declares h hbody
    (Nat.max_le.mp (Nat.le_of_succ_le_succ hlevels)).2 next
  have hform := FunctionForm.intro isName isLeft hentries isRight hbraced
  refine ⟨_, .function isFunction ?_, fun hplain => absurd trivial hplain,
    (hmeasure.append hadded).deeper .statement name⟩
  simp only [List.cons_append, List.append_assoc, List.nil_append]
  exact .intro hform

/-- **A written statement is a phrase for it.** -/
theorem Stmt.Writable.declares {statement : Stmt} (h : statement.Writable) :
    statement.Declares := by
  induction h with
  | expression hvalue => exact declares_expression hvalue
  | print hvalue => exact declares_print hvalue
  | block _ ih => exact declares_block ih
  | branch hcondition _ plain ih => exact declares_branch hcondition ih plain
  | branchElse hcondition _ plain closed _ plainNo ih ihno =>
    exact declares_branchElse hcondition ih plain closed ihno plainNo
  | loop hcondition _ plain ih => exact declares_loop hcondition ih plain
  | function isName hparams count _ ih => exact declares_function isName hparams count ih
  | ret isReturn => exact declares_ret isReturn
  | retValue isReturn hvalue => exact declares_retValue isReturn hvalue

/-! ## Programs -/

/-- A written program is a program of the grammar. -/
theorem program_of_writable {program : List Stmt}
    (h : ∀ statement ∈ program, statement.Writable) {tokens : List Token}
    (hspelled : (Stmt.writings program).Spelled tokens) :
    ∃ openings, Program tokens program openings ∧
      (Stmt.writings program).levels.Measure openings := by
  have hnext : TokenKind.endOfInput ≠ .kwElse := by decide
  obtain ⟨openings, hsequence, hmeasure⟩ := sequence_of_declares
    (fun statement hmem => (h statement hmem).declares) hspelled (Nat.le_refl _) hnext
  exact ⟨openings, Sequence.mono (fun _ _ _ _ hdeclaration => ⟨_, hdeclaration⟩) hsequence, hmeasure⟩

/-- **Reading undoes writing.** The tokens of a written program, with an end mark and anything
behind it or with nothing behind them, are read as that program without an error, exactly if its
nesting stays within the limits. -/
theorem yields_writing_iff {program : List Stmt} (h : ∀ statement ∈ program, statement.Writable)
    {tokens rest : List Token} (hspelled : (Stmt.writings program).Spelled tokens)
    (hrest : kindAhead rest .endOfInput = .endOfInput) :
    Yields (tokens ++ rest) program ↔
      (Stmt.writings program).levels.expression ≤ maxNesting ∧
        (Stmt.writings program).levels.statement ≤ maxStatementNesting := by
  obtain ⟨openings, hprogram, hmeasure⟩ := program_of_writable h hspelled
  rw [yields_iff_allow hprogram hrest]
  exact hmeasure Limits.program

namespace Sample

/-- A token at no place in particular. -/
def token (kind : TokenKind) (lexeme : String) : Token := ⟨kind, lexeme, .unknown⟩

/-- A branch in which an assignment to `print`, a difference on the right of a difference, a call
of a call and a `return` without a value have to be written. -/
def program : List Stmt :=
  [.branch (.unary (token .kwNot "not") (.var (token .identifier "a")))
    (.expression (.assign (token .kwPrint "print")
      (.binary (.var (token .identifier "a")) (token .minus "-")
        (.binary (.var (token .identifier "b")) (token .minus "-") (.literal (.integer 1))))))
    (some (.block
      [.print (.call (.call (.var (token .identifier "f")) (token .rightParen ")")
          [.literal (.string "s"), .literal (.boolean true)]) (token .rightParen ")") []),
        .ret (token .kwReturn "return") none]))]

/-- `if not a then (print = a - (b - 1)); else { print f("s", true)(); return; }` -/
def tokens : List Token :=
  [token .kwIf "if", token .kwNot "not", token .identifier "a", token .kwThen "then",
    token .leftParen "(", token .kwPrint "print", token .assign "=", token .identifier "a",
    token .minus "-", token .leftParen "(", token .identifier "b", token .minus "-",
    token .number "1", token .rightParen ")", token .rightParen ")", token .semicolon ";",
    token .kwElse "else", token .leftBrace "\x7b", token .kwPrint "print", token .identifier "f",
    token .leftParen "(", token .string "s", token .comma ",", token .kwTrue "true",
    token .rightParen ")", token .leftParen "(", token .rightParen ")", token .semicolon ";",
    token .kwReturn "return", token .semicolon ";", token .rightBrace "\x7d"]

theorem writable_program : ∀ statement ∈ program, statement.Writable := by
  have hname (lexeme : String) : (Expr.var (token .identifier lexeme)).Writable :=
    .var (.head _)
  have hvalue : ∀ value ∈ [Expr.literal (.string "s"), .literal (.boolean true)],
      value.Writable := by
    intro value hmem
    obtain rfl | rfl : value = _ ∨ value = _ := by simpa using hmem
    all_goals exact .literal nofun
  intro statement hmem
  obtain rfl := List.mem_singleton.mp hmem
  refine .branchElse (.unary (by decide) (hname "a")) (.expression (.assign (by decide)
    (.binary (by decide) (hname "a") (.binary (by decide) (hname "b") (.literal nofun)))))
    nofun nofun (.block fun inner hinner => ?_) nofun
  obtain rfl | rfl : inner = _ ∨ inner = _ := by simpa using hinner
  · exact .print (.call (.call (hname "f") rfl hvalue (by decide)) rfl nofun (by decide))
  · exact .ret rfl

theorem spelled_tokens : (Stmt.writings program).Spelled tokens := by decide +kernel

/-- The program is read back from its tokens. -/
theorem yields_tokens : (∀ statement ∈ program, statement.Writable) ∧
    (Stmt.writings program).Spelled tokens ∧ Yields (tokens ++ []) program :=
  ⟨writable_program, spelled_tokens,
    (yields_writing_iff writable_program spelled_tokens rfl).mpr (by decide +kernel)⟩

end Sample

end Scriptlet
