import Scriptlet.Proofs.Grammar.Statement
import Scriptlet.Proofs.Parser.Complete.Expression

/-!
# Every program of the grammar is read

The forms of statements are treated as those of expressions were. An error that the nesting causes
is fatal, so recovery passes it on. All levels of expressions are closed between statements, and
so each expression of a program has the same limit.

## Main results

* `Parse.follows_statementForm`, `follows_functionForm`, `follows_declarationForm` — one result
  for each form
* `Parse.settles_declaration`, `Parse.settles_program` — declarations and programs are read
-/

namespace Scriptlet

namespace Parse

open Grammar

variable {α β : Type} {limits : Limits} {depth : Nat}

/-! ## Semicolons and braces -/

theorem optionalSemicolon_facing {mark : Token} (h : mark.kind = .semicolon) (parser : Parser)
    (rest : List Token) :
    optionalSemicolon (parser.facing (mark :: rest)) = .ok () (parser.facing rest) := by
  rw [optionalSemicolon, bind_of_ok (accept_facing parser rest h (by decide))]
  rfl

theorem optionalSemicolon_facing_none {rest : List Token}
    (h : kindAhead rest .endOfInput ≠ .semicolon) (parser : Parser) :
    optionalSemicolon (parser.facing rest) = .ok () (parser.facing rest) := by
  rw [optionalSemicolon, bind_of_ok (accept_facing_none parser rest h)]
  rfl

theorem settles_ended {read : Parse α} {phrase : Phrase α}
    (hread : Follows read phrase limits depth) (change : α → β) {tokens : List Token}
    {next : TokenKind} {tree : α} {openings : List Opening}
    (h : Ended phrase tokens next tree openings) (parser : Parser) (rest : List Token)
    (hdepth : parser.depth = depth) (hnext : kindAhead rest .endOfInput = next) :
    Settles ((do let value ← read; optionalSemicolon; return change value : Parse β)
        (parser.facing (tokens ++ rest)))
      (limits.firstError openings) (change tree) (parser.facing rest) := by
  cases h with
  | @semicolon tokens mark _ tree openings before sign =>
    rw [List.append_assoc, List.singleton_append]
    refine (hread before parser (mark :: rest) hdepth sign).bind_ok ?_
    rw [bind_of_ok (optionalSemicolon_facing sign parser rest)]
    rfl
  | bare before stop =>
    refine (hread before parser rest hdepth hnext).bind_ok ?_
    rw [bind_of_ok (optionalSemicolon_facing_none (by rwa [hnext]) parser)]
    rfl

section Statements

variable {function statement declaration : Parse Stmt}
variable {functionPhrase statementPhrase declarationPhrase : Phrase Stmt}

/-- Each declaration is read from the parser in front of it, so it is enough to know how one is read
from a parser that differs in the tokens that are left. -/
theorem settles_declarationsUntil {ends : TokenKind → Prop} [DecidablePred ends] {parser : Parser}
    (hdeclaration : ∀ ⦃tokens next tree openings⦄, declarationPhrase tokens next tree openings →
      ∀ rest, kindAhead rest .endOfInput = next →
        Settles (declaration (parser.facing (tokens ++ rest))) (limits.firstError openings) tree
          (parser.facing rest))
    (hstarts : StartsWith declarationPhrase (¬ ends ·)) {tokens : List Token}
    {next : TokenKind} {trees : List Stmt} {openings : List Opening}
    (h : Sequence declarationPhrase tokens next trees openings) (hend : ends next)
    (rest : List Token) (hnext : kindAhead rest .endOfInput = next) (rounds : List Token)
    (hrounds : (tokens ++ rest).length < rounds.length) (done : Array Stmt) :
    Settles (declarationsUntil ends declaration rounds done (parser.facing (tokens ++ rest)))
      (limits.firstError openings) (done ++ trees.toArray) (parser.facing rest) := by
  induction h generalizing rounds done with
  | stop =>
    obtain ⟨round, rounds, rfl⟩ := List.exists_cons_of_length_pos (Nat.zero_lt_of_lt hrounds)
    rw [List.nil_append, declarationsUntil, bind_of_ok (current_facing parser rest),
      Parser.current_kind_facing, hnext, if_pos hend, Array.append_empty]
    rfl
  | @step tokens later next tree trees openings _ first others ih =>
    obtain ⟨round, rounds, rfl⟩ := List.exists_cons_of_length_pos (Nat.zero_lt_of_lt hrounds)
    have hfirst := hstarts.ahead first (kindAhead (later ++ rest) .endOfInput)
    rw [← kindAhead_append] at hfirst
    rw [List.append_assoc, declarationsUntil, bind_of_ok (current_facing parser _),
      Parser.current_kind_facing, if_neg hfirst, Limits.firstError_append]
    refine (hdeclaration first (later ++ rest) ?_).bind ?_
    · rw [kindAhead_append, hnext]
    · obtain ⟨token, tokens, rfl, _⟩ := hstarts first
      have hlater := ih hend hnext rounds (by simp at hrounds ⊢; omega) (done.push tree)
      simpa using hlater

theorem settles_block (hdeclaration : Follows declaration declarationPhrase limits depth)
    (hstarts : StartsWith declarationPhrase (¬ EndsSequence ·)) {tokens : List Token}
    {right : Token} {body : List Stmt} {openings : List Opening}
    (h : Sequence declarationPhrase tokens .rightBrace body openings)
    (isRight : right.kind = .rightBrace) (parser : Parser) (rest : List Token)
    (hdepth : parser.depth = depth) :
    Settles (block declaration (parser.facing (tokens ++ right :: rest)))
      (limits.firstError openings) body (parser.facing rest) := by
  rw [block, bind_of_ok (rounds_facing parser _), declarationsFrom_eq]
  refine (settles_declarationsUntil
    (fun _ _ _ _ first rest hnext => hdeclaration first parser rest hdepth hnext) hstarts h
    (.inl rfl) (right :: rest) isRight _ (by simp) #[]).bind_ok ?_
  rw [bind_of_ok (expect_facing parser rest isRight (by decide) _), Array.empty_append]
  rfl

/-! ## Forms of statements -/

theorem settles_returnForm {keyword : Token} {tokens : List Token} {next : TokenKind}
    {value : Expr} {openings : List Opening} {statements : Nat}
    (h : Ended Expression tokens next value openings) (parser : Parser) (rest : List Token)
    (hdepth : parser.depth = depth) (hnext : kindAhead rest .endOfInput = next) :
    Settles (returnForm keyword (parser.facing (tokens ++ rest)))
      (Limits.firstError ⟨maxNesting - depth, statements⟩ openings) (.ret keyword (some value))
      (parser.facing rest) := by
  have hfirst := (Ended.starts Expression.starts).ahead h (kindAhead rest .endOfInput)
  rw [← kindAhead_append] at hfirst
  rw [returnForm, bind_of_ok (current_facing parser _), Parser.current_kind_facing, if_neg]
  · exact settles_ended (follows_expression statements depth) (Stmt.ret keyword ∘ some) h parser
      rest hdepth hnext
  · rintro (hkind | hkind | hkind) <;>
      exact absurd (hkind ▸ hfirst) (by decide)

theorem returnForm_facing_semicolon {mark : Token} (h : mark.kind = .semicolon) (keyword : Token)
    (parser : Parser) (rest : List Token) :
    returnForm keyword (parser.facing (mark :: rest)) =
      .ok (.ret keyword none) (parser.facing rest) := by
  rw [returnForm, bind_of_ok (current_facing_cons parser rest mark), if_pos (.inl h),
    bind_of_ok (optionalSemicolon_facing h parser rest)]
  rfl

theorem returnForm_facing_end {rest : List Token}
    (h : EndsSequence (kindAhead rest .endOfInput)) (keyword : Token) (parser : Parser) :
    returnForm keyword (parser.facing rest) = .ok (.ret keyword none) (parser.facing rest) := by
  have hmark : kindAhead rest .endOfInput ≠ .semicolon := by
    rcases h with h | h <;> simp [h]
  rw [returnForm, bind_of_ok (current_facing parser rest), Parser.current_kind_facing,
    if_pos (.inr h), bind_of_ok (optionalSemicolon_facing_none hmark parser)]
  rfl

theorem settles_branchForm {statements : Nat} {condition : Expr} {yes : Stmt} {word : Token}
    {tokens later : List Token} {next : TokenKind} {openings added : List Opening}
    (hstatement : Follows statement statementPhrase ⟨maxNesting - depth, statements⟩ depth)
    (first : Expression tokens .kwThen condition openings) (isThen : word.kind = .kwThen)
    (second : statementPhrase later next yes added) (stop : next ≠ .kwElse) (parser : Parser)
    (rest : List Token) (hdepth : parser.depth = depth)
    (hnext : kindAhead rest .endOfInput = next) :
    Settles (branchForm statement (parser.facing (tokens ++ word :: (later ++ rest))))
      (Limits.firstError ⟨maxNesting - depth, statements⟩ (openings ++ added))
      (.branch condition yes none) (parser.facing rest) := by
  rw [Limits.firstError_append]
  refine (follows_expression statements depth first parser (word :: (later ++ rest)) hdepth
    isThen).bind ?_
  rw [bind_of_ok (expect_facing parser _ isThen (by decide) _)]
  refine (hstatement second parser rest hdepth hnext).bind_ok ?_
  rw [bind_of_ok (accept_facing_none parser rest (by rwa [hnext]))]
  rfl

theorem settles_branchForm_else {statements : Nat} {condition : Expr} {yes no : Stmt}
    {word other : Token} {tokens later last : List Token} {next : TokenKind}
    {openings added more : List Opening}
    (hstatement : Follows statement statementPhrase ⟨maxNesting - depth, statements⟩ depth)
    (first : Expression tokens .kwThen condition openings) (isThen : word.kind = .kwThen)
    (second : statementPhrase later .kwElse yes added) (isElse : other.kind = .kwElse)
    (third : statementPhrase last next no more) (parser : Parser) (rest : List Token)
    (hdepth : parser.depth = depth) (hnext : kindAhead rest .endOfInput = next) :
    Settles (branchForm statement
        (parser.facing (tokens ++ word :: (later ++ other :: (last ++ rest)))))
      (Limits.firstError ⟨maxNesting - depth, statements⟩ (openings ++ (added ++ more)))
      (.branch condition yes (some no)) (parser.facing rest) := by
  rw [Limits.firstError_append, Limits.firstError_append]
  refine (follows_expression statements depth first parser
    (word :: (later ++ other :: (last ++ rest))) hdepth isThen).bind ?_
  rw [bind_of_ok (expect_facing parser _ isThen (by decide) _)]
  refine (hstatement second parser (other :: (last ++ rest)) hdepth isElse).bind ?_
  rw [bind_of_ok (accept_facing parser _ isElse (by decide))]
  exact (hstatement third parser rest hdepth hnext).bind_ok rfl

theorem settles_loopForm {statements : Nat} {condition : Expr} {body : Stmt} {word : Token}
    {tokens later : List Token} {next : TokenKind} {openings added : List Opening}
    (hstatement : Follows statement statementPhrase ⟨maxNesting - depth, statements⟩ depth)
    (first : Expression tokens .kwDo condition openings) (isDo : word.kind = .kwDo)
    (second : statementPhrase later next body added) (parser : Parser) (rest : List Token)
    (hdepth : parser.depth = depth) (hnext : kindAhead rest .endOfInput = next) :
    Settles (loopForm statement (parser.facing (tokens ++ word :: (later ++ rest))))
      (Limits.firstError ⟨maxNesting - depth, statements⟩ (openings ++ added))
      (.loop condition body) (parser.facing rest) := by
  rw [Limits.firstError_append]
  refine (follows_expression statements depth first parser (word :: (later ++ rest)) hdepth
    isDo).bind ?_
  rw [bind_of_ok (expect_facing parser _ isDo (by decide) _)]
  exact (hstatement second parser rest hdepth hnext).bind_ok rfl

theorem follows_statementForm {statements : Nat}
    (hstatement : Follows statement statementPhrase ⟨maxNesting - depth, statements⟩ depth)
    (hdeclaration : Follows declaration declarationPhrase ⟨maxNesting - depth, statements⟩ depth)
    (hstarts : StartsWith declarationPhrase (¬ EndsSequence ·)) :
    Follows (statementForm statement declaration) (StatementForm statementPhrase declarationPhrase)
      ⟨maxNesting - depth, statements⟩ depth := by
  have hexpression := follows_expression statements depth
  intro tokens next tree openings h parser rest hdepth hnext
  cases h with
  | expression alone noPrint =>
    obtain ⟨token, later, rfl, hkind⟩ := Ended.starts Expression.starts alone
    have hform : ¬ HasForm token.kind := by
      intro hform
      have hother : ∀ kind, HasForm kind → startsExpression kind → kind = .kwPrint := by decide
      exact noPrint (hother _ hform hkind)
    rw [List.cons_append,
      statementForm_eq_expression _ _ (parser.facing (token :: (later ++ rest))) hform]
    exact settles_ended hexpression Stmt.expression alone parser rest hdepth hnext
  | print isPrint behind =>
    rw [List.cons_append, statementForm_facing_print _ _ parser _ isPrint]
    exact settles_ended hexpression Stmt.print behind parser rest hdepth hnext
  | returnValue isReturn behind =>
    rw [List.cons_append, statementForm_facing_return _ _ parser _ isReturn]
    exact settles_returnForm behind parser rest hdepth hnext
  | returnMarked isReturn sign =>
    rw [List.cons_append, statementForm_facing_return _ _ parser _ isReturn]
    exact returnForm_facing_semicolon sign _ parser rest
  | returnBare isReturn stop =>
    rw [List.cons_append, statementForm_facing_return _ _ parser _ isReturn]
    exact returnForm_facing_end (hnext ▸ stop) _ parser
  | block braced =>
    obtain ⟨isLeft, inside, isRight⟩ := braced
    rw [List.cons_append, List.append_assoc, statementForm_facing_brace _ _ parser _ isLeft]
    exact (settles_block hdeclaration hstarts inside isRight parser rest hdepth).bind_ok rfl
  | branch isIf first isThen second stop =>
    rw [List.cons_append, List.append_assoc, List.cons_append,
      statementForm_facing_if _ _ parser _ isIf]
    exact settles_branchForm hstatement first isThen second stop parser rest hdepth hnext
  | branchElse isIf first isThen second isElse third =>
    rw [List.cons_append, List.append_assoc, List.cons_append, List.append_assoc,
      List.cons_append, statementForm_facing_if _ _ parser _ isIf]
    exact settles_branchForm_else hstatement first isThen second isElse third parser rest hdepth
      hnext
  | loop isWhile first isDo second =>
    rw [List.cons_append, List.append_assoc, List.cons_append,
      statementForm_facing_while _ _ parser _ isWhile]
    exact settles_loopForm hstatement first isDo second parser rest hdepth hnext

/-! ## Declarations -/

theorem follows_parameter (cause : ParseCause) :
    Follows (expect .identifier cause) Parameter limits depth := by
  rintro _ next tree _ ⟨isName⟩ parser rest hdepth hnext
  exact expect_facing parser rest isName (by decide) cause

theorem follows_functionForm (hdeclaration : Follows declaration declarationPhrase limits depth)
    (hstarts : StartsWith declarationPhrase (¬ EndsSequence ·)) :
    Follows (functionForm declaration) (FunctionForm declarationPhrase) limits depth := by
  rintro _ next tree _ ⟨isName, isLeft, inside, isRight, braced⟩ parser rest hdepth hnext
  rename_i name left right tokens later params body openings _
  obtain ⟨isOpen, body, isClosed⟩ := braced
  have hparameter : StartsWith Parameter (· ≠ .rightParen) := by
    rintro _ next tree _ ⟨isName⟩
    exact ⟨_, [], rfl, by rw [isName]; decide⟩
  simp only [List.cons_append, List.append_assoc, Limits.firstError_append, List.nil_append]
  rw [functionForm, bind_of_ok (expect_facing parser _ isName (by decide) _),
    bind_of_ok (expect_facing parser _ isLeft (by decide) _)]
  refine (follows_entries (follows_parameter _) hparameter _ inside parser (right :: _) hdepth
    isRight).bind ?_
  rw [bind_of_ok (expect_facing parser _ isRight (by decide) _),
    bind_of_ok (expect_facing parser _ isOpen (by decide) _)]
  exact (settles_block hdeclaration hstarts body isClosed parser rest hdepth).bind_ok rfl

/-- An error of nesting is fatal and passes through recovery. -/
theorem Settles.recovering {read : Parse α} {start stop : Parser} {openings : List Opening}
    {tree : α} (h : Settles (read start) (limits.firstError openings) tree stop)
    (substitute : α) :
    Settles (Parse.recovering substitute read start) (limits.firstError openings) tree stop := by
  unfold Parse.recovering
  cases hfirst : limits.firstError openings with
  | none =>
    rw [hfirst, settles_none] at h
    rw [h]
    rfl
  | some error =>
    rw [hfirst] at h
    obtain ⟨stopped, hstopped⟩ := h
    rw [hstopped]
    simp only [Limits.firstError_isFatal hfirst, if_true]
    exact ⟨stopped, rfl⟩

theorem follows_declarationForm (hfunction : Follows function functionPhrase limits depth)
    (hstatement : Follows statement statementPhrase limits depth)
    (hstarts : StartsWith statementPhrase startsStatement) :
    Follows (declarationForm function statement) (DeclarationForm functionPhrase statementPhrase)
      limits depth := by
  intro tokens next tree openings h parser rest hdepth hnext
  refine Settles.recovering ?_ _
  cases h with
  | function isFunction behind =>
    rw [List.cons_append, bind_of_ok (accept_facing parser _ isFunction (by decide))]
    exact hfunction behind parser rest hdepth hnext
  | statement alone =>
    have hfirst := hstarts.ahead alone (kindAhead rest .endOfInput)
    rw [← kindAhead_append] at hfirst
    have hkind : kindAhead (tokens ++ rest) .endOfInput ≠ .kwFunction := by
      intro h
      exact absurd (h ▸ hfirst) (by decide)
    rw [bind_of_ok (accept_facing_none parser _ hkind)]
    exact hstatement alone parser rest hdepth hnext

/-! ## Nesting -/

theorem Settles.nestedStatement {read : Parse α} {start stop : Parser} {error? : Option ParseError}
    {tree : α}
    (h : Settles (read { start with statementDepth := start.statementDepth + 1 }) error? tree
      stop) :
    Settles (nestedStatement read start) error? tree
      { stop with statementDepth := stop.statementDepth - 1 } := by
  cases error? with
  | none => exact nestedStatement_of_ok h
  | some error =>
    obtain ⟨stopped, hstopped⟩ := h
    exact ⟨_, nestedStatement_of_error hstopped⟩

theorem follows_nestedStatement {read : Parse α} {phrase : Phrase α}
    (h : Follows read phrase limits depth) :
    Follows (nestedStatement read) (Deeper .statement phrase) (limits.more .statement) depth := by
  rintro _ next tree _ ⟨inside⟩ parser rest hdepth hnext
  rename_i token tokens openings
  rw [Limits.firstError_cons_of_not_exceeds (by simp [Opening.Exceeds, Limits.of, Limits.more]),
    Limits.firstError_map_deeper]
  let start := parser.facing (token :: tokens ++ rest)
  have hread : Settles (read { start with statementDepth := start.statementDepth + 1 }) _ _ _ :=
    h inside { parser with statementDepth := parser.statementDepth + 1 } rest hdepth hnext
  exact hread.nestedStatement

theorem startsWith_declarationWithin (levels : Nat) :
    StartsWith (DeclarationWithin levels) (¬ EndsSequence ·) := by
  refine (DeclarationWithin.starts levels).mono fun kind h => ?_
  rintro (rfl | rfl) <;> exact absurd h (by decide)

theorem follows_statementWithin (levels allowed depth : Nat) :
    Follows (statementWithin allowed) (StatementWithin levels) ⟨maxNesting - depth, allowed⟩
        depth ∧
      Follows (functionWithin allowed) (FunctionWithin levels) ⟨maxNesting - depth, allowed⟩
        depth := by
  induction levels generalizing allowed with
  | zero => exact ⟨by rintro _ _ _ _ ⟨⟩, by rintro _ _ _ _ ⟨⟩⟩
  | succ levels ih =>
    cases allowed with
    | zero => exact ⟨follows_fail rfl, follows_fail rfl⟩
    | succ allowed =>
      obtain ⟨hstatement, hfunction⟩ := ih allowed
      have hdeclaration :=
        follows_declarationForm hfunction hstatement (StatementWithin.starts levels)
      have hstarts := startsWith_declarationWithin levels
      exact ⟨follows_nestedStatement (follows_statementForm hstatement hdeclaration hstarts),
        follows_nestedStatement (follows_functionForm hdeclaration hstarts)⟩

end Statements

/-! ## Programs -/

end Parse

/-- The levels that a parser has left. -/
def Parser.limits (parser : Parser) : Grammar.Limits :=
  ⟨maxNesting - parser.depth, maxStatementNesting - parser.statementDepth⟩

namespace Parse

open Grammar

/-- **Declarations are read.** -/
theorem settles_declaration {tokens : List Token} {next : TokenKind} {tree : Stmt}
    {openings : List Opening} (h : Declaration tokens next tree openings) (parser : Parser)
    (rest : List Token) (hnext : kindAhead rest .endOfInput = next) :
    Settles (declaration (parser.facing (tokens ++ rest))) (parser.limits.firstError openings)
      tree (parser.facing rest) := by
  obtain ⟨levels, h⟩ := h
  obtain ⟨hstatement, hfunction⟩ :=
    follows_statementWithin levels parser.limits.statement parser.depth
  rw [declaration_apply]
  exact follows_declarationForm hfunction hstatement (StatementWithin.starts levels) h parser rest
    rfl hnext

/-- **Programs are read.** Reading fails at the first opening for which the parser has no level
left. If there is none, it gives the program, notes no error, and stops at the end. -/
theorem settles_program {tokens : List Token} {statements : List Stmt} {openings : List Opening}
    (h : Program tokens statements openings) (parser : Parser) (rest : List Token)
    (hrest : kindAhead rest .endOfInput = .endOfInput) :
    Settles (program (parser.facing (tokens ++ rest))) (parser.limits.firstError openings)
      statements (parser.facing rest) := by
  have hstarts : StartsWith Declaration (¬ · = .endOfInput) := by
    refine Declaration.starts.mono fun kind hkind => ?_
    rintro rfl
    exact absurd hkind (by decide)
  rw [program, bind_of_ok (rounds_facing parser _), programFrom_eq]
  refine (settles_declarationsUntil
    (fun _ _ _ _ first rest hnext => settles_declaration first parser rest hnext) hstarts h rfl
    rest hrest _ (by simp) #[]).bind_ok ?_
  rw [Array.empty_append]
  rfl

end Parse

end Scriptlet
