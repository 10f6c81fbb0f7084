import Scriptlet.Proofs.Parser.Token
import Scriptlet.Syntax.Parser.Statement

/-!
# Reads only go forward

Whatever a read does, and also if it fails, it consumes some of the tokens in front of the end
mark, adds to the errors that were noted, and closes every level that it opened. `Parser.Reaches`
says this of the parsers before and after a read, and every read of the language is shown to have
it, from the reads of one token up to programs.

## Main definitions

* `Parser.Reaches` — a parser that reading may come to from another
* `Parser.Quiet` — no error is noted between two parsers
* `Parse.Forward` — a read that only goes forward

## Main results

* `Parse.Forward.bind`, `Parse.forward_nested`, … — how reads that go forward are put together
* `Parse.forward_expression`, `Parse.forward_declaration`, `Parse.forward_program` — the reads of
  the language go forward
-/

namespace Scriptlet

namespace Parser

/-- The second parser stands behind the first: tokens were consumed, but no end mark, errors were
added, and the same levels are open. -/
structure Reaches (start stop : Parser) : Prop where
  /-- What was consumed stood at the front and holds no end mark. -/
  consumed : ∃ tokens, start.rest = tokens ++ stop.rest ∧
    ∀ token ∈ tokens, token.kind ≠ .endOfInput
  /-- Errors were only added. -/
  noted : ∃ errors, stop.diagnostics = start.diagnostics ++ errors
  /-- As many expressions are open as before. -/
  depth : stop.depth = start.depth
  /-- As many statements are open as before. -/
  statementDepth : stop.statementDepth = start.statementDepth

namespace Reaches

variable {start middle stop : Parser}

theorem refl (parser : Parser) : parser.Reaches parser :=
  ⟨⟨[], rfl, by simp⟩, ⟨#[], by simp⟩, rfl, rfl⟩

theorem trans (first : start.Reaches middle) (second : middle.Reaches stop) :
    start.Reaches stop := by
  obtain ⟨tokens, htokens, hfirst⟩ := first.consumed
  obtain ⟨later, hlater, hsecond⟩ := second.consumed
  obtain ⟨errors, herrors⟩ := first.noted
  obtain ⟨added, hadded⟩ := second.noted
  refine ⟨⟨tokens ++ later, ?_, ?_⟩, ⟨errors ++ added, ?_⟩, ?_, ?_⟩
  · rw [htokens, hlater, List.append_assoc]
  · intro token htoken
    rcases List.mem_append.mp htoken with h | h
    · exact hfirst token h
    · exact hsecond token h
  · rw [hadded, herrors, Array.append_assoc]
  · rw [second.depth, first.depth]
  · rw [second.statementDepth, first.statementDepth]

theorem length_le (h : start.Reaches stop) : stop.rest.length ≤ start.rest.length := by
  obtain ⟨tokens, htokens, _⟩ := h.consumed
  rw [htokens, List.length_append]
  omega

theorem size_le (h : start.Reaches stop) : start.diagnostics.size ≤ stop.diagnostics.size := by
  obtain ⟨errors, herrors⟩ := h.noted
  rw [herrors, Array.size_append]
  omega

end Reaches

/-- No error was noted on the way from one parser to another. -/
def Quiet (start stop : Parser) : Prop := stop.diagnostics.size ≤ start.diagnostics.size

/-- Errors are only added, so a way without errors has none in either part. -/
theorem Quiet.split {start middle stop : Parser} (h : start.Quiet stop)
    (first : start.Reaches middle) (second : middle.Reaches stop) :
    start.Quiet middle ∧ middle.Quiet stop :=
  ⟨Nat.le_trans second.size_le h, Nat.le_trans h first.size_le⟩

theorem reaches_advanced (parser : Parser) : parser.Reaches parser.advanced := by
  unfold advanced
  split
  case isTrue => exact .refl parser
  case isFalse h =>
    rw [atEnd_iff] at h
    cases hrest : parser.rest with
    | nil => simp [hrest] at h
    | cons token rest =>
      refine ⟨⟨[token], by simp [hrest], ?_⟩, ⟨#[], by simp⟩, rfl, rfl⟩
      simpa [hrest] using h

theorem reaches_report (parser : Parser) (error : ParseError) :
    parser.Reaches (parser.report error) :=
  ⟨⟨[], rfl, by simp⟩, ⟨#[error], rfl⟩, rfl, rfl⟩

end Parser

namespace Parse

variable {α β : Type}

/-- A read that only goes forward. -/
def Forward (read : Parse α) : Prop := ∀ start : Parser, start.Reaches (stateAfter read start)

theorem Forward.of_ok {read : Parse α} (h : Forward read) {start stop : Parser} {result : α}
    (hread : read start = .ok result stop) : start.Reaches stop := by
  have hstop := h start
  rw [stateAfter, hread] at hstop
  exact hstop

theorem Forward.of_error {read : Parse α} (h : Forward read) {start stop : Parser}
    {error : ParseError} (hread : read start = .error error stop) : start.Reaches stop := by
  have hstop := h start
  rw [stateAfter, hread] at hstop
  exact hstop

/-! ## Reads one behind the other -/

theorem Forward.bind {read : Parse α} {next : α → Parse β} (h : Forward read)
    (hnext : ∀ result, Forward (next result)) : Forward (read >>= next) := by
  intro start
  cases hread : read start with
  | ok result middle =>
    rw [stateAfter, bind_of_ok hread]
    exact (h.of_ok hread).trans (hnext result middle)
  | error error middle =>
    rw [stateAfter, bind_of_error hread]
    exact h.of_error hread

theorem forward_pure (result : α) : Forward (pure result : Parse α) :=
  fun start => .refl start

theorem Forward.ite {read other : Parse α} {condition : Prop} [Decidable condition]
    (h : Forward read) (hother : Forward other) :
    Forward (if condition then read else other) := by
  split
  · exact h
  · exact hother

/-! ## Single tokens -/

theorem forward_current : Forward current := fun start => .refl start

theorem forward_rounds : Forward rounds := fun start => .refl start

theorem forward_advance : Forward advance := fun start => start.reaches_advanced

theorem forward_fail (cause : ParseCause) : Forward (fail cause : Parse α) :=
  fun start => .refl start

theorem forward_report (error : ParseError) : Forward (report error) :=
  fun start => start.reaches_report error

theorem forward_acceptIf (wanted : TokenKind → Bool) : Forward (acceptIf wanted) := by
  intro start
  unfold stateAfter acceptIf
  by_cases h : (!start.atEnd && wanted start.current.kind) = true
  · rw [if_pos h]
    exact start.reaches_advanced
  · rw [if_neg h]
    exact .refl start

theorem forward_accept (kind : TokenKind) : Forward (accept kind) := forward_acceptIf _

theorem forward_sees (kind : TokenKind) : Forward (sees kind) :=
  forward_current.bind fun _ => forward_pure _

theorem forward_expect (kind : TokenKind) (cause : ParseCause) : Forward (expect kind cause) := by
  refine (forward_accept kind).bind fun token? => ?_
  cases token? with
  | some token => exact forward_pure token
  | none => exact forward_fail cause

/-! ## Levels -/

section Levels

variable {read : Parse α} {start stop : Parser}

theorem nested_of_ok {result : α}
    (h : read { start with depth := start.depth + 1 } = .ok result stop) :
    nested read start = .ok result { stop with depth := stop.depth - 1 } := by
  rw [nested, h]

theorem nested_of_error {error : ParseError}
    (h : read { start with depth := start.depth + 1 } = .error error stop) :
    nested read start = .error error { stop with depth := stop.depth - 1 } := by
  rw [nested, h]

theorem nestedStatement_of_ok {result : α}
    (h : read { start with statementDepth := start.statementDepth + 1 } = .ok result stop) :
    nestedStatement read start =
      .ok result { stop with statementDepth := stop.statementDepth - 1 } := by
  rw [nestedStatement, h]

theorem nestedStatement_of_error {error : ParseError}
    (h : read { start with statementDepth := start.statementDepth + 1 } = .error error stop) :
    nestedStatement read start =
      .error error { stop with statementDepth := stop.statementDepth - 1 } := by
  rw [nestedStatement, h]

theorem forward_nested (h : Forward read) : Forward (nested read) := by
  intro start
  cases hread : read { start with depth := start.depth + 1 } with
  | ok result stop =>
    have hstop := h.of_ok hread
    rw [stateAfter, nested_of_ok hread]
    exact ⟨hstop.consumed, hstop.noted, by simp [hstop.depth], hstop.statementDepth⟩
  | error error stop =>
    have hstop := h.of_error hread
    rw [stateAfter, nested_of_error hread]
    exact ⟨hstop.consumed, hstop.noted, by simp [hstop.depth], hstop.statementDepth⟩

theorem forward_nestedStatement (h : Forward read) : Forward (nestedStatement read) := by
  intro start
  cases hread : read { start with statementDepth := start.statementDepth + 1 } with
  | ok result stop =>
    have hstop := h.of_ok hread
    rw [stateAfter, nestedStatement_of_ok hread]
    exact ⟨hstop.consumed, hstop.noted, hstop.depth, by simp [hstop.statementDepth]⟩
  | error error stop =>
    have hstop := h.of_error hread
    rw [stateAfter, nestedStatement_of_error hread]
    exact ⟨hstop.consumed, hstop.noted, hstop.depth, by simp [hstop.statementDepth]⟩

end Levels

/-! ## Going on after an error -/

/-- Skipping consumes tokens in front of the end mark. -/
theorem skipTokens_eq_append (tokens : List Token) :
    ∃ skipped, tokens = skipped ++ skipTokens tokens ∧
      ∀ token ∈ skipped, token.kind ≠ .endOfInput := by
  fun_induction skipTokens tokens with
  | case1 => exact ⟨[], rfl, by simp⟩
  | case2 token rest hend => exact ⟨[], rfl, by simp⟩
  | case3 token rest hend => exact ⟨[token], rfl, by simpa using hend⟩
  | case4 token hend _ next rest hnext => exact ⟨[token], rfl, by simpa using hend⟩
  | case5 token hend _ next rest hnext ih =>
    obtain ⟨skipped, hskipped, hkinds⟩ := ih
    exact ⟨token :: skipped, congrArg _ hskipped, by simpa using ⟨hend, hkinds⟩⟩
  | case6 token hend => exact ⟨[token], rfl, by simpa using hend⟩

theorem forward_synchronize : Forward synchronize := fun start =>
  ⟨skipTokens_eq_append start.rest, ⟨#[], by simp [stateAfter, synchronize]⟩, rfl, rfl⟩

theorem forward_recovering {read : Parse α} (h : Forward read) (substitute : α) :
    Forward (recovering substitute read) := by
  intro start
  unfold stateAfter recovering
  cases hread : read start with
  | ok result stop => exact h.of_ok hread
  | error error stop =>
    by_cases hfatal : error.isFatal = true
    · simp only [hfatal, if_true]
      exact h.of_error hread
    · simp only [hfatal]
      exact (h.of_error hread).trans (((forward_report error).bind fun _ =>
        forward_synchronize.bind fun _ => forward_pure substitute) stop)

/-! ## Lists -/

/-- One round of a list: an entry, and the rounds behind it if a comma follows. -/
def entriesRound (tooMany : ParseCause) (entry : Parse α) (rounds : List Token)
    (done : Array α) : Parse (Array α) := do
  let last ← entry
  match ← accept .comma with
  | some _ => entriesFrom tooMany entry rounds (done.push last)
  | none => return done.push last

theorem entriesFrom_cons {done : Array α} (h : done.size ≠ maxEntries) (tooMany : ParseCause)
    (entry : Parse α) (round : Token) (rounds : List Token) :
    entriesFrom tooMany entry (round :: rounds) done = entriesRound tooMany entry rounds done := by
  rw [entriesFrom, if_neg h]
  rfl

/-- Before the entry that is one too many, an error is noted. -/
theorem entriesFrom_cons_full {done : Array α} (h : done.size = maxEntries)
    (tooMany : ParseCause) (entry : Parse α) (round : Token) (rounds : List Token) :
    entriesFrom tooMany entry (round :: rounds) done = (do
      report ⟨tooMany, ← current⟩
      entriesRound tooMany entry rounds done) := by
  rw [entriesFrom, if_pos h]
  rfl

theorem forward_entriesRound {entry : Parse α} (h : Forward entry) {tooMany : ParseCause}
    {rounds : List Token} (hrounds : ∀ done, Forward (entriesFrom tooMany entry rounds done))
    (done : Array α) : Forward (entriesRound tooMany entry rounds done) := by
  refine h.bind fun last => (forward_accept .comma).bind fun comma? => ?_
  cases comma? with
  | some comma => exact hrounds _
  | none => exact forward_pure _

theorem forward_entriesFrom {entry : Parse α} (h : Forward entry) (tooMany : ParseCause)
    (rounds : List Token) (done : Array α) : Forward (entriesFrom tooMany entry rounds done) := by
  induction rounds generalizing done with
  | nil => exact forward_pure done
  | cons round rounds ih =>
    have hround := forward_entriesRound h ih done
    by_cases hdone : done.size = maxEntries
    · rw [entriesFrom_cons_full hdone]
      exact forward_current.bind fun token => (forward_report _).bind fun _ => hround
    · rw [entriesFrom_cons hdone]
      exact hround

theorem forward_entries {entry : Parse α} (h : Forward entry) (tooMany : ParseCause) :
    Forward (entries tooMany entry) := by
  refine (forward_sees .rightParen).bind fun closes => .ite (forward_pure []) ?_
  exact forward_rounds.bind fun rounds =>
    (forward_entriesFrom h tooMany rounds #[]).bind fun _ => forward_pure _

/-! ## Expressions -/

variable {operand inner : Parse Expr}

theorem forward_chainFrom (h : Forward operand) (level : Level) (rounds : List Token)
    (left : Expr) : Forward (chainFrom level operand rounds left) := by
  induction rounds generalizing left with
  | nil => exact forward_pure left
  | cons _ rounds ih =>
    refine (forward_acceptIf _).bind fun operator? => ?_
    cases operator? with
    | some operator => exact h.bind fun right => ih _
    | none => exact forward_pure left

theorem forward_chain (h : Forward operand) (level : Level) : Forward (chain level operand) :=
  h.bind fun left => forward_rounds.bind fun rounds => forward_chainFrom h level rounds left

theorem forward_climb (h : Forward operand) (levels : List Level) :
    Forward (climb operand levels) := by
  induction levels with
  | nil => exact h
  | cons level tighter ih => exact forward_chain ih level

theorem forward_primary (h : Forward inner) : Forward (primary inner) := by
  refine forward_current.bind fun token => ?_
  split
  case h_3 =>
    split
    · exact forward_advance.bind fun _ => forward_pure _
    · exact forward_fail _
  case h_8 =>
    exact forward_advance.bind fun _ => h.bind fun value =>
      (forward_expect _ _).bind fun _ => forward_pure value
  case h_9 => exact forward_fail _
  all_goals exact forward_advance.bind fun _ => forward_pure _

theorem forward_callsFrom (h : Forward inner) (rounds : List Token) (callee : Expr) :
    Forward (callsFrom inner rounds callee) := by
  induction rounds generalizing callee with
  | nil => exact forward_pure callee
  | cons _ rounds ih =>
    refine (forward_accept .leftParen).bind fun left? => ?_
    cases left? with
    | some left =>
      exact (forward_entries h _).bind fun arguments =>
        (forward_expect _ _).bind fun paren => ih _
    | none => exact forward_pure callee

theorem forward_call (h : Forward inner) : Forward (call inner) :=
  (forward_primary h).bind fun callee => forward_rounds.bind fun rounds =>
    forward_callsFrom h rounds callee

theorem forward_unary (hoperand : Forward operand) (h : Forward inner) :
    Forward (unary operand inner) := by
  refine (forward_acceptIf _).bind fun operator? => ?_
  cases operator? with
  | some operator => exact hoperand.bind fun _ => forward_pure _
  | none => exact forward_call h

theorem forward_assignTo (target : Expr) (equals : Token) (value : Expr) :
    Forward (assignTo target equals value) := by
  unfold assignTo
  split
  · exact forward_pure _
  · exact (forward_report _).bind fun _ => forward_pure _

theorem forward_assignment (hoperand : Forward operand) (h : Forward inner) :
    Forward (assignment operand inner) := by
  refine (forward_climb (forward_unary hoperand h) levels).bind fun target =>
    (forward_accept .assign).bind fun equals? => ?_
  cases equals? with
  | some equals => exact h.bind fun value => forward_assignTo target equals value
  | none => exact forward_pure target

theorem forward_within (levels : Nat) :
    Forward (expressionWithin levels) ∧ Forward (operandWithin levels) := by
  induction levels with
  | zero => exact ⟨forward_fail _, forward_fail _⟩
  | succ levels ih =>
    exact ⟨forward_nested (forward_assignment ih.2 ih.1), forward_nested (forward_unary ih.2 ih.1)⟩

/-- **Reading an expression goes forward.** -/
theorem forward_expression : Forward expression := fun start =>
  (forward_within (maxNesting - start.depth)).1 start

/-! ## Statements -/

variable {function statement declaration : Parse Stmt}

theorem forward_optionalSemicolon : Forward optionalSemicolon :=
  (forward_accept .semicolon).bind fun _ => forward_pure _

/-- Whether a sequence of declarations ends in front of a token of a kind. -/
abbrev EndsSequence (kind : TokenKind) : Prop := kind = .rightBrace ∨ kind = .endOfInput

/-- Reads declarations up to a token of a kind that ends them, behind those already read. -/
def declarationsUntil (ends : TokenKind → Prop) [DecidablePred ends] (declaration : Parse Stmt) :
    List Token → Array Stmt → Parse (Array Stmt)
  | [], done => pure done
  | _ :: rounds, done => do
    if ends (← current).kind then return done
    declarationsUntil ends declaration rounds (done.push (← declaration))

theorem declarationsFrom_eq (declaration : Parse Stmt) (rounds : List Token) (done : Array Stmt) :
    declarationsFrom declaration rounds done =
      declarationsUntil EndsSequence declaration rounds done := by
  induction rounds generalizing done with
  | nil => rfl
  | cons round rounds ih => simp only [declarationsFrom, declarationsUntil, ih]

theorem programFrom_eq (rounds : List Token) (done : Array Stmt) :
    programFrom rounds done =
      declarationsUntil (· = .endOfInput) Parse.declaration rounds done := by
  induction rounds generalizing done with
  | nil => rfl
  | cons round rounds ih => simp only [programFrom, declarationsUntil, ih]

theorem forward_declarationsUntil {ends : TokenKind → Prop} [DecidablePred ends]
    (h : Forward declaration) (rounds : List Token) (done : Array Stmt) :
    Forward (declarationsUntil ends declaration rounds done) := by
  induction rounds generalizing done with
  | nil => exact forward_pure done
  | cons _ rounds ih =>
    exact forward_current.bind fun next => .ite (forward_pure done) (h.bind fun _ => ih _)

theorem forward_block (h : Forward declaration) : Forward (block declaration) :=
  forward_rounds.bind fun rounds => Forward.bind
    (declarationsFrom_eq declaration rounds #[] ▸ forward_declarationsUntil h rounds #[])
    fun _ => (forward_expect _ _).bind fun _ => forward_pure _

theorem forward_returnForm (keyword : Token) : Forward (returnForm keyword) := by
  refine forward_current.bind fun next => .ite ?_ ?_
  · exact forward_optionalSemicolon.bind fun _ => forward_pure _
  · exact forward_expression.bind fun _ => forward_optionalSemicolon.bind fun _ => forward_pure _

theorem forward_branchForm (h : Forward statement) : Forward (branchForm statement) := by
  refine forward_expression.bind fun condition => (forward_expect _ _).bind fun _ =>
    h.bind fun yes => (forward_accept .kwElse).bind fun other? => ?_
  cases other? with
  | some other => exact h.bind fun no => forward_pure _
  | none => exact forward_pure _

theorem forward_loopForm (h : Forward statement) : Forward (loopForm statement) :=
  forward_expression.bind fun _ => (forward_expect _ _).bind fun _ =>
    h.bind fun _ => forward_pure _

theorem forward_statementForm (h : Forward statement) (hdeclaration : Forward declaration) :
    Forward (statementForm statement declaration) := by
  refine forward_current.bind fun token => ?_
  split
  · exact forward_advance.bind fun keyword => forward_returnForm keyword
  · exact forward_advance.bind fun _ => forward_expression.bind fun _ =>
      forward_optionalSemicolon.bind fun _ => forward_pure _
  · exact forward_advance.bind fun _ => (forward_block hdeclaration).bind fun _ => forward_pure _
  · exact forward_advance.bind fun _ => forward_branchForm h
  · exact forward_advance.bind fun _ => forward_loopForm h
  · exact forward_expression.bind fun _ => forward_optionalSemicolon.bind fun _ => forward_pure _

theorem forward_functionForm (h : Forward declaration) : Forward (functionForm declaration) :=
  (forward_expect _ _).bind fun _ => (forward_expect _ _).bind fun _ =>
    (forward_entries (forward_expect _ _) _).bind fun _ => (forward_expect _ _).bind fun _ =>
      (forward_expect _ _).bind fun _ => (forward_block h).bind fun _ => forward_pure _

theorem forward_declarationForm (hfunction : Forward function) (h : Forward statement) :
    Forward (declarationForm function statement) := by
  refine forward_recovering ((forward_accept .kwFunction).bind fun keyword? => ?_) _
  cases keyword? with
  | some keyword => exact hfunction
  | none => exact h

theorem forward_statementWithin (levels : Nat) :
    Forward (statementWithin levels) ∧ Forward (functionWithin levels) := by
  induction levels with
  | zero => exact ⟨forward_fail _, forward_fail _⟩
  | succ levels ih =>
    have hdeclaration := forward_declarationForm ih.2 ih.1
    exact ⟨forward_nestedStatement (forward_statementForm ih.1 hdeclaration),
      forward_nestedStatement (forward_functionForm hdeclaration)⟩

/-- **Reading a declaration goes forward.** -/
theorem forward_declaration : Forward Parse.declaration :=
  forward_declarationForm (fun start => (forward_statementWithin _).2 start)
    fun start => (forward_statementWithin _).1 start

theorem recovering_congr {read other : Parse α} {start : Parser} (h : read start = other start)
    (substitute : α) : recovering substitute read start = recovering substitute other start := by
  unfold recovering
  rw [h]

/-- A declaration may open the levels for statements that are left where it starts. -/
theorem declaration_apply (start : Parser) :
    Parse.declaration start =
      declarationForm (functionWithin (maxStatementNesting - start.statementDepth))
        (statementWithin (maxStatementNesting - start.statementDepth)) start := by
  refine recovering_congr ?_ _
  cases h : accept .kwFunction start with
  | error error stop => rw [bind_of_error h, bind_of_error h]
  | ok keyword? stop =>
    have hdepth := ((forward_accept .kwFunction).of_ok h).statementDepth
    rw [bind_of_ok h, bind_of_ok h]
    cases keyword? <;> simp [Parse.function, Parse.statement, hdepth]

/-- **Reading a program goes forward.** -/
theorem forward_program : Forward program :=
  forward_rounds.bind fun rounds => Forward.bind
    (programFrom_eq rounds #[] ▸ forward_declarationsUntil forward_declaration rounds #[])
    fun _ => forward_pure _

end Parse

end Scriptlet
