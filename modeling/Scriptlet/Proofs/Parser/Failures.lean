import Scriptlet.Proofs.Parser.Repetition

/-!
# Reading fails at the next token

A read that fails has gone as far as the token that its error points at: that token is the next one
to be consumed, and whatever is read afterwards starts there. This holds of every read, because an
error is only ever raised at the next token and nothing moves on before it has been handled.

## Main definitions

* `Parse.FailsAhead` — a read whose errors point at the next token

## Main results

* `Parse.failsAhead_expression`, `Parse.failsAhead_program` — the reads of the language
-/

namespace Scriptlet

namespace Parse

variable {α β σ : Type}

/-- If the read fails, the error points at the token to be consumed next. -/
def FailsAhead (read : Parse α) : Prop :=
  ∀ ⦃start : Parser⦄ ⦃error : ParseError⦄ ⦃stop : Parser⦄,
    read start = .error error stop → error.token = stop.current

/-! ## Reads one behind the other -/

theorem failsAhead_pure (result : α) : FailsAhead (pure result : Parse α) := by
  rintro _ _ _ ⟨⟩

theorem failsAhead_fail (cause : ParseCause) : FailsAhead (fail cause : Parse α) := by
  rintro _ _ _ ⟨⟩
  rfl

theorem FailsAhead.bind {read : Parse α} {next : α → Parse β} (h : FailsAhead read)
    (hnext : ∀ result, FailsAhead (next result)) : FailsAhead (read >>= next) := by
  intro start error stop herror
  cases hread : read start with
  | ok result middle => exact hnext result ((bind_of_ok hread).symm.trans herror)
  | error error middle =>
    rw [bind_of_error hread] at herror
    cases herror
    exact h hread

theorem FailsAhead.ite {read other : Parse α} {condition : Prop} [Decidable condition]
    (h : FailsAhead read) (hother : FailsAhead other) :
    FailsAhead (if condition then read else other) := by
  split
  · exact h
  · exact hother

theorem failsAhead_current : FailsAhead current := by
  rintro _ _ _ ⟨⟩

theorem failsAhead_advance : FailsAhead advance := by
  rintro _ _ _ ⟨⟩

theorem failsAhead_report (error : ParseError) : FailsAhead (report error) := by
  rintro _ _ _ ⟨⟩

theorem failsAhead_rounds : FailsAhead rounds := by
  rintro _ _ _ ⟨⟩

theorem failsAhead_acceptIf (wanted : TokenKind → Bool) : FailsAhead (acceptIf wanted) := by
  intro start error stop herror
  unfold acceptIf at herror
  split at herror <;> cases herror

theorem failsAhead_accept (kind : TokenKind) : FailsAhead (accept kind) := failsAhead_acceptIf _

theorem failsAhead_expect (kind : TokenKind) (cause : ParseCause) :
    FailsAhead (expect kind cause) := by
  refine (failsAhead_accept kind).bind fun token? => ?_
  cases token? with
  | some token => exact failsAhead_pure token
  | none => exact failsAhead_fail cause

theorem FailsAhead.nested {read : Parse α} (h : FailsAhead read) : FailsAhead (nested read) := by
  intro start error stop herror
  unfold Parse.nested at herror
  split at herror
  · cases herror
  · rename_i hread
    cases herror
    have hahead := h hread
    exact hahead

theorem FailsAhead.nestedStatement {read : Parse α} (h : FailsAhead read) :
    FailsAhead (nestedStatement read) := by
  intro start error stop herror
  unfold Parse.nestedStatement at herror
  split at herror
  · cases herror
  · rename_i hread
    cases herror
    have hahead := h hread
    exact hahead

/-- Errors that recovery does not handle are passed on. -/
theorem FailsAhead.recovering {read : Parse α} (h : FailsAhead read) (substitute : α) :
    FailsAhead (recovering substitute read) := by
  intro start error stop herror
  unfold Parse.recovering at herror
  split at herror
  · cases herror
  · rename_i hread
    split at herror
    · cases herror
      exact h hread
    · cases herror

/-! ## Repetitions -/

theorem FailsAhead.repeated {turn : σ → Parse (Turn σ)} (h : ∀ state, FailsAhead (turn state))
    (state : σ) : FailsAhead (repeated turn state) := by
  have hrepeating (rounds : List Token) (state : σ) : FailsAhead (repeating turn rounds state) := by
    induction rounds generalizing state with
    | nil => exact failsAhead_pure state
    | cons round rounds ih =>
      refine (h state).bind fun last => ?_
      cases last with
      | again next => exact ih next
      | done result => exact failsAhead_pure result
  exact failsAhead_rounds.bind fun rounds => hrepeating rounds state

theorem FailsAhead.entries {entry : Parse α} (h : FailsAhead entry) (tooMany : ParseCause) :
    FailsAhead (entries tooMany entry) := by
  have hturn (done : Array α) : FailsAhead (entryTurn tooMany entry done) := by
    have hroom : FailsAhead (checkRoom tooMany done) :=
      .ite (failsAhead_current.bind fun _ => failsAhead_report _) (failsAhead_pure _)
    refine hroom.bind fun _ => h.bind fun last => (failsAhead_accept _).bind fun comma? => ?_
    cases comma? with
    | some comma => exact failsAhead_pure _
    | none => exact failsAhead_pure _
  rw [entries_eq]
  refine (failsAhead_current.bind fun _ => failsAhead_pure _).bind fun closed => .ite ?_ ?_
  · exact failsAhead_pure _
  · exact (FailsAhead.repeated hturn _).bind fun all => failsAhead_pure _

theorem FailsAhead.declarations {declaration : Parse Stmt} (h : FailsAhead declaration)
    (ends : TokenKind → Prop) [DecidablePred ends] :
    FailsAhead (Parse.repeated (declarationTurn ends declaration) #[]) :=
  .repeated (fun _ => failsAhead_current.bind fun _ =>
    .ite (failsAhead_pure _) (h.bind fun _ => failsAhead_pure _)) _

/-! ## Expressions -/

variable {operand inner : Parse Expr}

theorem FailsAhead.climb (h : FailsAhead operand) (levels : List Level) :
    FailsAhead (climb operand levels) := by
  induction levels with
  | nil => exact h
  | cons level tighter ih =>
    rw [Parse.climb, chain_eq]
    refine ih.bind fun first => .repeated (fun left => ?_) first
    refine (failsAhead_acceptIf _).bind fun operator? => ?_
    cases operator? with
    | some operator => exact ih.bind fun right => failsAhead_pure _
    | none => exact failsAhead_pure _

theorem FailsAhead.primary (h : FailsAhead inner) : FailsAhead (primary inner) := by
  have hliteral (tree : Expr) : FailsAhead (do let _ ← advance; return tree : Parse Expr) :=
    failsAhead_advance.bind fun _ => failsAhead_pure tree
  refine failsAhead_current.bind fun token => ?_
  split
  case h_3 =>
    split
    · exact hliteral _
    · exact failsAhead_fail _
  case h_8 =>
    exact failsAhead_advance.bind fun _ => h.bind fun value =>
      (failsAhead_expect _ _).bind fun _ => failsAhead_pure value
  case h_9 => exact failsAhead_fail _
  all_goals exact hliteral _

theorem FailsAhead.call (h : FailsAhead inner) : FailsAhead (call inner) := by
  rw [call_eq]
  refine h.primary.bind fun first => .repeated (fun callee => ?_) first
  refine (failsAhead_accept _).bind fun left? => ?_
  cases left? with
  | some left =>
    exact (h.entries _).bind fun _ => (failsAhead_expect _ _).bind fun _ => failsAhead_pure _
  | none => exact failsAhead_pure _

theorem FailsAhead.unary (hoperand : FailsAhead operand) (h : FailsAhead inner) :
    FailsAhead (unary operand inner) := by
  refine (failsAhead_acceptIf _).bind fun operator? => ?_
  cases operator? with
  | some operator => exact hoperand.bind fun _ => failsAhead_pure _
  | none => exact h.call

theorem FailsAhead.assignment (hoperand : FailsAhead operand) (h : FailsAhead inner) :
    FailsAhead (assignment operand inner) := by
  refine ((hoperand.unary h).climb levels).bind fun target =>
    (failsAhead_accept _).bind fun equals? => ?_
  cases equals? with
  | none => exact failsAhead_pure _
  | some equals =>
    refine h.bind fun value => ?_
    unfold assignTo
    split
    · exact failsAhead_pure _
    · exact (failsAhead_report _).bind fun _ => failsAhead_pure _

theorem failsAhead_within (levels : Nat) :
    FailsAhead (expressionWithin levels) ∧ FailsAhead (operandWithin levels) := by
  induction levels with
  | zero => exact ⟨failsAhead_fail _, failsAhead_fail _⟩
  | succ levels ih => exact ⟨(ih.2.assignment ih.1).nested, (ih.2.unary ih.1).nested⟩

theorem failsAhead_expression : FailsAhead expression := fun _ _ _ herror =>
  (failsAhead_within _).1 herror

/-! ## Statements -/

variable {function statement declaration : Parse Stmt}

theorem failsAhead_optionalSemicolon : FailsAhead optionalSemicolon :=
  (failsAhead_accept _).bind fun _ => failsAhead_pure _

theorem FailsAhead.block (h : FailsAhead declaration) : FailsAhead (block declaration) := by
  rw [block_eq]
  exact (h.declarations _).bind fun _ => (failsAhead_expect _ _).bind fun _ => failsAhead_pure _

theorem failsAhead_returnForm (keyword : Token) : FailsAhead (returnForm keyword) :=
  failsAhead_current.bind fun _ => .ite
    (failsAhead_optionalSemicolon.bind fun _ => failsAhead_pure _)
    (failsAhead_expression.bind fun _ => failsAhead_optionalSemicolon.bind fun _ =>
      failsAhead_pure _)

theorem FailsAhead.branchForm (h : FailsAhead statement) : FailsAhead (branchForm statement) := by
  refine failsAhead_expression.bind fun _ => (failsAhead_expect _ _).bind fun _ =>
    h.bind fun _ => (failsAhead_accept _).bind fun else? => ?_
  cases else? with
  | some keyword => exact h.bind fun _ => failsAhead_pure _
  | none => exact failsAhead_pure _

theorem FailsAhead.loopForm (h : FailsAhead statement) : FailsAhead (loopForm statement) :=
  failsAhead_expression.bind fun _ => (failsAhead_expect _ _).bind fun _ =>
    h.bind fun _ => failsAhead_pure _

theorem FailsAhead.statementForm (h : FailsAhead statement)
    (hdeclaration : FailsAhead declaration) :
    FailsAhead (statementForm statement declaration) := by
  refine failsAhead_current.bind fun next => ?_
  split
  · exact failsAhead_advance.bind failsAhead_returnForm
  · exact failsAhead_advance.bind fun _ => failsAhead_expression.bind fun _ =>
      failsAhead_optionalSemicolon.bind fun _ => failsAhead_pure _
  · exact failsAhead_advance.bind fun _ => hdeclaration.block.bind fun _ => failsAhead_pure _
  · exact failsAhead_advance.bind fun _ => h.branchForm
  · exact failsAhead_advance.bind fun _ => h.loopForm
  · exact failsAhead_expression.bind fun _ => failsAhead_optionalSemicolon.bind fun _ =>
      failsAhead_pure _

theorem FailsAhead.functionForm (h : FailsAhead declaration) :
    FailsAhead (functionForm declaration) :=
  (failsAhead_expect _ _).bind fun _ => (failsAhead_expect _ _).bind fun _ =>
    ((failsAhead_expect _ _).entries _).bind fun _ => (failsAhead_expect _ _).bind fun _ =>
      (failsAhead_expect _ _).bind fun _ => h.block.bind fun _ => failsAhead_pure _

theorem FailsAhead.declarationForm (hfunction : FailsAhead function)
    (hstatement : FailsAhead statement) : FailsAhead (declarationForm function statement) := by
  refine FailsAhead.recovering ((failsAhead_accept _).bind fun keyword? => ?_) _
  cases keyword? with
  | some keyword => exact hfunction
  | none => exact hstatement

theorem failsAhead_statementWithin (levels : Nat) :
    FailsAhead (statementWithin levels) ∧ FailsAhead (functionWithin levels) := by
  induction levels with
  | zero => exact ⟨failsAhead_fail _, failsAhead_fail _⟩
  | succ levels ih =>
    have hdeclaration := ih.2.declarationForm ih.1
    exact ⟨(ih.1.statementForm hdeclaration).nestedStatement,
      hdeclaration.functionForm.nestedStatement⟩

theorem failsAhead_declaration : FailsAhead Parse.declaration :=
  .declarationForm (fun _ _ _ herror => (failsAhead_statementWithin _).2 herror)
    fun _ _ _ herror => (failsAhead_statementWithin _).1 herror

/-- **Reading a program fails at the next token.** -/
theorem failsAhead_program : FailsAhead program := by
  rw [program_eq]
  exact (failsAhead_declaration.declarations _).bind fun _ => failsAhead_pure _

end Parse

end Scriptlet
