import Scriptlet.Proofs.Parser.Machine

/-!
# What moves promise, reads promise

A read that fails leaves a state behind from which something else goes on, so what can be said of
that state is as much a part of a promise as what can be said after a result. It is often not the
same: after a failure the state still shows the error that was raised, and after a result there is
none. A contract says both. If all moves of a machine keep a contract, then so does every read.

This is about one machine. That two machines read alike is said by a simulation, which does not tell
states after a result from states after a failure.

## Main definitions

* `Contract`, `Contract.Keeps` — what holds before and after reads, and a read that makes it so
* `Contract.Lawful` — the moves of a machine keep a contract

## Main results

* `Contract.Lawful.expression`, `declaration`, `program` — so do the reads of the language
-/

namespace Scriptlet

/-- What holds of the states that reads start from and come to. -/
structure Contract (σ ε : Type) where
  /-- What holds of a state in front of a read, and behind a read that gives a result. -/
  Fine : σ → Prop
  /-- What holds of a state behind a read that ends with an error. -/
  Failed : ε → σ → Prop

namespace Contract

variable {σ ε α β τ : Type} (contract : Contract σ ε)

/-- An outcome of which the contract holds. -/
inductive Kept : EStateM.Result ε σ α → Prop
  | ok {result : α} {state : σ} (h : contract.Fine state) : Kept (.ok result state)
  | error {error : ε} {state : σ} (h : contract.Failed error state) : Kept (.error error state)

variable {contract} in
theorem Kept.onState {outcome : EStateM.Result ε σ α} {change : σ → σ} (h : contract.Kept outcome)
    (hfine : ∀ state, contract.Fine state → contract.Fine (change state))
    (hfailed : ∀ error state, contract.Failed error state →
      contract.Failed error (change state)) : contract.Kept (onState change outcome) := by
  cases h with
  | ok hafter => exact .ok (hfine _ hafter)
  | error hafter => exact .error (hfailed _ _ hafter)

/-- A read that keeps the contract. -/
def Keeps (read : EStateM ε σ α) : Prop :=
  ∀ ⦃state : σ⦄, contract.Fine state → contract.Kept (read state)

/-- The moves of a machine keep the contract. -/
structure Lawful (machine : Machine σ ε) : Prop where
  peek : contract.Keeps machine.peek
  advance : contract.Keeps machine.advance
  acceptAny (kinds : List TokenKind) : contract.Keeps (machine.acceptAny kinds)
  fail {α : Type} (cause : ParseCause) : contract.Keeps (machine.fail cause : EStateM ε σ α)
  report (error : ParseError) : contract.Keeps (machine.report error)
  nested {α : Type} {read : EStateM ε σ α} (h : contract.Keeps read) :
    contract.Keeps (machine.nested read)
  nestedStatement {α : Type} {read : EStateM ε σ α} (h : contract.Keeps read) :
    contract.Keeps (machine.nestedStatement read)
  recovering {α : Type} (substitute : α) {read : EStateM ε σ α} (h : contract.Keeps read) :
    contract.Keeps (machine.recovering substitute read)
  exhausted {α : Type} : contract.Keeps (machine.exhausted : EStateM ε σ α)

variable {contract} {machine : Machine σ ε}

/-! ## Reads one behind the other -/

theorem Keeps.bind {read : EStateM ε σ α} {next : α → EStateM ε σ β} (h : contract.Keeps read)
    (hnext : ∀ first, contract.Keeps (next first)) : contract.Keeps (read >>= next) := by
  intro state hstate
  have hread := h hstate
  generalize houtcome : read state = outcome at hread
  cases hread with
  | ok hfine =>
    rw [bind_of_ok houtcome]
    exact hnext _ hfine
  | error hfailed =>
    rw [bind_of_error houtcome]
    exact .error hfailed

theorem Keeps.pure (result : α) : contract.Keeps (pure result : EStateM ε σ α) :=
  fun _ hstate => .ok hstate

theorem Keeps.ite {read other : EStateM ε σ α} {condition : Prop} [Decidable condition]
    (h : contract.Keeps read) (hother : contract.Keeps other) :
    contract.Keeps (if condition then read else other) := by
  split
  · exact h
  · exact hother

namespace Lawful

variable (law : contract.Lawful machine)
include law

/-! ## Tokens and repetitions -/

theorem accept (kind : TokenKind) : contract.Keeps (machine.accept kind) := law.acceptAny [kind]

theorem expect (kind : TokenKind) (cause : ParseCause) :
    contract.Keeps (machine.expect kind cause) := by
  refine (law.accept kind).bind fun token? => ?_
  cases token? with
  | some token => exact .pure token
  | none => exact law.fail cause

theorem repeating {turn : τ → EStateM ε σ (Turn τ)} (h : ∀ done, contract.Keeps (turn done))
    (rounds : Nat) (done : τ) : contract.Keeps (machine.repeating turn rounds done) := by
  induction rounds generalizing done with
  | zero => exact law.exhausted
  | succ rounds ih =>
    refine (h done).bind fun last => ?_
    cases last with
    | again next => exact ih next
    | done result => exact .pure result

theorem repeated {turn : τ → EStateM ε σ (Turn τ)} (h : ∀ done, contract.Keeps (turn done))
    (first : τ) : contract.Keeps (machine.repeated turn first) :=
  fun _ hstate => law.repeating h _ first hstate

theorem entryTurn {entry : EStateM ε σ α} (h : contract.Keeps entry) (tooMany : ParseCause)
    (done : Array α) : contract.Keeps (machine.entryTurn tooMany entry done) := by
  have hroom : contract.Keeps (machine.checkRoom tooMany done) :=
    .ite (law.peek.bind fun _ => law.report _) (.pure ())
  refine hroom.bind fun _ => h.bind fun last => (law.accept .comma).bind fun comma? => ?_
  cases comma? with
  | some comma => exact .pure _
  | none => exact .pure _

theorem entries {entry : EStateM ε σ α} (h : contract.Keeps entry) (tooMany : ParseCause) :
    contract.Keeps (machine.entries tooMany entry) :=
  law.peek.bind fun _ =>
    .ite (.pure []) ((law.repeated (law.entryTurn h tooMany) #[]).bind fun _ => .pure _)

/-! ## Expressions -/

section Expressions

variable {operand inner : EStateM ε σ Expr}
variable (hoperand : contract.Keeps operand) (hinner : contract.Keeps inner)

include hoperand in
theorem chainTurn (level : Level) (left : Expr) :
    contract.Keeps (machine.chainTurn operand level left) := by
  refine (law.acceptAny level.operators).bind fun operator? => ?_
  cases operator? with
  | some operator => exact hoperand.bind fun _ => .pure _
  | none => exact .pure _

include hoperand in
theorem climb (some : List Level) : contract.Keeps (machine.climb operand some) := by
  induction some with
  | nil => exact hoperand
  | cons level tighter ih => exact ih.bind fun left => law.repeated (law.chainTurn ih level) left

include hinner in
theorem primary : contract.Keeps (machine.primary inner) := by
  refine law.peek.bind fun token => ?_
  split
  · exact law.advance.bind fun _ => .pure _
  · exact law.advance.bind fun _ => .pure _
  · split
    · exact law.advance.bind fun _ => .pure _
    · exact law.fail _
  · exact law.advance.bind fun _ => .pure _
  · exact law.advance.bind fun _ => .pure _
  · exact law.advance.bind fun _ => .pure _
  · exact law.advance.bind fun _ => .pure _
  · exact law.advance.bind fun _ => hinner.bind fun value => (law.expect _ _).bind fun _ => .pure _
  · exact law.fail _

include hinner in
theorem callTurn (callee : Expr) : contract.Keeps (machine.callTurn inner callee) := by
  refine (law.accept .leftParen).bind fun left? => ?_
  cases left? with
  | some left => exact (law.entries hinner _).bind fun _ => (law.expect _ _).bind fun _ => .pure _
  | none => exact .pure _

include hinner in
theorem call : contract.Keeps (machine.call inner) :=
  (law.primary hinner).bind (law.repeated (law.callTurn hinner))

include hoperand hinner in
theorem unary : contract.Keeps (machine.unary operand inner) := by
  refine (law.acceptAny _).bind fun operator? => ?_
  cases operator? with
  | some operator => exact hoperand.bind fun _ => .pure _
  | none => exact law.call hinner

theorem assignTo (target : Expr) (equals : Token) (value : Expr) :
    contract.Keeps (machine.assignTo target equals value) := by
  cases target with
  | var name => exact .pure _
  | _ => exact (law.report _).bind fun _ => .pure _

include hoperand hinner in
theorem assignment : contract.Keeps (machine.assignment operand inner) := by
  refine (law.climb (law.unary hoperand hinner) levels).bind fun target =>
    (law.accept .assign).bind fun equals? => ?_
  cases equals? with
  | some equals => exact hinner.bind fun value => law.assignTo target equals value
  | none => exact .pure target

end Expressions

theorem expressionWithin (count : Nat) :
    contract.Keeps (machine.expressionWithin count) ∧
      contract.Keeps (machine.operandWithin count) := by
  induction count with
  | zero => exact ⟨law.exhausted, law.exhausted⟩
  | succ count ih =>
    obtain ⟨hinner, hoperand⟩ := ih
    exact ⟨law.nested (law.assignment hoperand hinner), law.nested (law.unary hoperand hinner)⟩

theorem expression : contract.Keeps machine.expression := (law.expressionWithin _).1

/-! ## Statements -/

section Statements

variable {function statement declaration : EStateM ε σ Stmt}
variable (hfunction : contract.Keeps function) (hstatement : contract.Keeps statement)
variable (hdeclaration : contract.Keeps declaration)

theorem optionalSemicolon : contract.Keeps machine.optionalSemicolon :=
  (law.accept .semicolon).bind fun _ => .pure ()

include hdeclaration in
theorem declarationTurn (ends : TokenKind → Prop) [DecidablePred ends] (done : Array Stmt) :
    contract.Keeps (machine.declarationTurn declaration ends done) :=
  law.peek.bind fun _ => .ite (.pure _) (hdeclaration.bind fun _ => .pure _)

include hdeclaration in
theorem block : contract.Keeps (machine.block declaration) :=
  (law.repeated (law.declarationTurn hdeclaration _) #[]).bind fun _ =>
    (law.expect _ _).bind fun _ => .pure _

theorem returnForm (keyword : Token) : contract.Keeps (machine.returnForm keyword) :=
  law.peek.bind fun _ => .ite (law.optionalSemicolon.bind fun _ => .pure _)
    (law.expression.bind fun _ => law.optionalSemicolon.bind fun _ => .pure _)

include hstatement in
theorem branchForm : contract.Keeps (machine.branchForm statement) := by
  refine law.expression.bind fun condition => (law.expect _ _).bind fun _ =>
    hstatement.bind fun yes => (law.accept .kwElse).bind fun other? => ?_
  cases other? with
  | some other => exact hstatement.bind fun _ => .pure _
  | none => exact .pure _

include hstatement in
theorem loopForm : contract.Keeps (machine.loopForm statement) :=
  law.expression.bind fun _ => (law.expect _ _).bind fun _ => hstatement.bind fun _ => .pure _

include hstatement hdeclaration in
theorem statementForm : contract.Keeps (machine.statementForm statement declaration) := by
  refine law.peek.bind fun next => ?_
  split
  · exact law.advance.bind law.returnForm
  · exact law.advance.bind fun _ => law.expression.bind fun _ =>
      law.optionalSemicolon.bind fun _ => .pure _
  · exact law.advance.bind fun _ => (law.block hdeclaration).bind fun _ => .pure _
  · exact law.advance.bind fun _ => law.branchForm hstatement
  · exact law.advance.bind fun _ => law.loopForm hstatement
  · exact law.expression.bind fun _ => law.optionalSemicolon.bind fun _ => .pure _

include hdeclaration in
theorem functionForm : contract.Keeps (machine.functionForm declaration) :=
  (law.expect _ _).bind fun _ => (law.expect _ _).bind fun _ =>
    (law.entries (law.expect _ _) _).bind fun _ => (law.expect _ _).bind fun _ =>
      (law.expect _ _).bind fun _ => (law.block hdeclaration).bind fun _ => .pure _

include hfunction hstatement in
theorem declarationForm : contract.Keeps (machine.declarationForm function statement) := by
  refine law.recovering _ ((law.accept .kwFunction).bind fun keyword? => ?_)
  cases keyword? with
  | some keyword => exact hfunction
  | none => exact hstatement

end Statements

theorem statementWithin (count : Nat) :
    contract.Keeps (machine.statementWithin count) ∧
      contract.Keeps (machine.functionWithin count) := by
  induction count with
  | zero => exact ⟨law.exhausted, law.exhausted⟩
  | succ count ih =>
    obtain ⟨hstatement, hfunction⟩ := ih
    have hdeclaration := law.declarationForm hfunction hstatement
    exact ⟨law.nestedStatement (law.statementForm hstatement hdeclaration),
      law.nestedStatement (law.functionForm hdeclaration)⟩

theorem declaration : contract.Keeps machine.declaration :=
  law.declarationForm (law.statementWithin _).2 (law.statementWithin _).1

/-- **A program keeps what the moves keep.** -/
theorem program : contract.Keeps machine.program :=
  (law.repeated (law.declarationTurn law.declaration _) #[]).bind fun _ => .pure _

end Lawful

end Contract

end Scriptlet
