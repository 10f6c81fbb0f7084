import Scriptlet.Proofs.Grammar.Statement

/-!
# Openings are listed in the order of reading

The openings of a phrase are to be those that reading comes across, one after the other. Here it is
shown of every rule of the grammar that its openings can be met by going through the tokens once,
from the first to the last. Several levels may be opened at one token, as at the first token of a
statement that is an expression.

## Main definitions

* `Grammar.Met` — openings that are met by going through tokens once
* `Grammar.InOrder` — phrases whose openings are

## Main results

* `Grammar.Met.append` — phrases one behind the other
* `Grammar.Expression.inOrder`, `Grammar.Program.met` — expressions and programs
-/

namespace Scriptlet

namespace Grammar

/-- The openings are met by going through the tokens from the first to the last. -/
inductive Met : List Token → List Opening → Prop
  | done (tokens : List Token) : Met tokens []
  /-- The next level is opened at the first token, where others may follow. -/
  | here {token : Token} {rest : List Token} {nesting : Nesting} {depth : Nat}
      {openings : List Opening} : Met (token :: rest) openings →
      Met (token :: rest) (⟨nesting, token, depth⟩ :: openings)
  /-- All levels are opened behind the first token. -/
  | behind {token : Token} {rest : List Token} {openings : List Opening} : Met rest openings →
      Met (token :: rest) openings

namespace Met

variable {tokens rest : List Token} {openings later : List Opening}

theorem behindAll (h : Met rest openings) (tokens : List Token) :
    Met (tokens ++ rest) openings := by
  induction tokens with
  | nil => exact h
  | cons token tokens ih => exact .behind ih

theorem append (h : Met tokens openings) (hlater : Met rest later) :
    Met (tokens ++ rest) (openings ++ later) := by
  induction h with
  | done tokens => exact hlater.behindAll tokens
  | here _ ih => exact .here ih
  | behind _ ih => exact .behind ih

/-- A token at which no level is opened may stand between two phrases. -/
theorem around (h : Met tokens openings) (hlater : Met rest later) (token : Token) :
    Met (tokens ++ token :: rest) (openings ++ later) := h.append (.behind hlater)

theorem appendAll (h : Met tokens openings) (rest : List Token) :
    Met (tokens ++ rest) openings := by
  have happend := h.append (.done rest)
  rwa [List.append_nil] at happend

/-- Levels around a phrase do not change where its levels are opened. -/
theorem deeper (h : Met tokens openings) (nesting : Nesting) :
    Met tokens (openings.map (.deeper nesting)) := by
  induction h with
  | done tokens => exact .done tokens
  | here _ ih =>
    rw [List.map_cons, Opening.deeper]
    split
    · exact .here ih
    · exact .here ih
  | behind _ ih => exact .behind ih

end Met

/-- Phrases whose openings are met by going through their tokens. -/
def InOrder {α : Type} (phrase : Phrase α) : Prop :=
  ∀ ⦃tokens next tree openings⦄, phrase tokens next tree openings → Met tokens openings

variable {α : Type} {operand inner : Phrase Expr}

theorem InOrder.deeper {phrase : Phrase α} (h : InOrder phrase) (nesting : Nesting) :
    InOrder (Deeper nesting phrase) := by
  rintro _ next tree _ ⟨inside⟩
  exact .here ((h inside).deeper nesting)

/-! ## Expressions -/

theorem InOrder.separated {entry : Phrase α} (h : InOrder entry) : InOrder (Separated entry) := by
  intro tokens next trees openings hall
  induction hall with
  | last first stop => exact h first
  | more first sign others ih => exact (h first).around ih _

theorem InOrder.entries {entry : Phrase α} (h : InOrder entry) : InOrder (Entries entry) := by
  intro tokens next trees openings hentries
  cases hentries with
  | none => exact .done []
  | some all count => exact h.separated all

theorem InOrder.primary (h : InOrder inner) : InOrder (Primary inner) := by
  intro tokens next tree openings hprimary
  cases hprimary with
  | literal written => exact .done _
  | name isName => exact .done _
  | group isLeft inside isRight => exact .behind ((h inside).appendAll _)

theorem InOrder.arguments (h : InOrder inner) (callee : Expr) :
    InOrder (Arguments inner callee) := by
  intro tokens next tree openings harguments
  induction harguments with
  | stop none => exact .done []
  | step isLeft inside isRight others ih => exact .behind ((h.entries inside).around ih _)

theorem InOrder.call (h : InOrder inner) : InOrder (Call inner) := by
  rintro _ next tree _ ⟨first, others⟩
  exact (h.primary first).append (h.arguments _ others)

theorem InOrder.unary (hoperand : InOrder operand) (h : InOrder inner) :
    InOrder (Unary operand inner) := by
  intro tokens next tree openings hunary
  cases hunary with
  | operator isOperator behind => exact .behind (hoperand behind)
  | call call => exact h.call call

theorem InOrder.operators (h : InOrder operand) (level : Level) (left : Expr) :
    InOrder (Operators level operand left) := by
  intro tokens next tree openings hoperators
  induction hoperators with
  | stop none => exact .done []
  | step isOperator second others ih => exact .behind ((h second).append ih)

theorem InOrder.chain (h : InOrder operand) (level : Level) : InOrder (Chain level operand) := by
  rintro _ next tree _ ⟨first, others⟩
  exact (h first).append (h.operators level _ others)

theorem InOrder.disjunction (h : InOrder operand) : InOrder (Disjunction operand) :=
  (((((h.chain _).chain _).chain _).chain _).chain _).chain _

theorem InOrder.assignment (hoperand : InOrder operand) (h : InOrder inner) :
    InOrder (Assignment operand inner) := by
  have hdisjunction := (hoperand.unary h).disjunction
  intro tokens next tree openings hassignment
  cases hassignment with
  | plain alone stop => exact hdisjunction alone
  | assign target sign behind => exact (hdisjunction target).around (h behind) _

theorem inOrder_within (levels : Nat) :
    InOrder (ExpressionWithin levels) ∧ InOrder (OperandWithin levels) := by
  induction levels with
  | zero => exact ⟨fun _ _ _ _ h => h.elim, fun _ _ _ _ h => h.elim⟩
  | succ levels ih =>
    exact ⟨(ih.2.assignment ih.1).deeper .expression, (ih.2.unary ih.1).deeper .expression⟩

theorem Expression.inOrder : InOrder Expression := by
  rintro tokens next tree openings ⟨levels, h⟩
  exact (inOrder_within levels).1 h

/-! ## Statements -/

variable {function statement declaration : Phrase Stmt}

theorem InOrder.ended {phrase : Phrase α} (h : InOrder phrase) : InOrder (Ended phrase) := by
  intro tokens next tree openings hended
  cases hended with
  | semicolon before sign => exact (h before).appendAll _
  | bare before stop => exact h before

theorem InOrder.sequence (h : InOrder declaration) : InOrder (Sequence declaration) := by
  intro tokens next trees openings hsequence
  induction hsequence with
  | stop => exact .done []
  | step first others ih => exact (h first).append ih

theorem InOrder.braced (h : InOrder declaration) : InOrder (Braced declaration) := by
  rintro _ next body openings ⟨isLeft, inside, isRight⟩
  exact .behind ((h.sequence inside).appendAll _)

theorem InOrder.statementForm (h : InOrder statement) (hdeclaration : InOrder declaration) :
    InOrder (StatementForm statement declaration) := by
  intro tokens next tree openings hform
  cases hform with
  | expression alone => exact Expression.inOrder.ended alone
  | print _ behind => exact .behind (Expression.inOrder.ended behind)
  | returnValue _ behind => exact .behind (Expression.inOrder.ended behind)
  | returnMarked => exact .done _
  | returnBare => exact .done _
  | block braced => exact hdeclaration.braced braced
  | branch _ first _ second => exact .behind ((Expression.inOrder first).around (h second) _)
  | branchElse _ first _ second _ third =>
    exact .behind ((Expression.inOrder first).around ((h second).around (h third) _) _)
  | loop _ first _ second => exact .behind ((Expression.inOrder first).around (h second) _)

theorem inOrder_parameter : InOrder Parameter := by
  rintro _ next _ _ ⟨isName⟩
  exact .done _

theorem InOrder.functionForm (h : InOrder declaration) : InOrder (FunctionForm declaration) := by
  rintro _ next _ _ ⟨_, _, inside, _, braced⟩
  exact .behind (.behind ((inOrder_parameter.entries inside).around (h.braced braced) _))

theorem InOrder.declarationForm (hfunction : InOrder function) (hstatement : InOrder statement) :
    InOrder (DeclarationForm function statement) := by
  intro tokens next tree openings hform
  cases hform with
  | function _ behind => exact .behind (hfunction behind)
  | statement alone => exact hstatement alone

theorem inOrder_statementWithin (levels : Nat) :
    InOrder (StatementWithin levels) ∧ InOrder (FunctionWithin levels) := by
  induction levels with
  | zero => exact ⟨fun _ _ _ _ h => h.elim, fun _ _ _ _ h => h.elim⟩
  | succ levels ih =>
    have hdeclaration := ih.2.declarationForm ih.1
    exact ⟨(ih.1.statementForm hdeclaration).deeper .statement,
      hdeclaration.functionForm.deeper .statement⟩

theorem Declaration.inOrder : InOrder Declaration := by
  rintro tokens next tree openings ⟨levels, h⟩
  obtain ⟨hstatement, hfunction⟩ := inOrder_statementWithin levels
  exact hfunction.declarationForm hstatement h

/-- **The openings of a program are listed in the order of reading.** -/
theorem Program.met {tokens : List Token} {statements : List Stmt} {openings : List Opening}
    (h : Program tokens statements openings) : Met tokens openings :=
  Declaration.inOrder.sequence h

end Grammar

end Scriptlet
