import Mathlib.Data.List.Basic
import Scriptlet.Proofs.Grammar.Statement

/-!
# What a sequence of statements needs to know about what follows

A phrase of the grammar depends on the kind of the token behind it, because an optional part is left
out only if that token does not begin it. Behind a semicolon or a closing brace nothing optional is
left but an `else`: an expression never ends with such a token, so all expressions are complete, and
the branches and loops around a statement end where it does. A sequence of declarations that ends
like this is therefore the same sequence in front of anything but an `else`.

## Main definitions

* `TokenKind.EndsStatement` — semicolons and closing braces
* `Grammar.Finished`, `Grammar.Unfinished` — whether tokens end with one of these
* `Grammar.Detached` — phrases that do not depend on what follows once they are finished

## Main results

* `Grammar.Expression.unfinished` — an expression is never finished in this sense
* `Grammar.Sequence.detached` — a finished sequence does not depend on what follows
-/

namespace Scriptlet

/-- Whether a token of a kind ends every statement that it is part of, but for an `else`. -/
def TokenKind.EndsStatement (kind : TokenKind) : Prop := kind = .semicolon ∨ kind = .rightBrace

instance : DecidablePred TokenKind.EndsStatement := fun _ => inferInstanceAs (Decidable (_ ∨ _))

namespace Grammar

/-- Tokens of which the last ends statements. -/
def Finished (tokens : List Token) : Prop := ∃ token ∈ tokens.getLast?, token.kind.EndsStatement

/-- Tokens of which the last, if there is one, does not end statements. -/
def Unfinished (tokens : List Token) : Prop :=
  ∀ token ∈ tokens.getLast?, ¬ token.kind.EndsStatement

theorem Unfinished.not_finished {tokens : List Token} (h : Unfinished tokens) :
    ¬ Finished tokens := by
  rintro ⟨token, hlast, hends⟩
  exact h token hlast hends

theorem Finished.of_append {tokens rest : List Token} (h : Finished (tokens ++ rest))
    (hrest : rest ≠ []) : Finished rest := by
  rwa [Finished, List.getLast?_append_of_ne_nil _ hrest] at h

theorem Finished.of_cons {token : Token} {rest : List Token} (h : Finished (token :: rest))
    (hrest : rest ≠ []) : Finished rest :=
  @Finished.of_append [token] rest h hrest

theorem unfinished_nil : Unfinished [] := by
  rintro token ⟨⟩

theorem Unfinished.append {tokens rest : List Token} (h : Unfinished tokens)
    (hrest : Unfinished rest) : Unfinished (tokens ++ rest) := by
  by_cases hnil : rest = []
  · rwa [hnil, List.append_nil]
  · rwa [Unfinished, List.getLast?_append_of_ne_nil _ hnil]

/-- What stands in front of a token does not matter. -/
theorem Unfinished.behind {token : Token} {rest : List Token} (h : ¬ token.kind.EndsStatement)
    (hrest : Unfinished rest) (tokens : List Token) : Unfinished (tokens ++ token :: rest) := by
  have hsingle : Unfinished [token] := by
    rintro last ⟨⟩
    exact h
  rw [Unfinished, List.getLast?_append_of_ne_nil _ (List.cons_ne_nil token rest)]
  exact hsingle.append hrest

theorem Unfinished.cons {token : Token} {rest : List Token} (h : ¬ token.kind.EndsStatement)
    (hrest : Unfinished rest) : Unfinished (token :: rest) :=
  hrest.behind h []

/-! ## Expressions -/

variable {α : Type} {operand inner : Phrase Expr}

/-- Phrases that never end with a token that ends statements. -/
def NeverFinished (phrase : Phrase α) : Prop :=
  ∀ ⦃tokens next tree openings⦄, phrase tokens next tree openings → Unfinished tokens

theorem not_endsStatement_of_startsPrimary {kind : TokenKind} (h : startsPrimary kind) :
    ¬ kind.EndsStatement := by
  rintro (rfl | rfl) <;> exact absurd h (by decide)

theorem Primary.unfinished : NeverFinished (Primary inner) := by
  intro tokens next tree openings h
  cases h with
  | literal written =>
    exact unfinished_nil.cons (not_endsStatement_of_startsPrimary (startsPrimary_of_literal? written))
  | name isName =>
    exact unfinished_nil.cons (not_endsStatement_of_startsPrimary (startsPrimary_of_isName isName))
  | group isLeft inside isRight =>
    exact unfinished_nil.behind (by rw [isRight]; decide) (_ :: _)

theorem Arguments.unfinished {callee tree : Expr} {tokens : List Token} {next : TokenKind}
    {openings : List Opening} (h : Arguments inner callee tokens next tree openings) :
    Unfinished tokens := by
  induction h with
  | stop => exact unfinished_nil
  | step isLeft inside isRight others ih => exact ih.behind (by rw [isRight]; decide) (_ :: _)

theorem Call.unfinished : NeverFinished (Call inner) := by
  rintro _ next tree _ ⟨first, others⟩
  exact (Primary.unfinished first).append others.unfinished

theorem Unary.unfinished (hoperand : NeverFinished operand) :
    NeverFinished (Unary operand inner) := by
  intro tokens next tree openings h
  cases h with
  | operator isOperator behind =>
    refine (hoperand behind).cons ?_
    rcases isOperator with h | h <;> rw [h] <;> decide
  | call call => exact Call.unfinished call

theorem Operators.unfinished {level : Level} (hoperand : NeverFinished operand)
    (hlevel : ∀ kind ∈ level.operators, ¬ kind.EndsStatement) {left tree : Expr}
    {tokens : List Token} {next : TokenKind} {openings : List Opening}
    (h : Operators level operand left tokens next tree openings) : Unfinished tokens := by
  induction h with
  | stop => exact unfinished_nil
  | step isOperator second others ih =>
    exact ((hoperand second).append ih).cons (hlevel _ isOperator)

theorem Chain.unfinished {level : Level} (hoperand : NeverFinished operand)
    (hlevel : ∀ kind ∈ level.operators, ¬ kind.EndsStatement) :
    NeverFinished (Chain level operand) := by
  rintro _ next tree _ ⟨first, others⟩
  exact (hoperand first).append (others.unfinished hoperand hlevel)

theorem Disjunction.unfinished (hoperand : NeverFinished operand) :
    NeverFinished (Disjunction operand) := by
  have hfactor : NeverFinished (Factor operand) := Chain.unfinished hoperand (by decide)
  have hterm : NeverFinished (Term operand) := Chain.unfinished hfactor (by decide)
  have hcomparison : NeverFinished (Comparison operand) := Chain.unfinished hterm (by decide)
  have hequality : NeverFinished (Equality operand) := Chain.unfinished hcomparison (by decide)
  have hconjunction : NeverFinished (Conjunction operand) := Chain.unfinished hequality (by decide)
  exact Chain.unfinished hconjunction (by decide)

theorem Assignment.unfinished (hoperand : NeverFinished operand) (hinner : NeverFinished inner) :
    NeverFinished (Assignment operand inner) := by
  intro tokens next tree openings h
  cases h with
  | plain alone => exact Disjunction.unfinished (Unary.unfinished hoperand) alone
  | assign target sign behind => exact (hinner behind).behind (by rw [sign]; decide) _

theorem neverFinished_within (levels : Nat) :
    NeverFinished (ExpressionWithin levels) ∧ NeverFinished (OperandWithin levels) := by
  induction levels with
  | zero => exact ⟨by rintro _ _ _ _ ⟨⟩, by rintro _ _ _ _ ⟨⟩⟩
  | succ levels ih =>
    obtain ⟨hinner, hoperand⟩ := ih
    refine ⟨?_, ?_⟩
    · rintro _ next tree _ ⟨inside⟩
      exact Assignment.unfinished hoperand hinner inside
    · rintro _ next tree _ ⟨inside⟩
      exact Unary.unfinished hoperand inside

/-- **An expression never ends with a semicolon or a closing brace.** -/
theorem Expression.unfinished : NeverFinished Expression := by
  rintro tokens next tree openings ⟨levels, h⟩
  exact (neverFinished_within levels).1 h

/-! ## Statements -/

variable {function statement declaration : Phrase Stmt}

/-- Phrases that do not depend on what follows once they are finished, as long as that is no
`else`. -/
def Detached (phrase : Phrase α) : Prop :=
  ∀ ⦃tokens next tree openings⦄, phrase tokens next tree openings → Finished tokens →
    ∀ behind, behind ≠ .kwElse → phrase tokens behind tree openings

/-- An expression is only finished by the semicolon behind it. -/
theorem Ended.detached : Detached (Ended Expression) := by
  intro tokens next tree openings h hfinished behind _
  cases h with
  | semicolon before sign => exact .semicolon before sign
  | bare before stop => exact absurd hfinished (Expression.unfinished before).not_finished

theorem Braced.anywhere {tokens : List Token} {next : TokenKind} {body : List Stmt}
    {openings : List Opening} (h : Braced declaration tokens next body openings)
    (behind : TokenKind) : Braced declaration tokens behind body openings := by
  obtain ⟨isLeft, inside, isRight⟩ := h
  exact .intro isLeft inside isRight

theorem StartsWith.ne_nil {phrase : Phrase α} {wanted : TokenKind → Prop}
    (h : StartsWith phrase wanted) {tokens : List Token} {next : TokenKind} {tree : α}
    {openings : List Opening} (hphrase : phrase tokens next tree openings) : tokens ≠ [] := by
  obtain ⟨token, rest, rfl, _⟩ := h hphrase
  exact List.cons_ne_nil token rest

theorem detached_statementForm {wanted : TokenKind → Prop} (hstarts : StartsWith statement wanted)
    (h : Detached statement) : Detached (StatementForm statement declaration) := by
  intro tokens next tree openings hform hfinished behind hbehind
  have hended {tokens : List Token} {next : TokenKind} {value : Expr} {openings : List Opening}
      (ended : Ended Expression tokens next value openings) : tokens ≠ [] :=
    (Ended.starts Expression.starts).ne_nil ended
  cases hform with
  | expression alone noPrint =>
    obtain ⟨token, rest, rfl, _⟩ := Ended.starts Expression.starts alone
    exact .expression (Ended.detached alone hfinished behind hbehind) noPrint
  | print isPrint inside =>
    have hinside := hfinished.of_cons (hended inside)
    exact .print isPrint (Ended.detached inside hinside behind hbehind)
  | returnValue isReturn inside =>
    have hinside := hfinished.of_cons (hended inside)
    exact .returnValue isReturn (Ended.detached inside hinside behind hbehind)
  | returnMarked isReturn sign => exact .returnMarked isReturn sign
  | returnBare isReturn stop =>
    exact absurd hfinished (unfinished_nil.cons (by rw [isReturn]; decide)).not_finished
  | block braced => exact .block (braced.anywhere behind)
  | branch isIf first isThen second stop =>
    have hsecond := (@Finished.of_append (_ :: _) _ hfinished (List.cons_ne_nil _ _)).of_cons
      (hstarts.ne_nil second)
    exact .branch isIf first isThen (h second hsecond behind hbehind) hbehind
  | branchElse isIf first isThen second isElse third =>
    have hlater := (@Finished.of_append (_ :: _) _ hfinished (List.cons_ne_nil _ _)).of_cons
      (List.append_ne_nil_of_right_ne_nil _ (List.cons_ne_nil _ _))
    have hthird := (hlater.of_append (List.cons_ne_nil _ _)).of_cons (hstarts.ne_nil third)
    exact .branchElse isIf first isThen second isElse (h third hthird behind hbehind)
  | loop isWhile first isDo second =>
    have hsecond := (@Finished.of_append (_ :: _) _ hfinished (List.cons_ne_nil _ _)).of_cons
      (hstarts.ne_nil second)
    exact .loop isWhile first isDo (h second hsecond behind hbehind)

theorem detached_statementWithin (levels : Nat) : Detached (StatementWithin levels) := by
  induction levels with
  | zero => rintro _ _ _ _ ⟨⟩
  | succ levels ih =>
    rintro _ next tree _ ⟨inside⟩ hfinished behind hbehind
    exact .intro
      (detached_statementForm (StatementWithin.starts levels) ih inside hfinished behind hbehind)

theorem detached_functionWithin (levels : Nat) : Detached (FunctionWithin levels) := by
  cases levels with
  | zero => rintro _ _ _ _ ⟨⟩
  | succ levels =>
    rintro _ next tree _ ⟨⟨isName, isLeft, inside, isRight, braced⟩⟩ _ behind _
    exact .intro (.intro isName isLeft inside isRight (braced.anywhere behind))

theorem functionWithin_ne_nil {levels : Nat} {tokens : List Token} {next : TokenKind} {tree : Stmt}
    {openings : List Opening} (h : FunctionWithin levels tokens next tree openings) :
    tokens ≠ [] := by
  cases levels with
  | zero => cases h
  | succ levels => exact (Deeper.starts FunctionForm.starts).ne_nil h

theorem Declaration.detached : Detached Declaration := by
  rintro tokens next tree openings ⟨levels, h⟩ hfinished behind hbehind
  cases h with
  | function isFunction inside =>
    have hinside := hfinished.of_cons (functionWithin_ne_nil inside)
    exact ⟨levels, .function isFunction
      (detached_functionWithin levels inside hinside behind hbehind)⟩
  | statement alone =>
    exact ⟨levels, .statement (detached_statementWithin levels alone hfinished behind hbehind)⟩

/-- **A finished sequence of declarations does not depend on what follows**, as long as that is no
`else`. -/
theorem Sequence.detached {tokens : List Token} {next : TokenKind} {trees : List Stmt}
    {openings : List Opening} (h : Sequence Declaration tokens next trees openings)
    (hfinished : tokens ≠ [] → Finished tokens) {behind : TokenKind} (hbehind : behind ≠ .kwElse) :
    Sequence Declaration tokens behind trees openings := by
  induction h with
  | stop => exact .stop
  | @step tokens rest next tree trees openings later first others ih =>
    have htokens := Declaration.starts.ne_nil first
    have hwhole := hfinished (List.append_ne_nil_of_left_ne_nil htokens rest)
    refine .step ?_ (ih fun hrest => hwhole.of_append hrest)
    cases rest with
    | nil =>
      -- the first declaration is the last one, and what follows stands directly behind it
      rw [List.append_nil] at hwhole
      exact Declaration.detached first hwhole behind hbehind
    | cons token rest => exact first

end Grammar

end Scriptlet
