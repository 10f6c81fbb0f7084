import Scriptlet.Proofs.Grammar.Expression
import Scriptlet.Syntax.Parser.Statement

/-!
# The grammar of statements and programs

```text
program     ::= declaration*
declaration ::= "function" IDENT "(" ( IDENT ( "," IDENT )* )? ")" "{" declaration* "}"
              | statement
statement   ::= "print" expression ";"?
              | "return" expression? ";"?
              | "{" declaration* "}"
              | "if" expression "then" statement ( "else" statement )?
              | "while" expression "do" statement
              | expression ";"?
```

As with expressions, a phrase knows the kind of the token behind it. An `else` and a semicolon are
left out only if the token behind is none, and a `return` has no value only in front of a
semicolon, a closing brace or the end. A statement that starts with `print` is no expression.

## Main definitions

* `Grammar.Ended`, `Grammar.Sequence` — an optional semicolon, and a repetition
* `Grammar.StatementForm`, `FunctionForm`, `DeclarationForm` — the rules above
* `Grammar.StatementWithin`, `FunctionWithin` — statements and functions with a bound on their
  nesting
* `Grammar.Declaration`, `Grammar.Program` — declarations and programs, however deeply nested

## Main results

* `Grammar.Declaration.starts` — the kinds of tokens that a declaration can start with
-/

namespace Scriptlet

namespace Grammar

/-! ## Forms -/

/-- A phrase with a semicolon behind it, if there is one: `phrase ";"?`. -/
inductive Ended {α : Type} (phrase : Phrase α) : Phrase α
  | semicolon {tokens : List Token} {mark : Token} {next : TokenKind} {tree : α}
      {openings : List Opening} (before : phrase tokens .semicolon tree openings)
      (sign : mark.kind = .semicolon) :
      Ended phrase (tokens ++ [mark]) next tree openings
  | bare {tokens : List Token} {next : TokenKind} {tree : α} {openings : List Opening}
      (before : phrase tokens next tree openings) (stop : next ≠ .semicolon) :
      Ended phrase tokens next tree openings

/-- Any number of declarations one behind the other: `declaration*`. -/
inductive Sequence (declaration : Phrase Stmt) : Phrase (List Stmt)
  | stop {next : TokenKind} : Sequence declaration [] next [] []
  | step {tokens rest : List Token} {next : TokenKind} {tree : Stmt} {trees : List Stmt}
      {openings later : List Opening}
      (first : declaration tokens (kindAhead rest next) tree openings)
      (others : Sequence declaration rest next trees later) :
      Sequence declaration (tokens ++ rest) next (tree :: trees) (openings ++ later)

theorem Sequence.mono {declaration other : Phrase Stmt}
    (h : ∀ ⦃tokens next tree openings⦄, declaration tokens next tree openings →
      other tokens next tree openings)
    {tokens : List Token} {next : TokenKind} {trees : List Stmt} {openings : List Opening}
    (hsequence : Sequence declaration tokens next trees openings) :
    Sequence other tokens next trees openings := by
  induction hsequence with
  | stop => exact .stop
  | step first _ ih => exact .step (h first) ih

/-- Declarations between braces: `"{" declaration* "}"`. -/
inductive Braced (declaration : Phrase Stmt) : Phrase (List Stmt)
  | intro {left right : Token} {tokens : List Token} {next : TokenKind} {body : List Stmt}
      {openings : List Opening} (isLeft : left.kind = .leftBrace)
      (inside : Sequence declaration tokens .rightBrace body openings)
      (isRight : right.kind = .rightBrace) :
      Braced declaration (left :: (tokens ++ [right])) next body openings

/-- The forms of statements, given the phrases that stand inside them. -/
inductive StatementForm (statement declaration : Phrase Stmt) : Phrase Stmt
  | expression {tokens : List Token} {next : TokenKind} {value : Expr}
      {openings : List Opening} (alone : Ended Expression tokens next value openings)
      (noPrint : kindAhead tokens next ≠ .kwPrint) :
      StatementForm statement declaration tokens next (.expression value) openings
  | print {keyword : Token} {tokens : List Token} {next : TokenKind} {value : Expr}
      {openings : List Opening} (isPrint : keyword.kind = .kwPrint)
      (behind : Ended Expression tokens next value openings) :
      StatementForm statement declaration (keyword :: tokens) next (.print value) openings
  | returnValue {keyword : Token} {tokens : List Token} {next : TokenKind} {value : Expr}
      {openings : List Opening} (isReturn : keyword.kind = .kwReturn)
      (behind : Ended Expression tokens next value openings) :
      StatementForm statement declaration (keyword :: tokens) next (.ret keyword (some value))
        openings
  | returnMarked {keyword mark : Token} {next : TokenKind} (isReturn : keyword.kind = .kwReturn)
      (sign : mark.kind = .semicolon) :
      StatementForm statement declaration [keyword, mark] next (.ret keyword none) []
  | returnBare {keyword : Token} {next : TokenKind} (isReturn : keyword.kind = .kwReturn)
      (stop : next = .rightBrace ∨ next = .endOfInput) :
      StatementForm statement declaration [keyword] next (.ret keyword none) []
  | block {tokens : List Token} {next : TokenKind} {body : List Stmt} {openings : List Opening}
      (braced : Braced declaration tokens next body openings) :
      StatementForm statement declaration tokens next (.block body) openings
  | branch {keyword word : Token} {tokens rest : List Token} {next : TokenKind}
      {condition : Expr} {yes : Stmt} {openings later : List Opening}
      (isIf : keyword.kind = .kwIf) (first : Expression tokens .kwThen condition openings)
      (isThen : word.kind = .kwThen) (second : statement rest next yes later)
      (stop : next ≠ .kwElse) :
      StatementForm statement declaration (keyword :: (tokens ++ word :: rest)) next
        (.branch condition yes none) (openings ++ later)
  | branchElse {keyword word other : Token} {tokens rest last : List Token} {next : TokenKind}
      {condition : Expr} {yes no : Stmt} {openings later latest : List Opening}
      (isIf : keyword.kind = .kwIf) (first : Expression tokens .kwThen condition openings)
      (isThen : word.kind = .kwThen) (second : statement rest .kwElse yes later)
      (isElse : other.kind = .kwElse) (third : statement last next no latest) :
      StatementForm statement declaration (keyword :: (tokens ++ word :: (rest ++ other :: last)))
        next (.branch condition yes (some no)) (openings ++ (later ++ latest))
  | loop {keyword word : Token} {tokens rest : List Token} {next : TokenKind}
      {condition : Expr} {body : Stmt} {openings later : List Opening}
      (isWhile : keyword.kind = .kwWhile) (first : Expression tokens .kwDo condition openings)
      (isDo : word.kind = .kwDo) (second : statement rest next body later) :
      StatementForm statement declaration (keyword :: (tokens ++ word :: rest)) next
        (.loop condition body) (openings ++ later)

/-- The name of a parameter. -/
inductive Parameter : Phrase Token
  | intro {token : Token} {next : TokenKind} (isName : token.kind = .identifier) :
      Parameter [token] next token []

/-- What follows a `function`, given the declarations of its body. -/
inductive FunctionForm (declaration : Phrase Stmt) : Phrase Stmt
  | intro {name left right : Token} {tokens rest : List Token} {next : TokenKind}
      {params : List Token} {body : List Stmt} {openings later : List Opening}
      (isName : name.kind = .identifier) (isLeft : left.kind = .leftParen)
      (inside : Entries Parameter tokens .rightParen params openings)
      (isRight : right.kind = .rightParen) (braced : Braced declaration rest next body later) :
      FunctionForm declaration (name :: left :: (tokens ++ right :: rest)) next
        (.function name params body) (openings ++ later)

/-- A function or a statement. -/
inductive DeclarationForm (function statement : Phrase Stmt) : Phrase Stmt
  | function {keyword : Token} {tokens : List Token} {next : TokenKind} {tree : Stmt}
      {openings : List Opening} (isFunction : keyword.kind = .kwFunction)
      (behind : function tokens next tree openings) :
      DeclarationForm function statement (keyword :: tokens) next tree openings
  | statement {tokens : List Token} {next : TokenKind} {tree : Stmt} {openings : List Opening}
      (alone : statement tokens next tree openings) :
      DeclarationForm function statement tokens next tree openings

/-! ## Nesting -/

mutual

/-- Statements with at most a number of levels open inside each other. -/
def StatementWithin : Nat → Phrase Stmt
  | 0 => fun _ _ _ _ => False
  | levels + 1 =>
    Deeper .statement (StatementForm (StatementWithin levels)
      (DeclarationForm (FunctionWithin levels) (StatementWithin levels)))

/-- What follows a `function`, with at most a number of levels open inside each other. -/
def FunctionWithin : Nat → Phrase Stmt
  | 0 => fun _ _ _ _ => False
  | levels + 1 =>
    Deeper .statement (FunctionForm
      (DeclarationForm (FunctionWithin levels) (StatementWithin levels)))

end

/-- Declarations with at most a number of levels open inside each other. -/
def DeclarationWithin (levels : Nat) : Phrase Stmt :=
  DeclarationForm (FunctionWithin levels) (StatementWithin levels)

/-- Declarations, however deeply nested. -/
def Declaration : Phrase Stmt := fun tokens next tree openings =>
  ∃ levels, DeclarationWithin levels tokens next tree openings

/-- Programs: declarations up to the end. -/
def Program (tokens : List Token) (statements : List Stmt) (openings : List Opening) : Prop :=
  Sequence Declaration tokens .endOfInput statements openings

/-! ## First tokens -/

variable {α : Type} {function statement declaration : Phrase Stmt}

/-- The kinds of tokens that a statement can start with. -/
def startsStatement (kind : TokenKind) : Prop :=
  startsExpression kind ∨ kind ∈ [TokenKind.kwReturn, .kwPrint, .leftBrace, .kwIf, .kwWhile]

instance : DecidablePred startsStatement := fun _ => inferInstanceAs (Decidable (_ ∨ _))

theorem Ended.starts {phrase : Phrase α} {wanted : TokenKind → Prop}
    (h : StartsWith phrase wanted) : StartsWith (Ended phrase) wanted := by
  intro tokens next tree openings hended
  cases hended with
  | semicolon before =>
    obtain ⟨token, rest, rfl, hkind⟩ := h before
    exact ⟨token, _, rfl, hkind⟩
  | bare before => exact h before

theorem StatementForm.starts : StartsWith (StatementForm statement declaration) startsStatement := by
  intro tokens next tree openings h
  cases h with
  | expression alone =>
    obtain ⟨token, rest, rfl, hkind⟩ := Ended.starts Expression.starts alone
    exact ⟨token, rest, rfl, .inl hkind⟩
  | print isPrint => exact ⟨_, _, rfl, by rw [isPrint]; decide⟩
  | returnValue isReturn => exact ⟨_, _, rfl, by rw [isReturn]; decide⟩
  | returnMarked isReturn => exact ⟨_, _, rfl, by rw [isReturn]; decide⟩
  | returnBare isReturn => exact ⟨_, _, rfl, by rw [isReturn]; decide⟩
  | block braced =>
    obtain ⟨isLeft, _, _⟩ := braced
    exact ⟨_, _, rfl, by rw [isLeft]; decide⟩
  | branch isIf => exact ⟨_, _, rfl, by rw [isIf]; decide⟩
  | branchElse isIf => exact ⟨_, _, rfl, by rw [isIf]; decide⟩
  | loop isWhile => exact ⟨_, _, rfl, by rw [isWhile]; decide⟩

theorem StatementWithin.starts (levels : Nat) :
    StartsWith (StatementWithin levels) startsStatement := by
  cases levels with
  | zero => rintro _ _ _ _ ⟨⟩
  | succ levels => exact Deeper.starts StatementForm.starts

theorem FunctionForm.starts : StartsWith (FunctionForm declaration) (· = .identifier) := by
  rintro _ next tree _ ⟨isName, _⟩
  exact ⟨_, _, rfl, isName⟩

theorem DeclarationForm.starts (h : StartsWith statement startsStatement) :
    StartsWith (DeclarationForm function statement)
      fun kind => startsStatement kind ∨ kind = .kwFunction := by
  intro tokens next tree openings hform
  cases hform with
  | function isFunction => exact ⟨_, _, rfl, .inr isFunction⟩
  | statement alone =>
    obtain ⟨token, rest, rfl, hkind⟩ := h alone
    exact ⟨token, rest, rfl, .inl hkind⟩

theorem DeclarationWithin.starts (levels : Nat) :
    StartsWith (DeclarationWithin levels) fun kind => startsStatement kind ∨ kind = .kwFunction :=
  DeclarationForm.starts (StatementWithin.starts levels)

/-- **What a declaration starts with.** -/
theorem Declaration.starts :
    StartsWith Declaration fun kind => startsStatement kind ∨ kind = .kwFunction := by
  rintro tokens next tree openings ⟨levels, h⟩
  exact DeclarationWithin.starts levels h

end Grammar

end Scriptlet
