import Scriptlet.Syntax.Parser.Expression

/-!
# The grammar of expressions

The grammar says which sequences of tokens are expressions, and which trees they stand for:

```text
assignment  ::= or "=" assignment | or
or          ::= and ( "or" and )*
and         ::= equality ( "and" equality )*
equality    ::= comparison ( ( "==" | "!=" ) comparison )*
comparison  ::= term ( ( "<" | "<=" | ">" | ">=" ) term )*
term        ::= factor ( ( "+" | "-" ) factor )*
factor      ::= unary ( ( "*" | "/" ) unary )*
unary       ::= ( "not" | "-" ) unary | call
call        ::= primary ( "(" ( assignment ( "," assignment )* )? ")" )*
primary     ::= NUMBER | STRING | "true" | "false" | IDENT | "print" | "input"
              | "(" assignment ")"
```

A phrase is given together with the kind of the token behind it, because an optional or repeated
part is left out only if that token does not begin it. The left side of an equals sign is a phrase
whose tree is a name.

## Openings

A phrase also comes with the list of its openings: the tokens at which an expression is entered,
in the order of reading, each with the number of expressions that are open there. What the limit
on nesting does to a script can be read off that list.

## Main definitions

* `Grammar.Phrase` — which tokens before which kind of token have which tree and openings
* `Grammar.Entries`, `Grammar.Deeper` — lists with commas, and phrases one level deeper
* `Grammar.Primary`, `Call`, `Unary`, `Factor`, …, `Disjunction`, `Assignment` — the rules above
* `Grammar.ExpressionWithin`, `Grammar.Expression` — expressions, with and without a bound on
  their nesting

## Main results

* `Grammar.Expression.starts` — the kinds of tokens that an expression can start with
-/

namespace Scriptlet

/-- The kind of the first of some tokens, or of the token behind them if there are none. -/
def kindAhead (tokens : List Token) (next : TokenKind) : TokenKind :=
  (tokens.head?.map Token.kind).getD next

@[simp] theorem kindAhead_nil (next : TokenKind) : kindAhead [] next = next := rfl

@[simp] theorem kindAhead_cons (token : Token) (tokens : List Token) (next : TokenKind) :
    kindAhead (token :: tokens) next = token.kind := rfl

theorem kindAhead_append (first second : List Token) (next : TokenKind) :
    kindAhead (first ++ second) next = kindAhead first (kindAhead second next) := by
  cases first <;> rfl

/-- The value that a token writes by itself. -/
def Token.literal? (token : Token) : Option Literal :=
  match token.kind with
  | .kwTrue => some (.boolean true)
  | .kwFalse => some (.boolean false)
  | .number => (Integer.read? token.lexeme).map .integer
  | .string => some (.string token.lexeme)
  | _ => none

/-- Whether tokens of a kind are names. -/
def TokenKind.IsName (kind : TokenKind) : Prop :=
  kind = .identifier ∨ kind = .kwPrint ∨ kind = .kwInput

namespace Grammar

/-! ## Phrases -/

/-- What a nesting level is opened for. -/
inductive Nesting where
  | expression
  | statement
deriving DecidableEq

/-- A place where reading goes one level deeper. -/
structure Opening where
  /-- What is entered. -/
  nesting : Nesting
  /-- The first token of what is entered. -/
  token : Token
  /-- How many levels of this kind are open before. -/
  depth : Nat

/-- The same place inside one more level. -/
def Opening.deeper (nesting : Nesting) (opening : Opening) : Opening :=
  if opening.nesting = nesting then { opening with depth := opening.depth + 1 } else opening

/-- Tokens, the kind of the token behind them, the tree they stand for, and their openings. -/
abbrev Phrase (α : Type) := List Token → TokenKind → α → List Opening → Prop

/-- A phrase that opens a level at its first token. -/
inductive Deeper {α : Type} (nesting : Nesting) (phrase : Phrase α) : Phrase α
  | intro {token : Token} {tokens : List Token} {next : TokenKind} {tree : α}
      {openings : List Opening} (inside : phrase (token :: tokens) next tree openings) :
      Deeper nesting phrase (token :: tokens) next tree
        (⟨nesting, token, 0⟩ :: openings.map (.deeper nesting))

/-- One or more entries with commas between them: `entry ( "," entry )*`. -/
inductive Separated {α : Type} (entry : Phrase α) : Phrase (List α)
  | last {tokens : List Token} {next : TokenKind} {tree : α} {openings : List Opening}
      (first : entry tokens next tree openings) (stop : next ≠ .comma) :
      Separated entry tokens next [tree] openings
  | more {tokens rest : List Token} {comma : Token} {next : TokenKind} {tree : α}
      {trees : List α} {openings later : List Opening}
      (first : entry tokens .comma tree openings) (sign : comma.kind = .comma)
      (others : Separated entry rest next trees later) :
      Separated entry (tokens ++ comma :: rest) next (tree :: trees) (openings ++ later)

/-- What stands between two parentheses: `( entry ( "," entry )* )?`, not too many entries. -/
inductive Entries {α : Type} (entry : Phrase α) : Phrase (List α)
  | none : Entries entry [] .rightParen [] []
  | some {tokens : List Token} {next : TokenKind} {trees : List α} {openings : List Opening}
      (all : Separated entry tokens next trees openings) (count : trees.length ≤ maxEntries) :
      Entries entry tokens next trees openings

/-! ## Forms of expressions -/

/-- A literal, a name, or an expression in parentheses. -/
inductive Primary (inner : Phrase Expr) : Phrase Expr
  | literal {token : Token} {next : TokenKind} {value : Literal}
      (written : token.literal? = some value) :
      Primary inner [token] next (.literal value) []
  | name {token : Token} {next : TokenKind} (isName : token.kind.IsName) :
      Primary inner [token] next (.var token) []
  | group {left right : Token} {tokens : List Token} {next : TokenKind} {tree : Expr}
      {openings : List Opening} (isLeft : left.kind = .leftParen)
      (inside : inner tokens .rightParen tree openings) (isRight : right.kind = .rightParen) :
      Primary inner (left :: (tokens ++ [right])) next tree openings

/-- The argument lists behind an expression: `( "(" arguments? ")" )*`. -/
inductive Arguments (inner : Phrase Expr) : Expr → Phrase Expr
  | stop {callee : Expr} {next : TokenKind} (none : next ≠ .leftParen) :
      Arguments inner callee [] next callee []
  | step {callee tree : Expr} {left right : Token} {tokens rest : List Token}
      {next : TokenKind} {arguments : List Expr} {openings later : List Opening}
      (isLeft : left.kind = .leftParen)
      (inside : Entries inner tokens .rightParen arguments openings)
      (isRight : right.kind = .rightParen)
      (others : Arguments inner (.call callee right arguments) rest next tree later) :
      Arguments inner callee (left :: (tokens ++ right :: rest)) next tree (openings ++ later)

/-- An expression that stands alone and the argument lists behind it. -/
inductive Call (inner : Phrase Expr) : Phrase Expr
  | intro {tokens rest : List Token} {next : TokenKind} {callee tree : Expr}
      {openings later : List Opening}
      (first : Primary inner tokens (kindAhead rest next) callee openings)
      (others : Arguments inner callee rest next tree later) :
      Call inner (tokens ++ rest) next tree (openings ++ later)

/-- A call, or an operator in front of an operand. -/
inductive Unary (operand inner : Phrase Expr) : Phrase Expr
  | operator {operator : Token} {tokens : List Token} {next : TokenKind} {tree : Expr}
      {openings : List Opening} (isOperator : operator.kind = .kwNot ∨ operator.kind = .minus)
      (behind : operand tokens next tree openings) :
      Unary operand inner (operator :: tokens) next (.unary operator tree) openings
  | call {tokens : List Token} {next : TokenKind} {tree : Expr} {openings : List Opening}
      (call : Call inner tokens next tree openings) :
      Unary operand inner tokens next tree openings

/-- The operators and operands behind an operand of a level: `( operator operand )*`. -/
inductive Operators (level : Level) (operand : Phrase Expr) : Expr → Phrase Expr
  | stop {left : Expr} {next : TokenKind} (none : next ∉ level.operators) :
      Operators level operand left [] next left []
  | step {left right tree : Expr} {operator : Token} {tokens rest : List Token}
      {next : TokenKind} {openings later : List Opening}
      (isOperator : operator.kind ∈ level.operators)
      (second : operand tokens (kindAhead rest next) right openings)
      (others : Operators level operand (level.join left operator right) rest next tree later) :
      Operators level operand left (operator :: (tokens ++ rest)) next tree (openings ++ later)

/-- Operands with operators of a level between them. -/
inductive Chain (level : Level) (operand : Phrase Expr) : Phrase Expr
  | intro {tokens rest : List Token} {next : TokenKind} {left tree : Expr}
      {openings later : List Opening}
      (first : operand tokens (kindAhead rest next) left openings)
      (others : Operators level operand left rest next tree later) :
      Chain level operand (tokens ++ rest) next tree (openings ++ later)

/-- Products and quotients: `unary ( ( "*" | "/" ) unary )*`. -/
def Factor (unary : Phrase Expr) : Phrase Expr := Chain ⟨[.star, .slash], .binary⟩ unary

/-- Sums and differences: `factor ( ( "+" | "-" ) factor )*`. -/
def Term (unary : Phrase Expr) : Phrase Expr := Chain ⟨[.plus, .minus], .binary⟩ (Factor unary)

/-- Comparisons by size: `term ( ( "<" | "<=" | ">" | ">=" ) term )*`. -/
def Comparison (unary : Phrase Expr) : Phrase Expr :=
  Chain ⟨[.greater, .greaterEqual, .less, .lessEqual], .binary⟩ (Term unary)

/-- Comparisons for equality: `comparison ( ( "==" | "!=" ) comparison )*`. -/
def Equality (unary : Phrase Expr) : Phrase Expr :=
  Chain ⟨[.equalEqual, .notEqual], .binary⟩ (Comparison unary)

/-- Conjunctions: `equality ( "and" equality )*`. -/
def Conjunction (unary : Phrase Expr) : Phrase Expr := Chain ⟨[.kwAnd], .logical⟩ (Equality unary)

/-- Disjunctions: `and ( "or" and )*`. -/
def Disjunction (unary : Phrase Expr) : Phrase Expr := Chain ⟨[.kwOr], .logical⟩ (Conjunction unary)

/-- Operators and operands, which an equals sign and a value may follow if they are a name. -/
inductive Assignment (operand inner : Phrase Expr) : Phrase Expr
  | plain {tokens : List Token} {next : TokenKind} {tree : Expr} {openings : List Opening}
      (alone : Disjunction (Unary operand inner) tokens next tree openings)
      (stop : next ≠ .assign) :
      Assignment operand inner tokens next tree openings
  | assign {tokens rest : List Token} {name equals : Token} {next : TokenKind} {value : Expr}
      {openings later : List Opening}
      (target : Disjunction (Unary operand inner) tokens .assign (.var name) openings)
      (sign : equals.kind = .assign) (behind : inner rest next value later) :
      Assignment operand inner (tokens ++ equals :: rest) next (.assign name value)
        (openings ++ later)

/-! ## Nesting -/

mutual

/-- Expressions with at most a number of levels open inside each other. -/
def ExpressionWithin : Nat → Phrase Expr
  | 0 => fun _ _ _ _ => False
  | levels + 1 =>
    Deeper .expression (Assignment (OperandWithin levels) (ExpressionWithin levels))

/-- Operands behind an operator, with at most a number of levels open inside each other. -/
def OperandWithin : Nat → Phrase Expr
  | 0 => fun _ _ _ _ => False
  | levels + 1 =>
    Deeper .expression (Unary (OperandWithin levels) (ExpressionWithin levels))

end

/-- Expressions, however deeply nested. -/
def Expression : Phrase Expr := fun tokens next tree openings =>
  ∃ levels, ExpressionWithin levels tokens next tree openings

/-! ## First tokens -/

/-- All phrases start with a token of a wanted kind; in particular none is empty. -/
def StartsWith {α : Type} (phrase : Phrase α) (wanted : TokenKind → Prop) : Prop :=
  ∀ ⦃tokens next tree openings⦄, phrase tokens next tree openings →
    ∃ token rest, tokens = token :: rest ∧ wanted token.kind

variable {α : Type} {operand inner : Phrase Expr}

theorem StartsWith.mono {phrase : Phrase α} {wanted other : TokenKind → Prop}
    (h : StartsWith phrase wanted) (weaker : ∀ kind, wanted kind → other kind) :
    StartsWith phrase other := by
  intro tokens next tree openings hphrase
  obtain ⟨token, rest, htokens, hkind⟩ := h hphrase
  exact ⟨token, rest, htokens, weaker _ hkind⟩

theorem StartsWith.ahead {phrase : Phrase α} {wanted : TokenKind → Prop}
    (h : StartsWith phrase wanted) {tokens : List Token} {next : TokenKind} {tree : α}
    {openings : List Opening} (hphrase : phrase tokens next tree openings) (behind : TokenKind) :
    wanted (kindAhead tokens behind) := by
  obtain ⟨token, rest, rfl, hkind⟩ := h hphrase
  exact hkind

/-- The kinds of tokens that an expression which stands alone can start with. -/
def startsPrimary (kind : TokenKind) : Prop :=
  kind ∈ [TokenKind.number, .string, .kwTrue, .kwFalse, .identifier, .kwPrint, .kwInput,
    .leftParen]

instance : DecidablePred startsPrimary := fun _ => inferInstanceAs (Decidable (_ ∈ _))

/-- The kinds of tokens that an expression can start with. -/
def startsExpression (kind : TokenKind) : Prop :=
  startsPrimary kind ∨ kind = .kwNot ∨ kind = .minus

instance : DecidablePred startsExpression := fun _ => inferInstanceAs (Decidable (_ ∨ _))

theorem startsPrimary_of_literal? {token : Token} {value : Literal}
    (h : token.literal? = some value) : startsPrimary token.kind := by
  unfold Token.literal? at h
  split at h <;> simp_all [startsPrimary]

theorem startsPrimary_of_isName {kind : TokenKind} (h : kind.IsName) : startsPrimary kind := by
  obtain rfl | rfl | rfl := h <;> decide

theorem Primary.starts : StartsWith (Primary inner) startsPrimary := by
  intro tokens next tree openings h
  cases h with
  | literal written => exact ⟨_, [], rfl, startsPrimary_of_literal? written⟩
  | name isName => exact ⟨_, [], rfl, startsPrimary_of_isName isName⟩
  | group isLeft => exact ⟨_, _, rfl, by rw [isLeft]; decide⟩

theorem Call.starts : StartsWith (Call inner) startsPrimary := by
  rintro _ next tree _ ⟨first, _⟩
  obtain ⟨token, rest, rfl, hkind⟩ := Primary.starts first
  exact ⟨token, _, rfl, hkind⟩

theorem Unary.starts : StartsWith (Unary operand inner) startsExpression := by
  intro tokens next tree openings h
  cases h with
  | operator isOperator => exact ⟨_, _, rfl, .inr isOperator⟩
  | call call =>
    obtain ⟨token, rest, rfl, hkind⟩ := Call.starts call
    exact ⟨token, rest, rfl, .inl hkind⟩

theorem Chain.starts {level : Level} {wanted : TokenKind → Prop}
    (h : StartsWith operand wanted) : StartsWith (Chain level operand) wanted := by
  rintro _ next tree _ ⟨first, _⟩
  obtain ⟨token, rest, rfl, hkind⟩ := h first
  exact ⟨token, _, rfl, hkind⟩

theorem Disjunction.starts {wanted : TokenKind → Prop} (h : StartsWith operand wanted) :
    StartsWith (Disjunction operand) wanted :=
  Chain.starts (Chain.starts (Chain.starts (Chain.starts (Chain.starts (Chain.starts h)))))

theorem Assignment.starts : StartsWith (Assignment operand inner) startsExpression := by
  intro tokens next tree openings h
  cases h with
  | plain alone => exact Disjunction.starts Unary.starts alone
  | assign target =>
    obtain ⟨token, rest, rfl, hkind⟩ := Disjunction.starts Unary.starts target
    exact ⟨token, _, rfl, hkind⟩

theorem Deeper.starts {phrase : Phrase α} {nesting : Nesting} {wanted : TokenKind → Prop}
    (h : StartsWith phrase wanted) : StartsWith (Deeper nesting phrase) wanted := by
  rintro _ next tree _ ⟨inside⟩
  exact h inside

theorem ExpressionWithin.starts (levels : Nat) :
    StartsWith (ExpressionWithin levels) startsExpression := by
  cases levels with
  | zero => rintro _ _ _ _ ⟨⟩
  | succ levels => exact Deeper.starts Assignment.starts

/-- **What an expression starts with.** -/
theorem Expression.starts : StartsWith Expression startsExpression := by
  rintro tokens next tree openings ⟨levels, h⟩
  exact ExpressionWithin.starts levels h

end Grammar

end Scriptlet
