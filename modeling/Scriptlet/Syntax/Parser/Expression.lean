import Scriptlet.Integer
import Scriptlet.Syntax.Basic
import Scriptlet.Syntax.Parser.Basic

/-!
# Reading expressions

From the loosest to the tightest form: assignment, which groups to the right; six levels of
operators with two operands, which group to the left; `not` and minus in front of an operand;
calls; and what stands alone.

## Main definitions

* `Level`, `levels` — the operators with two operands, from the loosest level to the tightest
* `Parse.chain`, `Parse.climb` — one level, and all levels
* `Parse.unary`, `Parse.assignment` — the other forms, given the reads one nesting level deeper
* `Parse.expressionWithin`, `Parse.expression` — expressions

## Implementation notes

The forms are defined once for a single nesting level, as functions of the reads for the next
deeper level. `expressionWithin` and `operandWithin` then put the levels together by recursion on
the number of levels that may still be opened, and the limit on nesting is the case in which that
number is zero.
-/

namespace Scriptlet

/-- Operators with two operands that bind equally tightly. -/
structure Level where
  /-- The kinds of the operators. -/
  operators : List TokenKind
  /-- The tree of an operator and its two operands. -/
  join : Expr → Token → Expr → Expr

/-- The operators with two operands, from the loosest level to the tightest. -/
def levels : List Level :=
  [⟨[.kwOr], .logical⟩, ⟨[.kwAnd], .logical⟩, ⟨[.equalEqual, .notEqual], .binary⟩,
    ⟨[.greater, .greaterEqual, .less, .lessEqual], .binary⟩, ⟨[.plus, .minus], .binary⟩,
    ⟨[.star, .slash], .binary⟩]

namespace Parse

/-! ## Operators with two operands -/

/-- Joins an expression with the operators and operands that follow it on a level. -/
def chainFrom (level : Level) (operand : Parse Expr) : List Token → Expr → Parse Expr
  | [], left => pure left
  | _ :: rounds, left => do
    match ← acceptIf level.operators.contains with
    | some operator =>
      let right ← operand
      chainFrom level operand rounds (level.join left operator right)
    | none => return left

/-- Reads one or more operands with operators of a level between them. -/
def chain (level : Level) (operand : Parse Expr) : Parse Expr := do
  let left ← operand
  chainFrom level operand (← rounds) left

/-- Reads operands with operators of the given levels between them, the loosest level first. -/
def climb (operand : Parse Expr) : List Level → Parse Expr
  | [] => operand
  | level :: tighter => chain level (climb operand tighter)

/-! ## Forms that stand alone, and calls -/

/-- Reads a literal, a name, or an expression in parentheses. The words `print` and `input` are
names here. -/
def primary (inner : Parse Expr) : Parse Expr := do
  let token ← current
  match token.kind with
  | .kwFalse => let _ ← advance; return .literal (.boolean false)
  | .kwTrue => let _ ← advance; return .literal (.boolean true)
  | .number =>
    match Integer.read? token.lexeme with
    | some n => let _ ← advance; return .literal (.integer n)
    | none => fail (.integerOutOfRange token.lexeme)
  | .string => let _ ← advance; return .literal (.string token.lexeme)
  | .identifier | .kwPrint | .kwInput => let _ ← advance; return .var token
  | .leftParen =>
    let _ ← advance
    let value ← inner
    let _ ← expect .rightParen .noParenAfterExpression
    return value
  | _ => fail .noExpression

/-- Applies an expression to the argument lists that follow it. -/
def callsFrom (inner : Parse Expr) : List Token → Expr → Parse Expr
  | [], callee => pure callee
  | _ :: rounds, callee => do
    match ← accept .leftParen with
    | some _ =>
      let arguments ← entries .tooManyArguments inner
      let paren ← expect .rightParen .noParenAfterArguments
      callsFrom inner rounds (.call callee paren arguments)
    | none => return callee

/-- Reads an expression that stands alone and the argument lists that follow it. -/
def call (inner : Parse Expr) : Parse Expr := do
  let callee ← primary inner
  callsFrom inner (← rounds) callee

/-! ## Operators in front, and assignment -/

/-- Reads a call, or an operator and the operand behind it. -/
def unary (operand inner : Parse Expr) : Parse Expr := do
  match ← acceptIf [TokenKind.kwNot, .minus].contains with
  | some operator => return .unary operator (← operand)
  | none => call inner

/-- The tree of an assignment. Only a name can be assigned to; an error about any other target is
noted, and the target alone is the result. -/
def assignTo (target : Expr) (equals : Token) (value : Expr) : Parse Expr := do
  match target with
  | .var name => return .assign name value
  | other =>
    report ⟨.invalidTarget, equals⟩
    return other

/-- Reads operators and operands, and an assignment if an equals sign follows. -/
def assignment (operand inner : Parse Expr) : Parse Expr := do
  let target ← climb (unary operand inner) levels
  match ← accept .assign with
  | some equals => assignTo target equals (← inner)
  | none => return target

/-! ## Nesting -/

mutual

/-- Reads an expression, with a number of nesting levels that may be opened. -/
def expressionWithin : Nat → Parse Expr
  | 0 => fail .nestingTooDeep
  | levels + 1 => nested (assignment (operandWithin levels) (expressionWithin levels))

/-- Reads the operand behind an operator, with a number of nesting levels that may be opened. -/
def operandWithin : Nat → Parse Expr
  | 0 => fail .nestingTooDeep
  | levels + 1 => nested (unary (operandWithin levels) (expressionWithin levels))

end

/-- Reads an expression. -/
def expression : Parse Expr := fun parser => expressionWithin (maxNesting - parser.depth) parser

end Parse

end Scriptlet
