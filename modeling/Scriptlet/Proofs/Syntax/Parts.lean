import Scriptlet.Syntax.Basic

/-!
# The parts of a tree

What stands directly inside an expression or a statement.

## Main definitions

* `Expr.parts` — the expressions directly inside an expression
* `Expr.Throughout` — a property of an expression and of all expressions inside it
* `Stmt.exprs`, `Stmt.parts` — the expressions and the statements directly inside a statement
-/

namespace Scriptlet

/-- The expressions directly inside an expression, from left to right. -/
def Expr.parts : Expr → List Expr
  | .binary left _ right => [left, right]
  | .logical left _ right => [left, right]
  | .unary _ operand => [operand]
  | .literal _ => []
  | .var _ => []
  | .assign _ value => [value]
  | .call callee _ arguments => callee :: arguments

/-- An expression with a property that all expressions inside it have as well. -/
inductive Expr.Throughout (property : Expr → Prop) : Expr → Prop
  | intro {expr : Expr} : property expr → (∀ part ∈ expr.parts, Throughout property part) →
      Throughout property expr

namespace Expr.Throughout

variable {property : Expr → Prop} {expr : Expr}

theorem self (h : expr.Throughout property) : property expr := by
  cases h with
  | intro hself _ => exact hself

theorem part (h : expr.Throughout property) {part : Expr} (hmem : part ∈ expr.parts) :
    part.Throughout property := by
  cases h with
  | intro _ hparts => exact hparts part hmem

theorem imp {other : Expr → Prop} (h : expr.Throughout property)
    (himp : ∀ expr, property expr → other expr) : expr.Throughout other := by
  induction h with
  | intro hself _ ih => exact .intro (himp _ hself) ih

end Expr.Throughout

namespace Stmt

/-- The expressions directly inside a statement. -/
def exprs : Stmt → List Expr
  | expression value => [value]
  | print value => [value]
  | var _ value? => value?.toList
  | block _ => []
  | branch condition _ _ => [condition]
  | loop condition _ => [condition]
  | function _ _ _ => []
  | ret _ value? => value?.toList

/-- The statements directly inside a statement, which for a function are those of its body. -/
def parts : Stmt → List Stmt
  | block body => body
  | branch _ yes no? => yes :: no?.toList
  | loop _ body => [body]
  | function _ _ body => body
  | _ => []

end Stmt

end Scriptlet
