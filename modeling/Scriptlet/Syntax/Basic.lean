import Scriptlet.Token.Basic

/-!
# Expressions and statements

The trees that a script is read into. Operators and names are kept as tokens, so that a fault
can point at the place in the script where it arose.

## Main definitions

* `Literal`, `Expr`, `Stmt` — the trees
* `FunctionDecl` — what a function declaration declares
* `Stmt.placeholder` — what stands for a statement that could not be read
* `Expr.location` — the place that stands for an expression
-/

namespace Scriptlet

/-- A value written into a script. -/
inductive Literal where
  | integer (n : Int64)
  | string (s : String)
  | boolean (b : Bool)
  | absent
deriving DecidableEq, Inhabited

/-- An expression. -/
inductive Expr where
  /-- An operator that always needs both its operands. -/
  | binary (left : Expr) (operator : Token) (right : Expr)
  /-- An operator that may be settled by its left operand. -/
  | logical (left : Expr) (operator : Token) (right : Expr)
  /-- An operator in front of its only operand. -/
  | unary (operator : Token) (operand : Expr)
  | literal (value : Literal)
  /-- The value bound to a name. -/
  | var (name : Token)
  /-- Binds a value to a name, and has that value. -/
  | assign (name : Token) (value : Expr)
  /-- A call; the token is the parenthesis that closes the arguments. -/
  | call (callee : Expr) (paren : Token) (arguments : List Expr)
deriving Inhabited

/-- A statement. -/
inductive Stmt where
  | expression (value : Expr)
  | print (value : Expr)
  /-- Binds a name in the innermost scope, to the absent value if none is given. -/
  | var (name : Token) (value? : Option Expr)
  /-- Statements in a scope of their own. -/
  | block (body : List Stmt)
  | branch (condition : Expr) (yes : Stmt) (no? : Option Stmt)
  | loop (condition : Expr) (body : Stmt)
  | function (name : Token) (params : List Token) (body : List Stmt)
  | ret (keyword : Token) (value? : Option Expr)
deriving Inhabited

/-- What a function declaration declares. -/
structure FunctionDecl where
  /-- The name of the function. -/
  name : Token
  /-- The names of the parameters. -/
  params : List Token
  /-- The statements of the body. -/
  body : List Stmt
deriving Inhabited

/-- What stands for a statement that could not be read. -/
def Stmt.placeholder : Stmt := .expression (.literal .absent)

/-- The place that stands for an expression: its operator, name or closing parenthesis. A literal
has none. -/
def Expr.location : Expr → Location
  | binary _ operator _ => operator.location
  | logical _ operator _ => operator.location
  | unary operator _ => operator.location
  | literal _ => .unknown
  | var name => name.location
  | assign name _ => name.location
  | call _ paren _ => paren.location

end Scriptlet
