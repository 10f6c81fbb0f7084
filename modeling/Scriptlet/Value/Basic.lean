import Scriptlet.Integer
import Scriptlet.Syntax.Basic
import Scriptlet.Text.Quoted

/-!
# Values

What an expression can be worth: an integer, a string, a boolean, a function, or nothing at all,
which is a value of its own. A declared function remembers the scope it was declared in, and is
told apart from every other function of its session by its identity, which is new with each
execution of a declaration.

## Main definitions

* `Function`, `Native` — functions that a script declares, and those that it finds
* `Value` — values, with `Value.isTruthy`, `Value.typeName`, `Value.text` and `==`
* `Value.describe?` — a function with its name and its number of parameters
-/

namespace Scriptlet

/-- What names a scope among all scopes of a store. -/
abbrev ScopeId := Nat

/-- A function that a script declared. -/
structure Function where
  /-- What tells the function apart from all others of its session. -/
  id : Nat
  /-- The declaration that was executed. -/
  declaration : FunctionDecl
  /-- The scope in which it was executed. -/
  scope : ScopeId
deriving Inhabited

/-- A function that every script finds. -/
inductive Native where
  /-- Writes a line. -/
  | print
  /-- Writes a prompt and reads a line. -/
  | input
deriving DecidableEq, Inhabited

namespace Native

/-- All functions that a script finds. -/
def all : List Native := [print, input]

/-- The name under which a script finds a function. -/
def name : Native → String
  | print => "print"
  | input => "input"

/-- How many arguments a function takes. -/
def arity : Native → Nat
  | print => 1
  | input => 1

end Native

namespace Function

/-- The name of a function. -/
def name (function : Function) : String := function.declaration.name.lexeme

/-- How many arguments a function takes. -/
def arity (function : Function) : Nat := function.declaration.params.length

end Function

/-- What an expression is worth. -/
inductive Value where
  | integer (n : Int64)
  | string (s : String)
  | boolean (b : Bool)
  | absent
  | function (f : Function)
  | native (f : Native)
deriving Inhabited

namespace Value

/-- The value of a literal. -/
def ofLiteral : Literal → Value
  | .integer n => integer n
  | .string s => string s
  | .boolean b => boolean b
  | .absent => absent

/-- Whether a condition with this value holds. -/
def isTruthy : Value → Bool
  | absent => false
  | boolean b => b
  | integer n => n != 0
  | string _ | function _ | native _ => true

/-- The name of the kind of a value. -/
def typeName : Value → String
  | integer _ => "integer"
  | string _ => "string"
  | boolean _ => "boolean"
  | absent => "absent"
  | function _ | native _ => "function"

/-- The text that a value is printed as. -/
def text : Value → String
  | integer n => Integer.text n
  | string s => s
  | boolean b => if b then "true" else "false"
  | absent => ""
  | function f => "<fn " ++ f.name ++ ">"
  | native _ => "<native fn>"

/-- Whether two values are equal. Values of different kinds never are. Declared functions are
compared by their numbers, which are counted within a session: there a function is equal only to
itself, but functions of two sessions can have the same number, and are equal then. -/
def beq : Value → Value → Bool
  | integer a, integer b => a == b
  | string a, string b => a == b
  | boolean a, boolean b => a == b
  | absent, absent => true
  | function f, function g => f.id == g.id
  | native f, native g => f == g
  | _, _ => false

instance : BEq Value := ⟨beq⟩

/-! ## Functions -/

/-- The name of a function. -/
def name? : Value → Option String
  | function f => some f.name
  | native f => some f.name
  | _ => none

/-- How many arguments a function takes. -/
def arity? : Value → Option Nat
  | function f => some f.arity
  | native f => some f.arity
  | _ => none

/-- The line that describes a function of a family. -/
def describeAs (family name : String) (arity : Nat) : String :=
  family ++ " \x7b name: " ++ Text.quoted name ++ ", arity: " ++ toString arity ++ " \x7d"

/-- The line that describes a function. -/
def describe? : Value → Option String
  | function f => some (describeAs "Function" f.name f.arity)
  | native f => some (describeAs "Native" f.name f.arity)
  | _ => none

end Value

end Scriptlet
