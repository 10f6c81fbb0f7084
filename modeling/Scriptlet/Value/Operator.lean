import Scriptlet.Fault
import Scriptlet.Value.Basic

/-!
# Operators on values

Equality compares any two values. All other operators with two operands work on integers, and
arithmetic refuses a result that does not fit. An operator is given as the token that stands for
it, because the token's spelling is part of what a fault says.

## Main definitions

* `Value.binary` — operators with two operands
* `Value.unary` — operators in front of their operand
-/

namespace Scriptlet

namespace Value

/-- The integer that an operation gives, or the fault that it gives none. -/
def orOverflow (operation : String) : Option Int64 → Except FaultCause Value
  | some n => .ok (integer n)
  | none => .error (.integerOverflow operation)

/-- How a fault writes an operation on two integers. -/
def operationText (a : Int64) (symbol : String) (b : Int64) : String :=
  Integer.text a ++ " " ++ symbol ++ " " ++ Integer.text b

/-- An operator with two operands on integers. -/
def binaryInteger (operator : Token) (a b : Int64) : Except FaultCause Value :=
  match operator.kind with
  | .plus => orOverflow (operationText a "+" b) (Integer.add? a b)
  | .minus => orOverflow (operationText a "-" b) (Integer.sub? a b)
  | .star => orOverflow (operationText a "*" b) (Integer.mul? a b)
  | .slash =>
    if b = 0 then .error .divisionByZero
    else orOverflow (operationText a "/" b) (Integer.quotient? a b)
  | .less => .ok (boolean (a < b))
  | .lessEqual => .ok (boolean (a ≤ b))
  | .greater => .ok (boolean (b < a))
  | .greaterEqual => .ok (boolean (b ≤ a))
  | _ => .error (.unsupportedOperator operator.lexeme)

/-- An operator with two operands. -/
def binary (operator : Token) (left right : Value) : Except FaultCause Value :=
  match operator.kind with
  | .equalEqual => .ok (boolean (left == right))
  | .notEqual => .ok (boolean (left != right))
  | _ =>
    match left, right with
    | integer a, integer b => binaryInteger operator a b
    | _, _ =>
      .error (.typeMismatch operator.lexeme (left.typeName ++ " and " ++ right.typeName))

/-- An operator in front of its operand. -/
def unary (operator : Token) (operand : Value) : Except FaultCause Value :=
  match operator.kind with
  | .kwNot => .ok (boolean (!operand.isTruthy))
  | .minus =>
    match operand with
    | integer n => orOverflow ("-(" ++ Integer.text n ++ ")") (Integer.neg? n)
    | _ => .error (.typeMismatch operator.lexeme operand.typeName)
  | _ => .error (.unsupportedOperator operator.lexeme)

end Value

end Scriptlet
