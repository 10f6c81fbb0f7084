import Scriptlet.Session.Basic

/-!
# Running statements

Expressions are evaluated and statements executed from left to right and from top to bottom. A
statement ends normally or by returning a value from the innermost open call.

A script need not end, so a run is given a number of steps. Each step leads from an expression or
a statement to one of its parts, to the body of a function that is called, or to the next round of
a loop. A run that ends with some number of steps ends in the same way with every larger number;
one that uses its steps up stops with `Stop.exhausted`, which is no fault of the script.

## Main definitions

* `Flow` — how a statement ended
* `Action.evalWith`, `Action.execWith` — what an expression and a statement mean, given what their
  parts mean
* `Action.eval`, `Action.exec` — expressions and statements, with a number of steps
* `Action.interpret` — the statements of a script

## Implementation notes

`evalWith` and `execWith` are not recursive: they take the meaning of smaller runs as arguments.
Everything that holds of all runs is shown for these two once and then follows by induction on the
number of steps.
-/

namespace Scriptlet

/-- How a statement ended. -/
inductive Flow where
  /-- The next statement is to be executed. -/
  | normal
  /-- The innermost open call is to end with a value. -/
  | returned (value : Value)
deriving Inhabited

namespace Action

/-! ## Calls -/

/-- Executes statements up to the first that returns. -/
def execAll (exec : Stmt → Action Flow) : List Stmt → Action Flow
  | [] => return .normal
  | stmt :: rest => do
    match ← exec stmt with
    | .normal => execAll exec rest
    | .returned value => return .returned value

/-- Evaluates expressions from left to right. -/
def evalAll (eval : Expr → Action Value) : List Expr → Action (List Value)
  | [] => return []
  | expr :: rest => do
    let value ← eval expr
    return value :: (← evalAll eval rest)

/-- Calls a function that every script finds. Printing fails without notice. -/
def callNative (location : Location) : Native → List Value → Action Value
  | .print, arguments => do
    onTerminalQuietly (Terminal.writeLine ((arguments.head?.map Value.text).getD ""))
    return .absent
  | .input, arguments => do
    onTerminal location (Terminal.writePrompt ((arguments.head?.map Value.text).getD ""))
    match ← onTerminal location Terminal.readLine with
    | some line => return .string line
    | none => return .absent

/-- Calls a function that a script declared. Its body runs in a new scope inside the scope of the
declaration. A body that does not return gives the last value. -/
def callFunction (exec : Stmt → Action Flow) (location : Location) (function : Function)
    (arguments : List Value) : Action Value := do
  let limit := (← get).options.maxCallDepth
  if limit ≤ (← get).callDepth then
    fault (.stackOverflow limit) location
  let scope ← openScope function.scope
  bindParams scope function.declaration.params arguments
  match ← calling (within scope (execAll exec function.declaration.body)) with
  | .returned value => return value
  | .normal => return (← get).lastValue

/-- Checks that a function gets as many arguments as it takes. -/
def checkArity (location : Location) (name : String) (arity : Nat) (arguments : List Value) :
    Action Unit := do
  if arguments.length ≠ arity then
    fault (.argumentCount name arity arguments.length) location

/-- Calls a value. -/
def call (exec : Stmt → Action Flow) (location : Location) (callee : Value)
    (arguments : List Value) : Action Value := do
  match callee with
  | .function f =>
    checkArity location f.name f.arity arguments
    callFunction exec location f arguments
  | .native f =>
    checkArity location f.name f.arity arguments
    callNative location f arguments
  | other => fault (.notCallable other.typeName) location

/-! ## One step -/

/-- What an expression means, given what smaller runs mean. -/
@[inline] def evalWith (eval : Expr → Action Value) (exec : Stmt → Action Flow) :
    Expr → Action Value
  | .literal value => return .ofLiteral value
  | .var name => lookup name
  | .assign name expr => do
    let value ← eval expr
    assign name.lexeme value
    remember value
    return value
  | .unary operator operand => do
    let value ← eval operand
    ofExcept operator.location (Value.unary operator value)
  | .binary left operator right => do
    let a ← eval left
    let b ← eval right
    ofExcept operator.location (Value.binary operator a b)
  | .logical left operator right => do
    let value ← eval left
    match operator.kind with
    | .kwOr => if value.isTruthy then return .boolean true else eval right
    | .kwAnd => if value.isTruthy then eval right else return .boolean false
    | _ => fault (.unsupportedOperator operator.lexeme) operator.location
  | .call callee paren arguments => do
    let function ← eval callee
    let values ← evalAll eval arguments
    call exec paren.location function values

/-- What a statement means, given what smaller runs mean. -/
@[inline] def execWith (eval : Expr → Action Value) (exec : Stmt → Action Flow) :
    Stmt → Action Flow
  | .expression expr => do
    remember (← eval expr)
    return .normal
  | .print expr => do
    let value ← eval expr
    onTerminal expr.location (Terminal.writeLine value.text)
    remember value
    return .normal
  | .var name expr? => do
    let value ←
      match expr? with
      | some expr => eval expr
      | none => pure .absent
    define name.lexeme value
    remember value
    return .normal
  | .block body => do
    let scope ← openScope (← get).scope
    within scope (execAll exec body)
  | .branch condition yes no? => do
    if (← eval condition).isTruthy then exec yes
    else
      match no? with
      | some no => exec no
      | none => return .normal
  | .loop condition body => do
    if (← eval condition).isTruthy then
      match ← exec body with
      | .normal => exec (.loop condition body)
      | .returned value => return .returned value
    else return .normal
  | .function name params body => do
    define name.lexeme (.function (← makeFunction ⟨name, params, body⟩))
    return .normal
  | .ret keyword expr? => do
    if (← get).callDepth = 0 then
      fault .returnOutsideFunction keyword.location
    match expr? with
    | some expr => return .returned (← eval expr)
    | none => return .returned .absent

/-! ## All steps -/

mutual

/-- Evaluates an expression with a number of steps. -/
def eval : Nat → Expr → Action Value
  | 0, _ => throw .exhausted
  | steps + 1, expr => evalWith (eval steps) (exec steps) expr

/-- Executes a statement with a number of steps. -/
def exec : Nat → Stmt → Action Flow
  | 0, _ => throw .exhausted
  | steps + 1, stmt => execWith (eval steps) (exec steps) stmt

end

/-! ## Scripts -/

/-- Shows the last value if that was chosen and the statement is an expression. -/
def echo (stmt : Stmt) : Action Unit := do
  match stmt with
  | .expression _ =>
    let session ← get
    if session.options.dump then
      onTerminal .unknown (Terminal.writeLine (">> " ++ session.lastValue.text))
  | _ => return

/-- Executes the statements at the top of a script. -/
def execTop (steps : Nat) : List Stmt → Action Unit
  | [] => return
  | stmt :: rest => do
    let _ ← exec steps stmt
    echo stmt
    execTop steps rest

/-- Executes the statements of a script, and makes sure that everything written has arrived. -/
def interpret (steps : Nat) (statements : List Stmt) : Action Unit := do
  execTop steps statements
  onTerminal .unknown Terminal.flush

end Action

end Scriptlet
