import Scriptlet.Proofs.Parser.Repetition

/-!
# Reading as a program over moves

A read looks at tokens and consumes them through a handful of moves, and nothing else about the
state matters to it. Here the reads of the language are written over any machine that has these
moves: a machine may keep its tokens as it likes, count the open levels for itself, and keep a
record of what it did.

Repetitions and the nesting of forms are counted out, as they have to be, but a count that is used up
is an outcome of its own. So what is shown of a machine on which no count is ever used up holds
without any count.

## Main definitions

* `Machine` — the moves
* `Counts`, `Counts.nested`, `Counts.nestedStatement` — how states count open levels, and reading
  one level deeper
* `Machine.expression`, `Machine.declaration`, `Machine.program` — the reads, over these moves
* `Parse.machine` — the moves on parsers
-/

namespace Scriptlet

/-- The moves that reading is made of, on states of any kind. -/
structure Machine (σ ε : Type) where
  /-- Gives the next token. -/
  peek : EStateM ε σ Token
  /-- Consumes the next token and gives it. -/
  advance : EStateM ε σ Token
  /-- Consumes the next token if it is of one of some kinds. -/
  acceptAny (kinds : List TokenKind) : EStateM ε σ (Option Token)
  /-- Fails at the next token. -/
  fail {α : Type} (cause : ParseCause) : EStateM ε σ α
  /-- Notes an error and goes on. -/
  report (error : ParseError) : EStateM ε σ Unit
  /-- Reads one expression level deeper, or fails if there are no more levels. -/
  nested {α : Type} (read : EStateM ε σ α) : EStateM ε σ α
  /-- Reads one statement level deeper, or fails if there are no more levels. -/
  nestedStatement {α : Type} (read : EStateM ε σ α) : EStateM ε σ α
  /-- Reads, and goes on after an error that is not fatal. -/
  recovering {α : Type} (substitute : α) (read : EStateM ε σ α) : EStateM ε σ α
  /-- How many turns a repetition that starts here may take. -/
  rounds (state : σ) : Nat
  /-- What happens where a count is used up. -/
  exhausted {α : Type} : EStateM ε σ α

/-- How states count the expressions and the statements that are open. -/
structure Counts (σ : Type) where
  /-- How many expressions are open. -/
  depth (state : σ) : Nat
  /-- How many statements are open. -/
  statementDepth (state : σ) : Nat
  /-- Changes the number of open expressions. -/
  changeDepth (change : Nat → Nat) (state : σ) : σ
  /-- Changes the number of open statements. -/
  changeStatementDepth (change : Nat → Nat) (state : σ) : σ

namespace Counts

variable {σ ε α : Type} (counts : Counts σ)

/-- Reads one expression level deeper, or fails if there are no more levels. -/
def nested (fail read : EStateM ε σ α) : EStateM ε σ α := fun state =>
  if counts.depth state < maxNesting then
    onState (counts.changeDepth (· - 1)) (read (counts.changeDepth (· + 1) state))
  else fail state

/-- Reads one statement level deeper, or fails if there are no more levels. -/
def nestedStatement (fail read : EStateM ε σ α) : EStateM ε σ α := fun state =>
  if counts.statementDepth state < maxStatementNesting then
    onState (counts.changeStatementDepth (· - 1)) (read (counts.changeStatementDepth (· + 1) state))
  else fail state

variable {counts} {fail read : EStateM ε σ α} {state : σ}

theorem nested_of_lt (h : counts.depth state < maxNesting) : counts.nested fail read state =
    onState (counts.changeDepth (· - 1)) (read (counts.changeDepth (· + 1) state)) :=
  if_pos h

theorem nested_of_le (h : maxNesting ≤ counts.depth state) :
    counts.nested fail read state = fail state :=
  if_neg (Nat.not_lt.mpr h)

theorem nestedStatement_of_lt (h : counts.statementDepth state < maxStatementNesting) :
    counts.nestedStatement fail read state = onState (counts.changeStatementDepth (· - 1))
      (read (counts.changeStatementDepth (· + 1) state)) :=
  if_pos h

theorem nestedStatement_of_le (h : maxStatementNesting ≤ counts.statementDepth state) :
    counts.nestedStatement fail read state = fail state :=
  if_neg (Nat.not_lt.mpr h)

end Counts

namespace Machine

variable {σ ε α τ : Type} (machine : Machine σ ε)

/-! ## Tokens and lists -/

/-- Consumes the next token if it is of a kind. -/
def accept (kind : TokenKind) : EStateM ε σ (Option Token) := machine.acceptAny [kind]

/-- Consumes the next token, which has to be of a kind. -/
def expect (kind : TokenKind) (cause : ParseCause) : EStateM ε σ Token := do
  match ← machine.accept kind with
  | some token => return token
  | none => machine.fail cause

/-- Takes turns up to one that is the last, or until the count is used up. -/
def repeating (turn : τ → EStateM ε σ (Turn τ)) : Nat → τ → EStateM ε σ τ
  | 0, _ => machine.exhausted
  | rounds + 1, state => do
    match ← turn state with
    | .again next => repeating turn rounds next
    | .done result => return result

/-- Takes turns up to one that is the last. -/
def repeated (turn : τ → EStateM ε σ (Turn τ)) (state : τ) : EStateM ε σ τ := fun start =>
  machine.repeating turn (machine.rounds start) state start

/-- Notes an error if a list is full. -/
def checkRoom (tooMany : ParseCause) (done : Array α) : EStateM ε σ Unit := do
  if done.size = maxEntries then
    machine.report ⟨tooMany, ← machine.peek⟩

/-- An entry of a list, and whether a comma follows it. -/
def entryTurn (tooMany : ParseCause) (entry : EStateM ε σ α) (done : Array α) :
    EStateM ε σ (Turn (Array α)) := do
  machine.checkRoom tooMany done
  let last ← entry
  match ← machine.accept .comma with
  | some _ => return .again (done.push last)
  | none => return .done (done.push last)

/-- Reads a list with commas between its entries, which is empty if a closing parenthesis is
next. -/
def entries (tooMany : ParseCause) (entry : EStateM ε σ α) : EStateM ε σ (List α) := do
  let next ← machine.peek
  if next.kind = .rightParen then return []
  let all ← machine.repeated (machine.entryTurn tooMany entry) #[]
  return all.toList

/-! ## Expressions -/

variable (operand inner : EStateM ε σ Expr)

/-- An operator of a level and the operand behind it. -/
def chainTurn (level : Level) (left : Expr) : EStateM ε σ (Turn Expr) := do
  match ← machine.acceptAny level.operators with
  | some operator =>
    let right ← operand
    return .again (level.join left operator right)
  | none => return .done left

/-- Reads operands with operators of the given levels between them, the loosest level first. -/
def climb : List Level → EStateM ε σ Expr
  | [] => operand
  | level :: tighter => do
    let left ← climb tighter
    machine.repeated (machine.chainTurn (climb tighter) level) left

/-- Reads a literal, a name, or an expression in parentheses. -/
def primary : EStateM ε σ Expr := do
  let token ← machine.peek
  match token.kind with
  | .kwFalse => let _ ← machine.advance; return .literal (.boolean false)
  | .kwTrue => let _ ← machine.advance; return .literal (.boolean true)
  | .number =>
    match Integer.read? token.lexeme with
    | some n => let _ ← machine.advance; return .literal (.integer n)
    | none => machine.fail (.integerOutOfRange token.lexeme)
  | .string => let _ ← machine.advance; return .literal (.string token.lexeme)
  | .identifier | .kwPrint | .kwInput => let _ ← machine.advance; return .var token
  | .leftParen =>
    let _ ← machine.advance
    let value ← inner
    let _ ← machine.expect .rightParen .noParenAfterExpression
    return value
  | _ => machine.fail .noExpression

/-- An argument list. -/
def callTurn (callee : Expr) : EStateM ε σ (Turn Expr) := do
  match ← machine.accept .leftParen with
  | some _ =>
    let arguments ← machine.entries .tooManyArguments inner
    let paren ← machine.expect .rightParen .noParenAfterArguments
    return .again (.call callee paren arguments)
  | none => return .done callee

/-- Reads an expression that stands alone and the argument lists that follow it. -/
def call : EStateM ε σ Expr := do
  let callee ← machine.primary inner
  machine.repeated (machine.callTurn inner) callee

/-- Reads a call, or an operator and the operand behind it. -/
def unary : EStateM ε σ Expr := do
  match ← machine.acceptAny [.kwNot, .minus] with
  | some operator => return .unary operator (← operand)
  | none => machine.call inner

/-- The tree of an assignment. -/
def assignTo (target : Expr) (equals : Token) (value : Expr) : EStateM ε σ Expr := do
  match target with
  | .var name => return .assign name value
  | other =>
    machine.report ⟨.invalidTarget, equals⟩
    return other

/-- Reads operators and operands, and an assignment if an equals sign follows. -/
def assignment : EStateM ε σ Expr := do
  let target ← machine.climb (machine.unary operand inner) levels
  match ← machine.accept .assign with
  | some equals => machine.assignTo target equals (← inner)
  | none => return target

mutual

/-- Reads an expression, with a count of the forms inside each other. -/
def expressionWithin : Nat → EStateM ε σ Expr
  | 0 => machine.exhausted
  | count + 1 => machine.nested (machine.assignment (operandWithin count) (expressionWithin count))

/-- Reads the operand behind an operator, with a count of the forms inside each other. -/
def operandWithin : Nat → EStateM ε σ Expr
  | 0 => machine.exhausted
  | count + 1 => machine.nested (machine.unary (operandWithin count) (expressionWithin count))

end

/-- Reads an expression. -/
def expression : EStateM ε σ Expr := machine.expressionWithin (maxNesting + 1)

/-! ## Statements -/

section Forms

variable (function statement declaration : EStateM ε σ Stmt)

/-- Consumes a semicolon if one is next. -/
def optionalSemicolon : EStateM ε σ Unit := do
  let _ ← machine.accept .semicolon

/-- A declaration, unless a token is next that ends them. -/
def declarationTurn (ends : TokenKind → Prop) [DecidablePred ends] (done : Array Stmt) :
    EStateM ε σ (Turn (Array Stmt)) := do
  if ends (← machine.peek).kind then return .done done
  let stmt ← declaration
  return .again (done.push stmt)

/-- Reads a block whose opening brace is consumed. -/
def block : EStateM ε σ (List Stmt) := do
  let body ← machine.repeated (machine.declarationTurn declaration Parse.EndsSequence) #[]
  let _ ← machine.expect .rightBrace .noBraceAfterBlock
  return body.toList

/-- Reads what follows a `return`. -/
def returnForm (keyword : Token) : EStateM ε σ Stmt := do
  let next ← machine.peek
  if next.kind = .semicolon ∨ next.kind = .rightBrace ∨ next.kind = .endOfInput then
    machine.optionalSemicolon
    return .ret keyword none
  let value ← machine.expression
  machine.optionalSemicolon
  return .ret keyword (some value)

/-- Reads what follows an `if`. -/
def branchForm : EStateM ε σ Stmt := do
  let condition ← machine.expression
  let _ ← machine.expect .kwThen .noThen
  let yes ← statement
  match ← machine.accept .kwElse with
  | some _ => return .branch condition yes (some (← statement))
  | none => return .branch condition yes none

/-- Reads what follows a `while`. -/
def loopForm : EStateM ε σ Stmt := do
  let condition ← machine.expression
  let _ ← machine.expect .kwDo .noDo
  return .loop condition (← statement)

/-- Reads a statement, given how the statements and declarations inside it are read. -/
def statementForm : EStateM ε σ Stmt := do
  match (← machine.peek).kind with
  | .kwReturn => machine.returnForm (← machine.advance)
  | .kwPrint =>
    let _ ← machine.advance
    let value ← machine.expression
    machine.optionalSemicolon
    return .print value
  | .leftBrace =>
    let _ ← machine.advance
    return .block (← machine.block declaration)
  | .kwIf =>
    let _ ← machine.advance
    machine.branchForm statement
  | .kwWhile =>
    let _ ← machine.advance
    machine.loopForm statement
  | _ =>
    let value ← machine.expression
    machine.optionalSemicolon
    return .expression value

/-- Reads what follows a `function`, given how the declarations of its body are read. -/
def functionForm : EStateM ε σ Stmt := do
  let name ← machine.expect .identifier .noFunctionName
  let _ ← machine.expect .leftParen .noParenAfterName
  let params ← machine.entries .tooManyParameters (machine.expect .identifier .noParameterName)
  let _ ← machine.expect .rightParen .noParenAfterParameters
  let _ ← machine.expect .leftBrace .noBraceBeforeBody
  return .function name params (← machine.block declaration)

/-- Reads a function or a statement, and goes on after an error. -/
def declarationForm : EStateM ε σ Stmt :=
  machine.recovering .placeholder do
    match ← machine.accept .kwFunction with
    | some _ => function
    | none => statement

end Forms

mutual

/-- Reads a statement, with a count of the forms inside each other. -/
def statementWithin : Nat → EStateM ε σ Stmt
  | 0 => machine.exhausted
  | count + 1 =>
    machine.nestedStatement (machine.statementForm (statementWithin count)
      (machine.declarationForm (functionWithin count) (statementWithin count)))

/-- Reads what follows a `function`, with a count of the forms inside each other. -/
def functionWithin : Nat → EStateM ε σ Stmt
  | 0 => machine.exhausted
  | count + 1 =>
    machine.nestedStatement (machine.functionForm
      (machine.declarationForm (functionWithin count) (statementWithin count)))

end

/-- Reads a function or a statement, and goes on after an error. -/
def declaration : EStateM ε σ Stmt :=
  machine.declarationForm (machine.functionWithin (maxStatementNesting + 1))
    (machine.statementWithin (maxStatementNesting + 1))

/-- Reads a program: all declarations up to the end. -/
def program : EStateM ε σ (List Stmt) := do
  let body ← machine.repeated (machine.declarationTurn machine.declaration (· = .endOfInput)) #[]
  return body.toList

end Machine

namespace Parse

/-- The moves on parsers. -/
def machine : Machine Parser ParseError where
  peek := current
  advance := advance
  acceptAny kinds := acceptIf kinds.contains
  fail := fail
  report := report
  nested read := fun parser =>
    if parser.depth < maxNesting then nested read parser else fail .nestingTooDeep parser
  nestedStatement read := fun parser =>
    if parser.statementDepth < maxStatementNesting then nestedStatement read parser
    else fail .statementNestingTooDeep parser
  recovering := recovering
  rounds parser := parser.ahead + 1
  exhausted := fail .nestingTooDeep

end Parse

end Scriptlet
