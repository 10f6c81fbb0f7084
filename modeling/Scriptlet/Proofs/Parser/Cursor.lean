import Scriptlet.Proofs.Parser.Machine

/-!
# Reading by position

A parser holds the tokens that are left. Here reading is described as it goes on in a vector of
tokens: a position is moved along the vector, tokens are looked up by their index, and the token
behind the position is looked at as well. A look-up outside the vector and a repetition that does
not end are outcomes of their own. The cursor keeps a record of the indices that were looked up and
of each declaration: where it started and stopped, and how it ended.

## Main definitions

* `Cursor`, `Cursor.ofTokens` — a position in a vector of tokens, and how it starts
* `Halt` — how a read can stop
* `Declared`, `Record` — what is recorded of a declaration, and all that is recorded
* `Cursor.machine` — the moves on cursors
* `Cursor.parser` — the parser that holds the tokens that are left
-/

namespace Scriptlet

/-- How a read by position can stop. -/
inductive Halt where
  /-- The tokens are wrong. -/
  | error (error : ParseError)
  /-- There is no token at an index. -/
  | outside (index : Nat)
  /-- A count of turns or of forms inside each other is used up. -/
  | endless
deriving DecidableEq

/-- What is recorded of a declaration. -/
structure Declared where
  /-- The position in front of which it was read. -/
  start : Nat
  /-- The position at which it ended. -/
  stop : Nat
  /-- How many statements were open around it. -/
  statementDepth : Nat
  /-- How it stopped, unless it gave a result. -/
  halt? : Option Halt
deriving DecidableEq

/-- What a cursor records. -/
inductive Record where
  /-- The token at an index was looked up from a position. -/
  | looked (position index : Nat)
  /-- A declaration was read. -/
  | declared (declaration : Declared)
deriving DecidableEq

/-- A position in a vector of tokens. -/
structure Cursor where
  /-- All tokens. -/
  tokens : Array Token
  /-- The index of the token to be consumed next. -/
  position : Nat
  /-- The errors that reading went on after, in order. -/
  diagnostics : Array ParseError
  /-- How many expressions are open. -/
  depth : Nat
  /-- How many statements are open. -/
  statementDepth : Nat
  /-- What was done, the latest first. -/
  log : List Record

/-- A read by position. -/
abbrev Indexed (α : Type) := EStateM Halt Cursor α

namespace Cursor

variable {α : Type}

/-- A cursor in front of all tokens. An end mark is added unless the last token is one. -/
def ofTokens (tokens : List Token) : Cursor :=
  ⟨(Parser.ofTokens tokens).rest.toArray, 0, #[], 0, 0, []⟩

/-- The parser that holds the tokens that are left. -/
def parser (cursor : Cursor) : Parser :=
  ⟨cursor.tokens.toList.drop cursor.position, cursor.diagnostics, cursor.depth,
    cursor.statementDepth⟩

/-- The cursor after recording what was done. -/
def noting (cursor : Cursor) (event : Record) : Cursor := { cursor with log := event :: cursor.log }

/-! ## Single tokens -/

/-- Looks up the token at an index. -/
def look (index : Nat) : Indexed Token := fun cursor =>
  match cursor.tokens[index]? with
  | some token => .ok token (cursor.noting (.looked cursor.position index))
  | none => .error (.outside index) cursor

/-- The token at the position. -/
def peek : Indexed Token := fun cursor => look cursor.position cursor

/-- The token in front of the position, or the first token. -/
def previous : Indexed Token := fun cursor => look (cursor.position - 1) cursor

/-- Whether an end mark is next. -/
def atEnd : Indexed Bool := do return (← peek).kind = .endOfInput

/-- Moves behind the next token, unless it is an end mark, and gives the token that is then in front
of the position. -/
def advance : Indexed Token := do
  if ! (← atEnd) then
    modify fun cursor => { cursor with position := cursor.position + 1 }
  previous

/-- Whether the next token is of a kind, and no end mark. -/
def check (kind : TokenKind) : Indexed Bool := do
  if ← atEnd then return false
  return (← peek).kind = kind

/-- Consumes the next token if it is of one of some kinds, which are tried in order. -/
def matchAny : List TokenKind → Indexed Bool
  | [] => return false
  | kind :: kinds => do
    if ← check kind then
      let _ ← advance
      return true
    matchAny kinds

/-- Consumes the next token if it is of one of some kinds, and gives it. -/
def acceptAny (kinds : List TokenKind) : Indexed (Option Token) := do
  if ← matchAny kinds then return some (← previous)
  return none

/-- Fails at the next token. -/
def fail (cause : ParseCause) : Indexed α := do throw (.error ⟨cause, ← peek⟩)

/-- Notes an error and goes on. -/
def report (error : ParseError) : Indexed Unit :=
  modify fun cursor => { cursor with diagnostics := cursor.diagnostics.push error }

/-! ## Levels -/

/-- The levels that are open. -/
def counts : Counts Cursor where
  depth := depth
  statementDepth := statementDepth
  changeDepth change cursor := { cursor with depth := change cursor.depth }
  changeStatementDepth change cursor :=
    { cursor with statementDepth := change cursor.statementDepth }

/-! ## Going on after an error -/

/-- Consumes tokens until the one in front of the position is a semicolon or the next one starts a
statement. -/
def skip : Nat → Indexed Unit
  | 0 => throw .endless
  | count + 1 => do
    if ← atEnd then return
    if (← previous).kind = .semicolon then return
    if (← peek).kind.startsStatement then return
    let _ ← advance
    skip count

/-- Consumes a token and goes on to a place where a statement may start. -/
def synchronize : Indexed Unit := do
  let _ ← advance
  skip (← get).tokens.size

/-- Reads; after an error that is not fatal, notes it, looks for the next statement, and gives a
substitute for what could not be read. -/
def orElse (substitute : α) (read : Indexed α) : Indexed α := fun cursor =>
  match read cursor with
  | .error (.error error) after =>
    if error.isFatal then .error (.error error) after
    else (do report error; synchronize; return substitute : Indexed α) after
  | outcome => outcome

/-- The cursor after recording how a declaration ended that was read from another cursor. -/
def declaring (after start : Cursor) (halt? : Option Halt) : Cursor :=
  after.noting (.declared ⟨start.position, after.position, start.statementDepth, halt?⟩)

/-- Reads and goes on after an error, and records where this started and stopped, and how. -/
def recovering (substitute : α) (read : Indexed α) : Indexed α := fun cursor =>
  match orElse substitute read cursor with
  | .ok result after => .ok result (after.declaring cursor none)
  | .error halt after => .error halt (after.declaring cursor (some halt))

/-- The moves on cursors. -/
def machine : Machine Cursor Halt where
  peek := peek
  advance := advance
  acceptAny := acceptAny
  fail := fail
  report := report
  nested := counts.nested (fail .nestingTooDeep)
  nestedStatement := counts.nestedStatement (fail .statementNestingTooDeep)
  recovering := recovering
  rounds cursor := cursor.tokens.size
  exhausted := throw .endless

end Cursor

end Scriptlet
