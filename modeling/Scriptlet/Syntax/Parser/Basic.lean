import Scriptlet.Syntax.Diagnostic

/-!
# Reading trees from tokens: the state and its moves

A parser holds the tokens it has not consumed, the errors it went on after, and how many
expressions and statements are open. A token is consumed only in front of the first end mark, so
nothing behind that mark is ever looked at. Every read is a function from parsers to parsers that
also gives a result or an error; the parser survives an error, which is what recovery builds on.

## Main definitions

* `Parser`, `Parser.ofTokens` — the state, and how it starts
* `Parse` — a read
* `Parse.advance`, `acceptIf`, `accept`, `expect` — reads of one token
* `Parse.nested`, `Parse.nestedStatement` — a read one level deeper
* `Parse.synchronize`, `Parse.recovering` — going on after an error
* `Parse.entries` — a list with commas
-/

namespace Scriptlet

/-- The state of reading trees from tokens. -/
structure Parser where
  /-- The tokens that are not consumed. -/
  rest : List Token
  /-- The errors that reading went on after, in order. -/
  diagnostics : Array ParseError
  /-- How many expressions are open. -/
  depth : Nat
  /-- How many statements are open. -/
  statementDepth : Nat
deriving Inhabited

namespace Parser

/-- A parser over tokens. An end mark is added unless the last token is one. -/
def ofTokens (tokens : List Token) : Parser :=
  let closed :=
    match tokens.getLast? with
    | none => [.endMark .unknown]
    | some last =>
      if last.kind = .endOfInput then tokens else tokens ++ [.endMark last.location]
  ⟨closed, #[], 0, 0⟩

/-- The token to be consumed next. -/
def current (parser : Parser) : Token :=
  match parser.rest with
  | [] => .endMark .unknown
  | token :: _ => token

/-- Whether an end mark is next. -/
def atEnd (parser : Parser) : Bool := parser.current.kind = .endOfInput

/-- The parser behind the next token; an end mark is never passed. -/
def advanced (parser : Parser) : Parser :=
  if parser.atEnd then parser else { parser with rest := parser.rest.tail }

/-- The parser after noting an error. -/
def report (parser : Parser) (error : ParseError) : Parser :=
  { parser with diagnostics := parser.diagnostics.push error }

end Parser

/-- A read: from a parser to a result or an error, and a parser in both cases. -/
abbrev Parse (α : Type) := EStateM ParseError Parser α

namespace Parse

variable {α : Type}

/-! ## Single tokens -/

/-- The token to be consumed next. -/
def current : Parse Token := fun parser => .ok parser.current parser

/-- Gives the next token and consumes it, unless it is an end mark. -/
def advance : Parse Token := fun parser => .ok parser.current parser.advanced

/-- Fails at the next token. -/
def fail (cause : ParseCause) : Parse α := fun parser => .error ⟨cause, parser.current⟩ parser

/-- Notes an error and goes on. -/
def report (error : ParseError) : Parse Unit := fun parser => .ok () (parser.report error)

/-- Consumes the next token if it is of one of the wanted kinds. -/
def acceptIf (wanted : TokenKind → Bool) : Parse (Option Token) := fun parser =>
  if !parser.atEnd && wanted parser.current.kind then .ok (some parser.current) parser.advanced
  else .ok none parser

/-- Consumes the next token if it is of the wanted kind. -/
def accept (kind : TokenKind) : Parse (Option Token) := acceptIf (· = kind)

/-- Whether the next token is of a kind. -/
def sees (kind : TokenKind) : Parse Bool := do return (← current).kind = kind

/-- Consumes the next token, which has to be of the wanted kind. -/
def expect (kind : TokenKind) (cause : ParseCause) : Parse Token := do
  match ← accept kind with
  | some token => return token
  | none => fail cause

/-! ## Levels -/

/-- Reads one expression level deeper. The level is closed however the read ends. -/
def nested (read : Parse α) : Parse α := fun parser =>
  match read { parser with depth := parser.depth + 1 } with
  | .ok result parser => .ok result { parser with depth := parser.depth - 1 }
  | .error error parser => .error error { parser with depth := parser.depth - 1 }

/-- Reads one statement level deeper. The level is closed however the read ends. -/
def nestedStatement (read : Parse α) : Parse α := fun parser =>
  match read { parser with statementDepth := parser.statementDepth + 1 } with
  | .ok result parser => .ok result { parser with statementDepth := parser.statementDepth - 1 }
  | .error error parser =>
    .error error { parser with statementDepth := parser.statementDepth - 1 }

/-! ## Going on after an error -/

/-- Consumes tokens up to a place where a statement may start: behind a semicolon or before a
token that starts a statement. -/
def skipTokens : List Token → List Token
  | [] => []
  | token :: rest =>
    if token.kind = .endOfInput then token :: rest
    else if token.kind = .semicolon then rest
    else
      match rest with
      | next :: _ => if next.kind.startsStatement then rest else skipTokens rest
      | [] => []

/-- Consumes at least one token, unless an end mark is next, and goes on to a place where a
statement may start. -/
def synchronize : Parse Unit := fun parser =>
  .ok () { parser with rest := skipTokens parser.rest }

/-- Reads; after an error that is not fatal, notes it, looks for the next statement, and gives a
substitute for what could not be read. -/
def recovering (substitute : α) (read : Parse α) : Parse α := fun parser =>
  match read parser with
  | .ok result parser => .ok result parser
  | .error error parser =>
    if error.isFatal then .error error parser
    else (do report error; synchronize; return substitute : Parse α) parser

/-! ## Repetition

Each round of a repetition consumes a token, so a repetition is counted out on the tokens that are
left when it starts, with one more for good measure. Only their number matters, and taking the
list itself saves counting it. -/

/-- As many tokens as there are left, and one more. -/
def rounds : Parse (List Token) := fun parser => .ok (parser.current :: parser.rest) parser

/-- Reads the entries of a list with commas between them, behind those already read. Before the
entry that is one too many an error is noted, once. -/
def entriesFrom (tooMany : ParseCause) (entry : Parse α) :
    List Token → Array α → Parse (Array α)
  | [], done => pure done
  | _ :: rounds, done => do
    if done.size = maxEntries then
      report ⟨tooMany, ← current⟩
    let done := done.push (← entry)
    match ← accept .comma with
    | some _ => entriesFrom tooMany entry rounds done
    | none => return done

/-- Reads a list with commas between its entries, which is empty if a closing parenthesis is
next. -/
def entries (tooMany : ParseCause) (entry : Parse α) : Parse (List α) := do
  if ← sees .rightParen then return []
  return (← entriesFrom tooMany entry (← rounds) #[]).toList

end Parse

end Scriptlet
