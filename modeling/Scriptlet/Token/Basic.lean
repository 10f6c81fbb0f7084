import Scriptlet.Location

/-!
# Tokens

A token is a kind, the text it was written with, and the place where it starts. The kinds that
are written in one way only, keywords and symbols, are listed with their spelling.

## Main definitions

* `TokenKind` — the kinds of tokens, with `TokenKind.name` and `TokenKind.startsStatement`
* `keywords`, `symbols` — the kinds with a fixed spelling
* `Token`, `Token.text` — a token, and the line that lists it
-/

namespace Scriptlet

/-- What a token is. -/
inductive TokenKind where
  | identifier | number | string
  | kwTrue | kwFalse | kwFunction | kwIf | kwThen | kwElse | kwWhile | kwDo | kwReturn
  | kwPrint | kwInput | kwAnd | kwOr | kwNot
  | plus | minus | star | slash | assign
  | equalEqual | notEqual | less | lessEqual | greater | greaterEqual
  | leftParen | rightParen | leftBrace | rightBrace | comma | semicolon
  | endOfInput
deriving DecidableEq, Inhabited

namespace TokenKind

/-- The name under which a listing shows a kind. -/
def name : TokenKind → String
  | identifier => "Identifier"
  | number => "Number"
  | string => "String"
  | kwTrue => "True"
  | kwFalse => "False"
  | kwFunction => "Function"
  | kwIf => "If"
  | kwThen => "Then"
  | kwElse => "Else"
  | kwWhile => "While"
  | kwDo => "Do"
  | kwReturn => "Return"
  | kwPrint => "Print"
  | kwInput => "Input"
  | kwAnd => "And"
  | kwOr => "Or"
  | kwNot => "Not"
  | plus => "Plus"
  | minus => "Minus"
  | star => "Star"
  | slash => "Slash"
  | assign => "Assign"
  | equalEqual => "EqualEqual"
  | notEqual => "NotEqual"
  | less => "Less"
  | lessEqual => "LessEqual"
  | greater => "Greater"
  | greaterEqual => "GreaterEqual"
  | leftParen => "LeftParen"
  | rightParen => "RightParen"
  | leftBrace => "LeftBrace"
  | rightBrace => "RightBrace"
  | comma => "Comma"
  | semicolon => "Semicolon"
  | endOfInput => "EndOfInput"

/-- All kinds, in the order of their declaration. -/
def all : List TokenKind :=
  [identifier, number, string, kwTrue, kwFalse, kwFunction, kwIf, kwThen, kwElse, kwWhile, kwDo,
    kwReturn, kwPrint, kwInput, kwAnd, kwOr, kwNot, plus, minus, star, slash, assign, equalEqual,
    notEqual, less, lessEqual, greater, greaterEqual, leftParen, rightParen, leftBrace, rightBrace,
    comma, semicolon, endOfInput]

/-- The kind that a listing shows under a name. -/
def ofName? (name : String) : Option TokenKind :=
  all.find? fun kind => kind.name == name

/-- Whether a token of this kind is taken for the first of a statement after an error. -/
def startsStatement : TokenKind → Bool
  | kwFunction | kwIf | kwWhile | kwPrint => true
  | _ => false

end TokenKind

/-- The reserved words and their kinds. -/
def keywords : List (String × TokenKind) :=
  [("true", .kwTrue), ("false", .kwFalse), ("function", .kwFunction), ("if", .kwIf),
    ("then", .kwThen), ("else", .kwElse), ("while", .kwWhile), ("do", .kwDo),
    ("return", .kwReturn), ("print", .kwPrint), ("input", .kwInput), ("and", .kwAnd),
    ("or", .kwOr), ("not", .kwNot)]

/-- The operators and marks of punctuation and their kinds. A symbol stands before every symbol
that begins it, so the first that fits is the longest. -/
def symbols : List (List Char × TokenKind) :=
  [(['=', '='], .equalEqual), (['!', '='], .notEqual), (['<', '='], .lessEqual),
    (['>', '='], .greaterEqual), (['='], .assign), (['<'], .less), (['>'], .greater),
    (['+'], .plus), (['-'], .minus), (['*'], .star), (['/'], .slash), (['('], .leftParen),
    ([')'], .rightParen), (['{'], .leftBrace), (['}'], .rightBrace), ([','], .comma),
    ([';'], .semicolon)]

/-- A token of a script. -/
structure Token where
  /-- What the token is. -/
  kind : TokenKind
  /-- How the token is written, without the quotes of a string. -/
  lexeme : String
  /-- Where the token starts. -/
  location : Location
deriving DecidableEq, Inhabited

namespace Token

/-- The mark that no more tokens follow. -/
def endMark (location : Location) : Token := ⟨.endOfInput, "", location⟩

/-- The line that lists a token. -/
def text (token : Token) : String :=
  token.kind.name ++ " '" ++ token.lexeme ++ "' (" ++ toString token.location.line ++ ":" ++
    toString token.location.column ++ ")"

end Token

end Scriptlet
