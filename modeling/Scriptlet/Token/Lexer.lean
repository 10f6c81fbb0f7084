import Scriptlet.Text.Numeric
import Scriptlet.Token.Basic

/-!
# Reading tokens

A script is a sequence of tokens with gaps between them. A gap is any run of blanks and of
comments, which start with two slashes and end before the next line break. Behind a gap stands
the longest token that the text begins with, or a character that begins none, and there reading
stops with an error.

## Main definitions

* `skipGap` — moves a place and the text that starts there over a gap
* `scan` — the token that a text begins with, with the text behind it
* `LexError`, `LexError.message` — why and where reading stopped
* `lex` — all tokens of a script

## Implementation notes

`scan` keeps the consumed text itself and not its length, so that the text in front of any token
can be put together again from gaps and tokens, and its place computed from that text.
-/

namespace Scriptlet

/-! ## Gaps -/

/-- Whether a character separates tokens and means nothing else. -/
def isBlank (c : Char) : Bool := c = ' ' || c = '\t' || c = '\r' || c = '\n'

/-- Moves over blanks and comments. The flag says whether a comment is open. -/
def skipGapFrom : Bool → Location → List Char → Location × List Char
  | _, here, [] => (here, [])
  | true, here, c :: rest =>
    skipGapFrom (decide (c ≠ '\n')) (here.next c) rest
  | false, here, c :: rest =>
    if isBlank c then skipGapFrom false (here.next c) rest
    else if c = '/' ∧ rest.head? = some '/' then skipGapFrom true (here.next c) rest
    else (here, c :: rest)

/-- Moves over the blanks and comments in front of the next token. -/
def skipGap (here : Location) (text : List Char) : Location × List Char :=
  skipGapFrom false here text

/-! ## Single tokens -/

/-- Why a text begins with no token. -/
inductive LexCause where
  /-- An exclamation mark without the equals sign that has to follow it. -/
  | loneBang
  /-- A string without its closing quote. -/
  | unterminatedString
  /-- A character that begins no token. -/
  | unexpected (c : Char)
deriving DecidableEq

/-- What a cause tells the reader. -/
def LexCause.message : LexCause → String
  | loneBang => "Unexpected '!'. Did you mean '!='?"
  | unterminatedString => "Unterminated string"
  | unexpected c => "Unexpected character '" ++ c.toString ++ "'"

/-- A token cut off the front of a text. -/
structure Scanned where
  /-- What the token is. -/
  kind : TokenKind
  /-- The token as it stands in the script, the quotes of a string included. -/
  text : List Char
  /-- The token without the quotes of a string. -/
  lexeme : List Char
  /-- The text behind the token. -/
  rest : List Char

/-- The token that was cut off at a place. -/
def Scanned.token (scanned : Scanned) (here : Location) : Token :=
  ⟨scanned.kind, String.ofList scanned.lexeme, here⟩

/-- Whether a character can be the first of a word. -/
def startsWord (c : Char) : Bool := Text.isAlphabetic c || c = '_'

/-- Whether a character can stand in a word behind the first. -/
def continuesWord (c : Char) : Bool := Text.isAlphanumeric c || c = '_'

/-- The kind of a word: the reserved one it spells, else an identifier. -/
def wordKind (word : List Char) : TokenKind :=
  (keywords.lookup (String.ofList word)).getD .identifier

/-- The longest symbol that a text begins with. -/
def scanSymbol? (text : List Char) : Option Scanned :=
  symbols.findSome? fun (spelling, kind) =>
    (spelling.isPrefixOf? text).map fun rest => ⟨kind, spelling, spelling, rest⟩

/-- The string whose opening quote stands directly before a text. -/
def scanString (text : List Char) : Except LexCause Scanned :=
  let body := text.takeWhile (· ≠ '"')
  match text.dropWhile (· ≠ '"') with
  | quote :: rest => .ok ⟨.string, '"' :: body ++ [quote], body, rest⟩
  | [] => .error .unterminatedString

/-- The longest run at the front of a text of characters that pass a test. -/
def scanRun (test : Char → Bool) (kind : List Char → TokenKind) (text : List Char) : Scanned :=
  let run := text.takeWhile test
  ⟨kind run, run, run, text.dropWhile test⟩

/-- The token that a text begins with, given its first character and the others. -/
def scan (c : Char) (rest : List Char) : Except LexCause Scanned :=
  match scanSymbol? (c :: rest) with
  | some scanned => .ok scanned
  | none =>
    if c = '"' then scanString rest
    else if c.isDigit then .ok (scanRun Char.isDigit (fun _ => .number) (c :: rest))
    else if startsWord c then .ok (scanRun continuesWord wordKind (c :: rest))
    else if c = '!' then .error .loneBang
    else .error (.unexpected c)

/-! ## Whole scripts -/

/-- Why and where the reading of tokens stopped before the end of the script. -/
structure LexError where
  /-- What is wrong. -/
  cause : LexCause
  /-- The first character of what is wrong. -/
  location : Location
deriving DecidableEq

/-- The report of a lexical error. -/
def LexError.message (error : LexError) : String :=
  "[Lex] line " ++ toString error.location.line ++ ", col " ++ toString error.location.column ++
    ": " ++ error.cause.message

/-- The tokens of a script: all of them up to an end mark, or those in front of an error. -/
structure Lexed where
  /-- The tokens, in order. -/
  tokens : List Token
  /-- What stopped the reading, if anything did. -/
  error? : Option LexError

/-- Reads the tokens of a text that starts at a place, behind those already read. Each round
consumes a character, so one round more than there are characters is enough. -/
def lexFrom : Nat → Location → List Char → Array Token → Lexed
  | 0, _, _, done => ⟨done.toList, none⟩
  | rounds + 1, here, text, done =>
    match skipGap here text with
    | (here, []) => ⟨(done.push (.endMark here)).toList, none⟩
    | (here, c :: rest) =>
      match scan c rest with
      | .error cause => ⟨done.toList, some ⟨cause, here⟩⟩
      | .ok scanned =>
        lexFrom rounds (here.after scanned.text) scanned.rest (done.push (scanned.token here))

/-- Reads the tokens of a text that starts at a place. -/
def lexChars (here : Location) (text : List Char) : Lexed :=
  lexFrom (text.length + 1) here text #[]

/-- Reads the tokens of a script. -/
def lex (source : String) : Lexed := lexChars .start source.toList

/-- The tokens of a script that has no lexical error. -/
def tokenize (source : String) : Except LexError (List Token) :=
  match lex source with
  | ⟨tokens, none⟩ => .ok tokens
  | ⟨_, some error⟩ => .error error

end Scriptlet
