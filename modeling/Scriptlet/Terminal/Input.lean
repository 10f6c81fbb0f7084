/-!
# Reading lines from bytes

Input is a sequence of bytes that is read line by line. A line ends with a line break or with the
input. A line that is not valid UTF-8 is an error, and so is, for a source that fails, everything
behind its last line break; the lines around it are not affected.

A source is not any reader there could be, but one of a family: its bytes are fixed from the start,
and behind them the input either ends or fails, the same each time it is asked. Readers that fail
between lines and then go on, or that have more to give after they ended, are not meant.

## Main definitions

* `IoError`, `IoError.message` — what can go wrong between a script and the world
* `LineSource` — bytes to be read, and whether reading fails behind them
* `LineSource.readLine` — the next line
-/

namespace Scriptlet

/-- What can go wrong between a script and the world. -/
inductive IoError where
  /-- A line is not valid UTF-8. -/
  | invalidText
  /-- The output takes nothing more. -/
  | closed
  /-- The output cannot be flushed. -/
  | flushFailed
  /-- The input cannot be read. -/
  | readFailed
deriving DecidableEq

/-- What an error tells the reader. -/
def IoError.message : IoError → String
  | invalidText => "stream did not contain valid UTF-8"
  | closed => "closed"
  | flushFailed => "flush failed"
  | readFailed => "read failed"

/-- Bytes to be read line by line, with an end or a failure behind them that stays. -/
structure LineSource where
  /-- The bytes that are not read. -/
  bytes : List UInt8 := []
  /-- Whether reading fails behind the bytes; otherwise the input ends there. -/
  fails : Bool := false
deriving DecidableEq, Inhabited

/-- The text that bytes encode, if they are valid UTF-8. -/
def decode? (bytes : List UInt8) : Option String := String.fromUTF8? bytes.toByteArray

/-- A text without the line break at its end, and without one carriage return before that. -/
def withoutLineBreak (text : String) : String :=
  match text.toList.reverse with
  | '\n' :: '\r' :: rest => String.ofList rest.reverse
  | '\n' :: rest => String.ofList rest.reverse
  | _ => text

namespace LineSource

/-- The byte of a line break. -/
def lineBreak : UInt8 := 10

/-- The bytes up to and including the first line break, or all bytes if there is none. -/
def firstLine (bytes : List UInt8) : List UInt8 :=
  bytes.takeWhile (· ≠ lineBreak) ++ (bytes.dropWhile (· ≠ lineBreak)).take 1

/-- The bytes behind the first line break. -/
def afterFirstLine (bytes : List UInt8) : List UInt8 :=
  (bytes.dropWhile (· ≠ lineBreak)).drop 1

/-- Reads the next line, without the line break that ends it. There is none at the end of the
input. What was looked at is used up, also if it is not valid. -/
def readLine : EStateM IoError LineSource (Option String) := fun source =>
  let rest := { source with bytes := afterFirstLine source.bytes }
  if source.fails ∧ lineBreak ∉ source.bytes then .error .readFailed rest
  else if source.bytes = [] then .ok none rest
  else
    match decode? (firstLine source.bytes) with
    | some line => .ok (some (withoutLineBreak line)) rest
    | none => .error .invalidText rest

end LineSource

end Scriptlet
