import Scriptlet.Session.Run

/-!
# The command line

The command line runs one script file on the standard streams. Errors are reported on the error
stream, one line each, first those that reading went on after and then the one that ended the run,
if one did. On request the tokens, the number of statements and the values of expression
statements are listed with the output of the script.

A line on the error stream starts with the word `error:`, which is coloured if the stream is a
terminal, so how the word is written is left open. A log can be asked for, by an option or by the
environment, and is then kept on the error stream among the reports. It tells the time, and is not
described here: the error stream of an outcome is that of a run without a log.

## Main definitions

* `CommandLine.Request`, `CommandLine.ofArguments?` — what is asked for
* `CommandLine.Script` — what was found in the place of the script file
* `CommandLine.Outcome` — exit status, output and reports
* `CommandLine.Outcome.errorStream` — the error stream, if no log is kept
* `CommandLine.run` — what a request comes to
-/

namespace Scriptlet

namespace CommandLine

/-- What the command line is asked for. -/
structure Request where
  /-- The path of the script file. -/
  path : String
  /-- Whether tokens, statements and values are listed. -/
  dump : Bool := false
  /-- Whether a log of the run is kept on the error stream. It changes neither the status nor the
  output nor which errors are reported. -/
  verbose : Bool := false
deriving DecidableEq, Inhabited

/-- Takes one argument into a request: an option, or the path if there is none yet. -/
def takeArgument (path? : Option String) (dump verbose : Bool) :
    List String → Option Request
  | [] => path?.map fun path => ⟨path, dump, verbose⟩
  | argument :: rest =>
    if argument = "--dump" ∨ argument = "-d" then takeArgument path? true verbose rest
    else if argument = "--verbose" ∨ argument = "-v" then takeArgument path? dump true rest
    else
      match path? with
      | none => takeArgument (some argument) dump verbose rest
      | some _ => none

/-- The request that arguments make: one path, with options around it. -/
def ofArguments? (arguments : List String) : Option Request :=
  takeArgument none false false arguments

/-- What was found in the place of the script file. -/
inductive Script where
  /-- Nothing. -/
  | missing
  /-- Something that cannot be read, for the stated reason. -/
  | unreadable (reason : String)
  /-- A file with these bytes. -/
  | bytes (content : List UInt8)

/-- The text of a script file, or why there is none. -/
def Script.text : Script → Except String String
  | missing => .error "No such file or directory (os error 2)"
  | unreadable reason => .error reason
  | bytes content =>
    match decode? content with
    | some text => .ok text
    | none => .error IoError.invalidText.message

/-- What a run of the command line comes to. -/
structure Outcome where
  /-- The exit status: zero if all went well. -/
  status : UInt8
  /-- The bytes on the output stream. -/
  stdout : Array UInt8
  /-- The messages of the errors that are reported. -/
  reports : List String
  /-- What stopped the script while it ran, if anything did. -/
  stop? : Option Stop := none

/-- Whether the script stopped because it could not read a line. -/
def Outcome.wantsInput (outcome : Outcome) : Bool :=
  match outcome.stop? with
  | some (.fault ⟨.io .readFailed, _⟩) => true
  | _ => false

/-- How many calls may be open at once. -/
def maxCallDepth : Nat := 1024

/-- A line of text. -/
def line (text : String) : String := text ++ "\n"

/-- The line that reports an error, behind a mark. -/
def report (mark message : String) : String := line (mark ++ " " ++ message)

/-- The text on the error stream if no log is kept there, given how the mark is written. -/
def Outcome.errorStream (outcome : Outcome) (mark : String) : String :=
  String.join (outcome.reports.map (report mark))

/-- The mark in front of a message where there are no colours. -/
def plainMark : String := "error:"

/-- The mark in front of a message on a terminal: bold and red. -/
def colouredMark : String := "\x1b[38;5;9m\x1b[1merror:\x1b[0m"

/-- The text on the error stream if that is no terminal and no log is kept there. -/
def Outcome.stderr (outcome : Outcome) : String := outcome.errorStream plainMark

/-- The list of tokens. -/
def tokenListing (tokens : List Token) : String :=
  String.join (line "Tokens:" :: tokens.map fun token => line token.text)

/-- The number of statements. -/
def statementListing (statements : List Stmt) : String :=
  line ("Statements: " ++ toString statements.length)

/-- A run that failed before anything but listings was written. -/
def failed (listing : String) (reports : List String) : Outcome :=
  ⟨1, listing.toUTF8.data, reports, none⟩

/-- Runs statements that were read from a script, behind what is already listed and reported. -/
def runStatements (steps : Nat) (dump : Bool) (input : LineSource) (listing : String)
    (reports : List String) (statements : List Stmt) : Outcome :=
  let session := Session.start (.streaming {} input) ⟨dump, maxCallDepth⟩
  match Action.interpret steps statements session with
  | .ok _ session => ⟨0, listing.toUTF8.data ++ session.terminal.written, reports, none⟩
  | .error stop session =>
    ⟨1, listing.toUTF8.data ++ session.terminal.written,
      reports ++ [(RunError.stop stop).message], some stop⟩

/-- Runs the text of a script. -/
def runText (steps : Nat) (dump : Bool) (input : LineSource) (text : String) : Outcome :=
  match tokenize text with
  | .error error => failed "" [error.message]
  | .ok tokens =>
    let listing := if dump then tokenListing tokens else ""
    let reports (parser : Parser) : List String :=
      parser.diagnostics.toList.map ParseError.message
    match Parse.program (Parser.ofTokens tokens) with
    | .error fatal parser => failed listing (reports parser ++ [fatal.message])
    | .ok statements parser =>
      let listing := if dump then listing ++ statementListing statements else listing
      runStatements steps dump input listing (reports parser) statements

/-- What a request comes to, given what was found in the place of the script file and what is on
the input stream. -/
def run (steps : Nat) (request : Request) (script : Script) (input : LineSource) : Outcome :=
  match script.text with
  | .error reason => failed "" ["Reading " ++ request.path ++ ": " ++ reason]
  | .ok text => runText steps request.dump input text

end CommandLine

end Scriptlet
