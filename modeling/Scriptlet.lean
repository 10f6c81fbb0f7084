import Scriptlet.Main
import Scriptlet.Proofs.Grammar.Expression
import Scriptlet.Proofs.Grammar.Statement
import Scriptlet.Proofs.Parser.Forward
import Scriptlet.Proofs.Parser.Complete.Expression
import Scriptlet.Proofs.Parser.Complete.Statement
import Scriptlet.Proofs.Parser.Sound.Expression
import Scriptlet.Proofs.Parser.Sound.Statement
import Scriptlet.Proofs.Integer
import Scriptlet.Proofs.Parser.Program
import Scriptlet.Proofs.Writing.Basic
import Scriptlet.Proofs.Writing.Expression
import Scriptlet.Proofs.Writing.Program
import Scriptlet.Proofs.Session.Frame
import Scriptlet.Proofs.Session.Activity
import Scriptlet.Proofs.Session.Likeness
import Scriptlet.Proofs.Session.Replay
import Scriptlet.Proofs.Session.Separation
import Scriptlet.Proofs.Session.Entry
import Scriptlet.Proofs.Session.Termination
import Scriptlet.Proofs.Session.Runner
import Scriptlet.Proofs.Session.Discipline
import Scriptlet.Proofs.Session.Trace
import Scriptlet.Proofs.Session.CallDepth
import Scriptlet.Proofs.Session.Return
import Scriptlet.Proofs.Parser.Progress
import Scriptlet.Proofs.Parser.Repetition
import Scriptlet.Proofs.Grammar.Seam
import Scriptlet.Proofs.Parser.Concatenation
import Scriptlet.Proofs.Syntax.Relabel
import Scriptlet.Proofs.Parser.Machine
import Scriptlet.Proofs.Parser.Simulation
import Scriptlet.Proofs.Parser.Counting
import Scriptlet.Proofs.Parser.Cursor
import Scriptlet.Proofs.Parser.Bounds
import Scriptlet.Proofs.Parser.Calls
import Scriptlet.Proofs.Parser.Position
import Scriptlet.Proofs.Parser.Locality
import Scriptlet.Proofs.Parser.Layout
import Scriptlet.Proofs.Store.Unplaced
import Scriptlet.Proofs.Session.Layout
import Scriptlet.Proofs.Token.Gap
import Scriptlet.Proofs.Token.Spelling
import Scriptlet.Proofs.Token.Lossless
import Scriptlet.Proofs.Token.Seam
import Scriptlet.Proofs.Writing.Text
import Scriptlet.Proofs.Writing.Chains
import Scriptlet.Proofs.Session.Terminals
import Scriptlet.Proofs.Session.Pieces
import Scriptlet.Proofs.CommandLine
import Scriptlet.Proofs.Session.Echo
import Scriptlet.Proofs.Parser.Judgment
import Scriptlet.Proofs.Parser.Trees
import Scriptlet.Proofs.Session.Trait
import Scriptlet.Proofs.Session.Operators
import Scriptlet.Proofs.Grammar.Order
import Scriptlet.Proofs.Parser.Failures
import Scriptlet.Proofs.Parser.Nesting
import Scriptlet.Proofs.Session.Recursion
import Scriptlet.Proofs.Store.Chain
import Scriptlet.Proofs.Store.Resolution
import Scriptlet.Proofs.Store.Handles
import Scriptlet.Proofs.Session.Upkeep
import Scriptlet.Proofs.Session.Scopes
import Scriptlet.Proofs.Parser.Accounts
import Scriptlet.Proofs.Parser.Attempts
import Scriptlet.Proofs.Parser.Origin
import Scriptlet.Proofs.Session.Places
import Scriptlet.Proofs.Session.Arithmetic
import Scriptlet.Proofs.Session.Console
import Scriptlet.Proofs.Session.LastValue
import Scriptlet.Proofs.Session.Truncation
import Scriptlet.Proofs.Session.Provenance
import Scriptlet.Proofs.Session.Identity
import Scriptlet.Proofs.Session.ShortCircuit
import Scriptlet.Proofs.Parser.Takes
import Scriptlet.Proofs.Parser.Capacity
import Scriptlet.Proofs.Parser.Targets
import Scriptlet.Proofs.Terminal.Lines
import Scriptlet.Proofs.Parser.Contract
import Scriptlet.Proofs.Parser.Observed
import Scriptlet.Proofs.Parser.Levels
import Scriptlet.Proofs.Parser.Numerals
import Scriptlet.Proofs.Session.Numerals
import Scriptlet.Proofs.Parser.Resumption
import Scriptlet.Proofs.Parser.Recovery
import Scriptlet.Proofs.Text.Quoted
import Scriptlet.Proofs.Store.Listing
