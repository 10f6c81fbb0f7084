import Scriptlet.Proofs.Parser.Observed

/-!
# Levels are closed however a read ends

A parser counts the expressions and the statements that are open. Each read closes the levels that
it opens, with a result, with an error from which reading goes on, and with a fatal one. So the
counts are the same before and after every read, whatever they are; a level that stayed open would
only show much later, as a limit that is exceeded where nothing is nested.

That the limits are kept inside a read cannot be seen from its ends. So reading is watched: a
watched parser goes along with the parsers it came through, those inside an open level included. It
reads as a parser does, and all parsers that are seen on the way keep to the limits.

## Main definitions

* `Parser.Kept` — no more levels are open than the limits allow
* `Watched`, `Watched.machine` — a parser with those it came through, and the moves on it
* `Watched.limits` — all parsers that were seen keep to the limits
* `Watched.Part` — the reads that the language is made of, and how they are watched
* `Watched.Keeps` — an outcome on the way to which the limits were kept
* `Parser.Visited` — the parsers that reads come to, one after the other

## Main results

* `Watched.watcher_honours_limits` — watched parsers keep to the limits
* `Watched.Part.forward`, `Watched.Part.keeps` — every read closes its levels and keeps the limits
* `levels_balanced` — both, for every read on every parser
-/

namespace Scriptlet

/-- No more expressions and no more statements are open than the limits allow. -/
structure Parser.Kept (parser : Parser) : Prop where
  depth : parser.depth ≤ maxNesting
  statementDepth : parser.statementDepth ≤ maxStatementNesting

theorem Parser.Kept.of_reaches {start stop : Parser} (h : start.Kept)
    (hreaches : start.Reaches stop) : stop.Kept :=
  ⟨hreaches.depth ▸ h.depth, hreaches.statementDepth ▸ h.statementDepth⟩

/-! ## Watching a parser -/

/-- A parser, with all parsers that reading came through, the latest first. -/
abbrev Watched := Observed (List Parser)

/-- A read that is watched. -/
abbrev Watching (α : Type) := Observing (List Parser) α

namespace Watched

variable {α : Type}

/-- The parser that reading starts with is seen. -/
def ofParser (parser : Parser) : Watched := ⟨parser, [parser]⟩

/-- All parsers are written down, those with which a move ends in an error included. -/
def watcher : Observer (List Parser) where
  saw := List.cons
  raised _ := List.cons
  resumed _ seen := seen

/-- The moves on a parser that is watched. -/
def machine : Machine Watched ParseError := watcher.machine

/-! ## The limits -/

/-- The parser and all that was seen keep to the limits, and it does not matter how a read ends. -/
def limits : Contract Watched ParseError where
  Fine watched := ∀ parser ∈ watched.parser :: watched.record, parser.Kept
  Failed _ watched := ∀ parser ∈ watched.parser :: watched.record, parser.Kept

theorem kept_come {watched : Watched} {parser : Parser} (h : limits.Fine watched)
    (hparser : parser.Kept) : limits.Fine (watcher.come watched parser) :=
  List.forall_mem_cons.mpr
    ⟨hparser, List.forall_mem_cons.mpr ⟨hparser, (List.forall_mem_cons.mp h).2⟩⟩

/-- **Watched parsers keep to the limits.** -/
theorem watcher_honours_limits : watcher.Honours limits where
  come h hreaches := kept_come h ((h _ (.head _)).of_reaches hreaches)
  level h hdepth hstatements :=
    kept_come h ⟨Nat.le_trans hdepth (Nat.max_le.mpr ⟨(h _ (.head _)).depth, Nat.le_refl _⟩),
      Nat.le_trans hstatements (Nat.max_le.mpr ⟨(h _ (.head _)).statementDepth, Nat.le_refl _⟩)⟩
  level_failed h hdepth hstatements :=
    kept_come h ⟨Nat.le_trans hdepth (h _ (.head _)).depth,
      Nat.le_trans hstatements (h _ (.head _)).statementDepth⟩
  raised _ h := kept_come h (h _ (.head _))
  past {error watched} h _ := by
    have hparser := h _ (.head _)
    have hnoted : (watched.parser.report error).Kept := ⟨hparser.depth, hparser.statementDepth⟩
    exact kept_come (kept_come h hnoted) ⟨hnoted.depth, hnoted.statementDepth⟩

/-! ## The reads of the language -/

/-- The reads that the language is made of, on a parser on which a number of expressions and a
number of statements are open, each with the same read on a watched parser. -/
inductive Part (depth statements : Nat) : {α : Type} → Parse α → Watching α → Prop
  | expression : Part depth statements Parse.expression machine.expression
  | assignment : Part depth statements
      (Parse.assignment (Parse.operandWithin (maxNesting - depth))
        (Parse.expressionWithin (maxNesting - depth)))
      (machine.assignment (machine.operandWithin (maxNesting + 1)) machine.expression)
  /-- Operators of the levels from one level on. If there are none, an operator in front or a
  call. -/
  | operators {tighter : List Level} (h : tighter <:+ levels) : Part depth statements
      (Parse.climb (Parse.unary (Parse.operandWithin (maxNesting - depth))
        (Parse.expressionWithin (maxNesting - depth))) tighter)
      (machine.climb (machine.unary (machine.operandWithin (maxNesting + 1)) machine.expression)
        tighter)
  | operand : Part depth statements (Parse.operandWithin (maxNesting - depth))
      (machine.operandWithin (maxNesting + 1))
  | call : Part depth statements (Parse.call (Parse.expressionWithin (maxNesting - depth)))
      (machine.call machine.expression)
  | arguments : Part depth statements
      (Parse.entries .tooManyArguments (Parse.expressionWithin (maxNesting - depth)))
      (machine.entries .tooManyArguments machine.expression)
  | primary : Part depth statements (Parse.primary (Parse.expressionWithin (maxNesting - depth)))
      (machine.primary machine.expression)
  | statement : Part depth statements Parse.statement
      (machine.statementWithin (maxStatementNesting + 1))
  | returned (keyword : Token) : Part depth statements (Parse.returnForm keyword)
      (machine.returnForm keyword)
  | branch : Part depth statements
      (Parse.branchForm (Parse.statementWithin (maxStatementNesting - statements)))
      (machine.branchForm (machine.statementWithin (maxStatementNesting + 1)))
  | loop : Part depth statements
      (Parse.loopForm (Parse.statementWithin (maxStatementNesting - statements)))
      (machine.loopForm (machine.statementWithin (maxStatementNesting + 1)))
  | block : Part depth statements
      (Parse.block (Parse.declarationForm
        (Parse.functionWithin (maxStatementNesting - statements))
        (Parse.statementWithin (maxStatementNesting - statements))))
      (machine.block machine.declaration)
  | function : Part depth statements Parse.function
      (machine.functionWithin (maxStatementNesting + 1))
  | params : Part depth statements
      (Parse.entries .tooManyParameters (Parse.expect .identifier .noParameterName))
      (machine.entries .tooManyParameters (machine.expect .identifier .noParameterName))
  | declaration : Part depth statements Parse.declaration machine.declaration
  | program : Part depth statements Parse.program machine.program

/-- An outcome of a watched parser that is the outcome of the parser alone, with all parsers seen
on the way within the limits. -/
inductive Keeps : EStateM.Result ParseError Parser α → EStateM.Result ParseError Watched α → Prop
  | ok {result : α} {stop : Parser} {seen : List Parser} (h : ∀ parser ∈ seen, parser.Kept) :
      Keeps (.ok result stop) (.ok result ⟨stop, seen⟩)
  | error {error : ParseError} {stop : Parser} {seen : List Parser}
      (h : ∀ parser ∈ seen, parser.Kept) : Keeps (.error error stop) (.error error ⟨stop, seen⟩)

namespace Part

variable {depth statements : Nat} {read : Parse α} {watching : Watching α}

/-- **The reads of the language go forward**, and so close the levels that they open. -/
theorem forward (h : Part depth statements read watching) : Parse.Forward read := by
  obtain ⟨hinner, hoperand⟩ := Parse.forward_within (maxNesting - depth)
  obtain ⟨hstatement, hfunction⟩ :=
    Parse.forward_statementWithin (maxStatementNesting - statements)
  cases h with
  | expression => exact Parse.forward_expression
  | assignment => exact Parse.forward_assignment hoperand hinner
  | @operators tighter _ => exact Parse.forward_climb (Parse.forward_unary hoperand hinner) tighter
  | operand => exact hoperand
  | call => exact Parse.forward_call hinner
  | arguments => exact Parse.forward_entries hinner _
  | primary => exact Parse.forward_primary hinner
  | statement => exact fun start => (Parse.forward_statementWithin _).1 start
  | returned keyword => exact Parse.forward_returnForm keyword
  | branch => exact Parse.forward_branchForm hstatement
  | loop => exact Parse.forward_loopForm hstatement
  | block => exact Parse.forward_block (Parse.forward_declarationForm hfunction hstatement)
  | function => exact fun start => (Parse.forward_statementWithin _).2 start
  | params => exact Parse.forward_entries (Parse.forward_expect _ _) _
  | declaration => exact Parse.forward_declaration
  | program => exact Parse.forward_program

/-- Watching changes none of the reads. -/
theorem simulates (h : Part depth statements read watching) :
    (Observer.simulation (List Parser)).Simulates depth statements id read watching := by
  have law := watcher.simulation_lawful depth
  have hexpr : (Observer.simulation (List Parser)).expr = id := funext Expr.relabel_id
  have hstmt : (Observer.simulation (List Parser)).stmt = id := funext Stmt.relabel_id
  obtain ⟨hforward, hbehind⟩ := Parse.forward_within (maxNesting - depth)
  obtain ⟨hinner, hoperand⟩ := @law.expressionWithin _ _ _ _ depth statements _ _
    (maxNesting + 1) rfl (by omega)
  obtain ⟨hstatement, hfunction⟩ := @law.declarationWithin _ _ _ _ statements _ _
    (maxStatementNesting + 1) rfl (by omega)
  cases h with
  | expression => exact hexpr ▸ law.expression
  | assignment => exact hexpr ▸ law.assignment hoperand hinner hbehind hforward
  | operators h =>
    exact hexpr ▸ law.climb (law.unary hoperand hinner hforward)
      (Parse.forward_unary hbehind hforward) h.subset
  | operand => exact hexpr ▸ hoperand
  | call => exact hexpr ▸ law.call hinner hforward
  | arguments =>
    have hentries := law.entries hforward hinner .tooManyArguments
    rwa [hexpr, List.map_id_fun] at hentries
  | primary => exact hexpr ▸ law.primary hinner
  | statement =>
    intro parser watched hat
    have hread := hstatement hat
    rw [hstmt] at hread
    unfold Simulation.SimulatesAt Parse.statement
    rwa [hat.statements_eq]
  | returned keyword => exact hstmt ▸ law.returnForm keyword
  | branch => exact hstmt ▸ law.branchForm hstatement
  | loop => exact hstmt ▸ law.loopForm hstatement
  | block =>
    have hdeclaration :=
      law.declarationForm hfunction hstatement fun _ => Parse.proceeds_declarationWithin rfl
    have hblock := law.block hdeclaration (Parse.consumes_declarationForm _)
    rwa [hstmt, List.map_id_fun] at hblock
  | function =>
    intro parser watched hat
    have hread := hfunction hat
    rw [hstmt] at hread
    unfold Simulation.SimulatesAt Parse.function
    rwa [hat.statements_eq]
  | params =>
    have hentries := @law.entries _ _ _ _ _ _ depth statements _ _ _ _ (Parse.forward_expect _ _)
      (law.expect .identifier .noParameterName) .tooManyParameters
    rwa [show (Observer.simulation _).token = id from rfl, List.map_id_fun] at hentries
  | declaration => exact hstmt ▸ law.declaration
  | program =>
    have hprogram := @law.program _ _ _ _ statements
    rwa [hstmt, List.map_id_fun] at hprogram

theorem keeps_limits (h : Part depth statements read watching) : limits.Keeps watching := by
  have law := watcher_honours_limits.lawful
  obtain ⟨hinner, hoperand⟩ := law.expressionWithin (maxNesting + 1)
  obtain ⟨hstatement, hfunction⟩ := law.statementWithin (maxStatementNesting + 1)
  cases h with
  | expression => exact law.expression
  | assignment => exact law.assignment hoperand hinner
  | @operators tighter _ => exact law.climb (law.unary hoperand hinner) tighter
  | operand => exact hoperand
  | call => exact law.call hinner
  | arguments => exact law.entries hinner _
  | primary => exact law.primary hinner
  | statement => exact hstatement
  | returned keyword => exact law.returnForm keyword
  | branch => exact law.branchForm hstatement
  | loop => exact law.loopForm hstatement
  | block => exact law.block law.declaration
  | function => exact hfunction
  | params => exact law.entries (law.expect _ _) _
  | declaration => exact law.declaration
  | program => exact law.program

/-- **Reads keep to the limits all along**, if they start within them. -/
theorem keeps {start : Parser} (h : Part start.depth start.statementDepth read watching)
    (hstart : start.Kept) : Keeps (read start) (watching (ofParser start)) := by
  have hsame := h.simulates (show Simulation.At _ _ _ start (ofParser start) from ⟨rfl, rfl, rfl⟩)
  have hkept := h.keeps_limits (show limits.Fine (ofParser start) by simpa [limits, ofParser])
  unfold Simulation.SimulatesAt at hsame
  generalize read start = outcome, watching (ofParser start) = answer at hsame hkept
  cases hsame with
  | ok hafter =>
    obtain ⟨rfl, _, _⟩ := hafter
    cases hkept with
    | ok hfine => exact .ok (List.forall_mem_cons.mp hfine).2
  | error hafter =>
    obtain ⟨rfl, _, _⟩ := hafter
    cases hkept with
    | error hfailed => exact .error (List.forall_mem_cons.mp hfailed).2

end Part

/-- One level is opened for the whole, one behind the operator, and one inside the parentheses. -/
example :
    let tokens : List Token := [⟨.minus, "-", ⟨1, 1⟩⟩, ⟨.leftParen, "(", ⟨1, 2⟩⟩,
      ⟨.number, "1", ⟨1, 3⟩⟩, ⟨.rightParen, ")", ⟨1, 4⟩⟩, .endMark ⟨1, 5⟩]
    let after := stateAfter machine.expression (ofParser (.ofTokens tokens))
    after.parser.depth = 0 ∧ (after.record.map Parser.depth).max? = some 3 := by decide +kernel

end Watched

/-! ## Reads one after the other -/

/-- The parsers that reads come to, one after the other, from a new parser on. A read may end with
an error, and another one then goes on where it stopped. -/
inductive Parser.Visited (tokens : List Token) : Parser → Prop
  | new : Visited tokens (.ofTokens tokens)
  | read {start : Parser} {α : Type} {read : Parse α} {watching : Watching α}
      (h : Visited tokens start)
      (hpart : Watched.Part start.depth start.statementDepth read watching) :
      Visited tokens (stateAfter read start)

/-- Between two reads no level is open. -/
theorem Parser.Visited.closed {tokens : List Token} {parser : Parser} (h : parser.Visited tokens) :
    parser.depth = 0 ∧ parser.statementDepth = 0 := by
  induction h with
  | new => exact ⟨rfl, rfl⟩
  | @read start _ read _ _ hpart ih =>
    have hreaches := hpart.forward start
    exact ⟨hreaches.depth.trans ih.1, hreaches.statementDepth.trans ih.2⟩

theorem Parser.Visited.kept {tokens : List Token} {parser : Parser} (h : parser.Visited tokens) :
    parser.Kept :=
  ⟨h.closed.1 ▸ Nat.zero_le _, h.closed.2 ▸ Nat.zero_le _⟩

/-- **Levels are balanced.** Whatever is open on a parser, as many expressions and as many
statements are open after a read as before it, and it does not matter how the read ends. So from a
new parser on no level is open between two reads, programs among them. Inside such a read the
numbers go up and down, but no parser that it comes through exceeds a limit. -/
theorem levels_balanced :
    (∀ (start : Parser) {α : Type} {read : Parse α} {watching : Watching α},
      Watched.Part start.depth start.statementDepth read watching →
        (stateAfter read start).depth = start.depth ∧
          (stateAfter read start).statementDepth = start.statementDepth) ∧
    ∀ (tokens : List Token) (start : Parser), start.Visited tokens →
      start.depth = 0 ∧ start.statementDepth = 0 ∧
        ∀ {α : Type} {read : Parse α} {watching : Watching α},
          Watched.Part start.depth start.statementDepth read watching →
            Watched.Keeps (read start) (watching (Watched.ofParser start)) := by
  constructor
  · intro start α read watching hpart
    have hreaches := hpart.forward start
    exact ⟨hreaches.depth, hreaches.statementDepth⟩
  · intro tokens start hvisited
    obtain ⟨hdepth, hstatements⟩ := hvisited.closed
    exact ⟨hdepth, hstatements, fun hpart => hpart.keeps hvisited.kept⟩

namespace Sample

/-- A name behind which an operand is missing. -/
def missing : List Token :=
  [⟨.identifier, "a", ⟨1, 1⟩⟩, ⟨.plus, "+", ⟨1, 3⟩⟩, .endMark ⟨1, 4⟩]

/-- All levels for expressions are open. -/
def full : Parser := { Parser.ofTokens missing with depth := maxNesting }

/-- A read that fails fatally leaves all levels open that were open, and a program with a mistake is
read within the limits. -/
theorem missing_balanced :
    (∃ stop, Parse.expression full = .error ⟨.nestingTooDeep, ⟨.identifier, "a", ⟨1, 1⟩⟩⟩ stop) ∧
      (stateAfter Parse.expression full).depth = maxNesting ∧
      Watched.Keeps (Parse.program (.ofTokens missing))
        (Watched.machine.program (Watched.ofParser (.ofTokens missing))) :=
  ⟨⟨_, rfl⟩, (levels_balanced.1 full .expression).1,
    (levels_balanced.2 missing (.ofTokens missing) .new).2.2 .program⟩

end Sample

end Scriptlet
