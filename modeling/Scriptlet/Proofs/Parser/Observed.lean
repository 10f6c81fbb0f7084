import Scriptlet.Proofs.Parser.Contract
import Scriptlet.Proofs.Parser.Counting

/-!
# Watching a parser while it reads

What happens inside a read can often not be seen from its ends. So a parser is observed while it
reads: each parser that it comes to may be written down, each error that is raised, and each place
at which reading goes on. An observer says what is written down, and in which form.

Observing a parser changes nothing about what is read, whoever the observer is. What is to be said of
what was written down is a contract, and here it is reduced to what the observer does.

## Main definitions

* `Observer` — what is written down
* `Observed`, `Observer.machine` — a parser with what was written down, and the moves on it
* `Observer.simulation` — a parser that is observed stands for itself
* `Observer.Honours` — what an observer writes down keeps a contract

## Main results

* `Observer.simulation_lawful` — a parser that is observed reads as any other
* `Observer.Honours.lawful` — all moves keep a contract that the observer honours
-/

namespace Scriptlet

/-- What is written down while a parser reads. -/
structure Observer (ρ : Type) where
  /-- Reading comes to a parser. -/
  saw (parser : Parser) (record : ρ) : ρ
  /-- An error is raised on a parser. -/
  raised (error : ParseError) (parser : Parser) (record : ρ) : ρ
  /-- After an error reading goes on with a parser. -/
  resumed (parser : Parser) (record : ρ) : ρ

/-- A parser, with what was written down while it read. -/
structure Observed (ρ : Type) where
  /-- The parser. -/
  parser : Parser
  /-- What was written down. -/
  record : ρ

/-- A read of a parser that is observed. -/
abbrev Observing (ρ α : Type) := EStateM ParseError (Observed ρ) α

namespace Observer

variable {ρ α β : Type} (observer : Observer ρ)

/-! ## The moves -/

/-- Comes to a parser. -/
def come (observed : Observed ρ) (parser : Parser) : Observed ρ :=
  ⟨parser, observer.saw parser observed.record⟩

/-- Makes a move on the parser. -/
def move (read : Parse α) : Observing ρ α := fun observed =>
  match read observed.parser with
  | .ok result parser => .ok result (observer.come observed parser)
  | .error error parser => .error error (observer.come observed parser)

/-- Fails at the next token. -/
def fail (cause : ParseCause) : Observing ρ α := fun ⟨parser, record⟩ =>
  .error ⟨cause, parser.current⟩ ⟨parser, observer.raised ⟨cause, parser.current⟩ parser record⟩

/-- Writes down where reading goes on. -/
def resume : Observing ρ Unit := fun ⟨parser, record⟩ =>
  .ok () ⟨parser, observer.resumed parser record⟩

/-- The counts of a parser that is observed. -/
def counts : Counts (Observed ρ) where
  depth observed := observed.parser.depth
  statementDepth observed := observed.parser.statementDepth
  changeDepth change observed :=
    observer.come observed (Parser.counts.changeDepth change observed.parser)
  changeStatementDepth change observed :=
    observer.come observed (Parser.counts.changeStatementDepth change observed.parser)

/-- Notes an error, looks for the next statement, and gives a substitute. -/
def goOn (substitute : α) (error : ParseError) : Observing ρ α := do
  observer.move (Parse.report error)
  observer.move Parse.synchronize
  observer.resume
  return substitute

/-- The moves on a parser that is observed. -/
def machine : Machine (Observed ρ) ParseError where
  peek := observer.move Parse.current
  advance := observer.move Parse.advance
  acceptAny kinds := observer.move (Parse.acceptIf kinds.contains)
  fail := observer.fail
  report error := observer.move (Parse.report error)
  nested := observer.counts.nested (observer.fail .nestingTooDeep)
  nestedStatement := observer.counts.nestedStatement (observer.fail .statementNestingTooDeep)
  recovering substitute := goingOn (observer.goOn substitute)
  rounds observed := observed.parser.ahead + 1
  exhausted := observer.fail .nestingTooDeep

/-! ## Observing changes nothing -/

/-- A parser that is observed stands for itself. -/
def simulation (ρ : Type) : Simulation (Observed ρ) ParseError where
  token := id
  State parser observed := observed.parser = parser
  error := id

section Simulation

variable {depth statements : Nat} {change : α → β} {read : Parse α}

theorem simulates_move (hread : Parse.Forward read) :
    (simulation ρ).Simulates depth statements id read (observer.move read) := by
  rintro parser observed ⟨rfl, hdepth, hstatements⟩
  unfold Simulation.SimulatesAt move
  cases hmove : read observed.parser with
  | ok result stop =>
    have hreaches := hread.of_ok hmove
    exact .ok ⟨rfl, hreaches.depth.trans hdepth, hreaches.statementDepth.trans hstatements⟩
  | error error stop =>
    have hreaches := hread.of_error hmove
    exact .error ⟨rfl, hreaches.depth.trans hdepth, hreaches.statementDepth.trans hstatements⟩

theorem simulates_fail (cause : ParseCause) :
    (simulation ρ).Simulates depth statements change (Parse.fail cause) (observer.fail cause) := by
  rintro parser observed ⟨rfl, hdepth, hstatements⟩
  exact .error ⟨rfl, hdepth, hstatements⟩

theorem counts_agree : observer.counts.Agree (simulation ρ) where
  depth := by
    rintro _ observed rfl
    rfl
  statementDepth := by
    rintro _ observed rfl
    rfl
  changeDepth := by
    rintro _ observed rfl change
    rfl
  changeStatementDepth := by
    rintro _ observed rfl change
    rfl

theorem simulates_goOn (substitute : α) (error : ParseError) :
    (simulation ρ).Simulates depth statements change
      (do Parse.report error; Parse.synchronize; return substitute)
      (observer.goOn (change substitute) error) := by
  refine (observer.simulates_move (Parse.forward_report error)).bind fun _ =>
    (observer.simulates_move Parse.forward_synchronize).bind fun _ => ?_
  rintro parser observed ⟨rfl, hdepth, hstatements⟩
  exact .ok ⟨rfl, hdepth, hstatements⟩

end Simulation

/-- **A parser that is observed reads as any other.** -/
theorem simulation_lawful (outer : Nat) : (simulation ρ).Lawful observer.machine outer where
  kind _ := rfl
  lexeme _ := rfl
  peek {_ _} := observer.simulates_move Parse.forward_current
  advance hat _ := observer.simulates_move Parse.forward_advance hat
  acceptAny kinds := by
    rw [show (simulation ρ).token = id from rfl, Option.map_id]
    exact observer.simulates_move (Parse.forward_acceptIf _)
  fail _ := observer.simulates_fail
  report error := observer.simulates_move (Parse.forward_report error)
  nested := observer.counts_agree.nested
  nested_full _ _ hfull := observer.counts_agree.nested_full hfull (observer.simulates_fail _)
  nestedStatement := observer.counts_agree.nestedStatement
  nestedStatement_full _ _ hfull :=
    observer.counts_agree.nestedStatement_full hfull (observer.simulates_fail _)
  recovering substitute _ :=
    Simulation.simulates_goingOn (fun _ => rfl) (observer.simulates_goOn substitute)
  rounds hat := by
    obtain ⟨rfl, _, _⟩ := hat
    exact Nat.lt_succ_self _

theorem simulates_program (parser : Parser) (record : ρ) :
    (simulation ρ).SimulatesAt parser.depth parser.statementDepth parser ⟨parser, record⟩ id
      Parse.program observer.machine.program := by
  have hstmt : (simulation ρ).stmt = id := funext Stmt.relabel_id
  have hprogram :=
    @(observer.simulation_lawful parser.depth).program _ _ _ _ parser.statementDepth
  rw [hstmt, List.map_id_fun] at hprogram
  exact hprogram ⟨rfl, rfl, rfl⟩

/-! ## What was written down -/

/-- The state from which reading goes on after an error. -/
def past (error : ParseError) (observed : Observed ρ) : Observed ρ :=
  let noted := observer.come observed (observed.parser.report error)
  let synchronized :=
    observer.come noted (noted.parser.facing (Parse.skipTokens noted.parser.rest))
  { synchronized with record := observer.resumed synchronized.parser synchronized.record }

theorem goOn_eq (substitute : α) (error : ParseError) (observed : Observed ρ) :
    observer.goOn substitute error observed = .ok substitute (observer.past error observed) :=
  rfl

/-- What is written down keeps a contract: on the way, when a level is opened or closed, when an
error is raised, and again when reading goes on after it. -/
structure Honours (contract : Contract (Observed ρ) ParseError) : Prop where
  come {observed : Observed ρ} {parser : Parser} (h : contract.Fine observed)
    (hreaches : observed.parser.Reaches parser) : contract.Fine (observer.come observed parser)
  level {observed : Observed ρ} {depth statementDepth : Nat} (h : contract.Fine observed)
    (hdepth : depth ≤ max observed.parser.depth maxNesting)
    (hstatements : statementDepth ≤ max observed.parser.statementDepth maxStatementNesting) :
    contract.Fine (observer.come observed { observed.parser with depth, statementDepth })
  level_failed {error : ParseError} {observed : Observed ρ} {depth statementDepth : Nat}
    (h : contract.Failed error observed) (hdepth : depth ≤ observed.parser.depth)
    (hstatements : statementDepth ≤ observed.parser.statementDepth) :
    contract.Failed error (observer.come observed { observed.parser with depth, statementDepth })
  raised {observed : Observed ρ} (cause : ParseCause) (h : contract.Fine observed) :
    contract.Failed ⟨cause, observed.parser.current⟩ ⟨observed.parser,
      observer.raised ⟨cause, observed.parser.current⟩ observed.parser observed.record⟩
  past {error : ParseError} {observed : Observed ρ} (h : contract.Failed error observed)
    (hmild : error.isFatal = false) : contract.Fine (observer.past error observed)

namespace Honours

variable {observer} {contract : Contract (Observed ρ) ParseError}
  (law : observer.Honours contract)
include law

theorem keeps_move {read : Parse α} (hread : Parse.Forward read)
    (hok : ∀ start error stop, read start ≠ .error error stop) :
    contract.Keeps (observer.move read) := by
  intro observed hfine
  unfold move
  cases hmove : read observed.parser with
  | ok result stop => exact .ok (law.come hfine (hread.of_ok hmove))
  | error error stop => exact absurd hmove (hok _ _ _)

theorem keeps_fail (cause : ParseCause) :
    contract.Keeps (observer.fail cause : Observing ρ α) :=
  fun _ hfine => .error (law.raised cause hfine)

theorem keeps_nested {read : Observing ρ α} (h : contract.Keeps read) :
    contract.Keeps (observer.counts.nested (observer.fail .nestingTooDeep) read) := by
  intro observed hfine
  unfold Counts.nested
  split
  · rename_i hlevel
    have hopen : contract.Fine (observer.counts.changeDepth (· + 1) observed) :=
      law.level hfine (Nat.le_trans hlevel (Nat.le_max_right _ _)) (Nat.le_max_left _ _)
    exact (h hopen).onState
      (fun _ hafter => law.level hafter (Nat.le_trans (Nat.sub_le _ _) (Nat.le_max_left _ _))
        (Nat.le_max_left _ _))
      fun _ _ hafter => law.level_failed hafter (Nat.sub_le _ _) (Nat.le_refl _)
  · exact law.keeps_fail _ hfine

theorem keeps_nestedStatement {read : Observing ρ α} (h : contract.Keeps read) :
    contract.Keeps
      (observer.counts.nestedStatement (observer.fail .statementNestingTooDeep) read) := by
  intro observed hfine
  unfold Counts.nestedStatement
  split
  · rename_i hlevel
    have hopen : contract.Fine (observer.counts.changeStatementDepth (· + 1) observed) :=
      law.level hfine (Nat.le_max_left _ _) (Nat.le_trans hlevel (Nat.le_max_right _ _))
    exact (h hopen).onState
      (fun _ hafter => law.level hafter (Nat.le_max_left _ _)
        (Nat.le_trans (Nat.sub_le _ _) (Nat.le_max_left _ _)))
      fun _ _ hafter => law.level_failed hafter (Nat.le_refl _) (Nat.sub_le _ _)
  · exact law.keeps_fail _ hfine

theorem keeps_recovering (substitute : α) {read : Observing ρ α} (h : contract.Keeps read) :
    contract.Keeps (goingOn (observer.goOn substitute) read) := by
  intro observed hfine
  have hread := h hfine
  unfold goingOn
  generalize read observed = outcome at hread
  cases hread with
  | ok hafter => exact .ok hafter
  | @error error after hafter =>
    show contract.Kept (ite (error.isFatal = true) _ _)
    cases hfatal : error.isFatal with
    | true => exact .error hafter
    | false =>
      show contract.Kept (observer.goOn substitute error after)
      rw [goOn_eq]
      exact .ok (law.past hafter hfatal)

/-- **All moves keep a contract that the observer honours.** -/
theorem lawful : contract.Lawful observer.machine where
  peek := law.keeps_move Parse.forward_current fun _ _ _ => nofun
  advance := law.keeps_move Parse.forward_advance fun _ _ _ => nofun
  acceptAny kinds := by
    refine law.keeps_move (Parse.forward_acceptIf _) fun start error stop hread => ?_
    unfold Parse.acceptIf at hread
    split at hread <;> cases hread
  fail := law.keeps_fail
  report error := law.keeps_move (Parse.forward_report error) fun _ _ _ => nofun
  nested := law.keeps_nested
  nestedStatement := law.keeps_nestedStatement
  recovering := law.keeps_recovering
  exhausted {_} := law.keeps_fail _

end Honours

end Observer

end Scriptlet
