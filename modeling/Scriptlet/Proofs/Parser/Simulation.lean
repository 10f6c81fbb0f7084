import Scriptlet.Proofs.Parser.Machine
import Scriptlet.Proofs.Syntax.Relabel

/-!
# Machines that read as parsers do

If each move of a machine does what the same move does on parsers, then so does each read. What
"the same" means is left open: a simulation says which states of the machine stand for which parsers,
and how tokens and errors are to be translated. Trees are then translated token by token.

The number of open levels is the same before and after a read, so it can be fixed in what is said of
a read. It is needed because a parser counts the levels that are left where the machine checks for
each level whether there is one.

## Main definitions

* `Simulation`, `Simulation.Lawful` — which states stand for which parsers, and that the moves agree
* `Simulation.Simulates` — a read of the machine that agrees with a read

## Main results

* `Simulation.Lawful.expression`, `declaration`, `program` — the reads of the language agree
-/

namespace Scriptlet

/-- What a turn comes to, with its state changed. -/
def Turn.map {τ υ : Type} (change : τ → υ) : Turn τ → Turn υ
  | again state => again (change state)
  | done state => done (change state)

/-- Which states of a machine stand for which parsers. -/
structure Simulation (σ ε : Type) where
  /-- What stands for a token. -/
  token : Token → Token
  /-- A state that stands for a parser. -/
  State : Parser → σ → Prop
  /-- What stands for an error that a read ends with. -/
  error : ParseError → ε

namespace Simulation

variable {σ ε α β γ δ τ υ : Type} (sim : Simulation σ ε)

/-- What stands for an error that is noted. -/
def noted (error : ParseError) : ParseError := ⟨error.cause, sim.token error.token⟩

/-- What stands for an expression. -/
abbrev expr : Expr → Expr := Expr.relabel sim.token

/-- What stands for a statement. -/
abbrev stmt : Stmt → Stmt := Stmt.relabel sim.token

/-- A state that stands for a parser on which a number of expressions and a number of statements
are open. -/
structure At (depth statements : Nat) (parser : Parser) (state : σ) : Prop where
  /-- The state stands for the parser. -/
  stands : sim.State parser state
  /-- So many expressions are open. -/
  depth_eq : parser.depth = depth
  /-- So many statements are open. -/
  statements_eq : parser.statementDepth = statements

/-- Two outcomes that are the same up to translation. -/
inductive Matches (depth statements : Nat) (change : α → β) :
    EStateM.Result ParseError Parser α → EStateM.Result ε σ β → Prop
  | ok {result : α} {parser : Parser} {state : σ} (h : sim.At depth statements parser state) :
      Matches depth statements change (.ok result parser) (.ok (change result) state)
  | error {error : ParseError} {parser : Parser} {state : σ}
      (h : sim.At depth statements parser state) :
      Matches depth statements change (.error error parser) (.error (sim.error error) state)

/-- Two reads that agree on a parser and a state. -/
def SimulatesAt (depth statements : Nat) (parser : Parser) (state : σ) (change : α → β)
    (read : Parse α) (other : EStateM ε σ β) : Prop :=
  sim.Matches depth statements change (read parser) (other state)

/-- Two reads that agree on each parser and state that stands for it. -/
def Simulates (depth statements : Nat) (change : α → β) (read : Parse α)
    (other : EStateM ε σ β) : Prop :=
  ∀ ⦃parser : Parser⦄ ⦃state : σ⦄, sim.At depth statements parser state →
    sim.SimulatesAt depth statements parser state change read other

/-- The moves of a machine agree with those on parsers. Declarations are looked at where a fixed
number of expressions is open, and it may be used that they consume a token. -/
structure Lawful (machine : Machine σ ε) (outer : Nat) : Prop where
  kind (token : Token) : (sim.token token).kind = token.kind
  lexeme (token : Token) : (sim.token token).lexeme = token.lexeme
  peek {depth statements : Nat} :
    sim.Simulates depth statements sim.token Parse.current machine.peek
  advance {depth statements : Nat} {parser : Parser} {state : σ}
    (h : sim.At depth statements parser state) (hend : parser.atEnd = false) :
    sim.SimulatesAt depth statements parser state sim.token Parse.advance machine.advance
  acceptAny {depth statements : Nat} (kinds : List TokenKind) :
    sim.Simulates depth statements (Option.map sim.token) (Parse.acceptIf kinds.contains)
      (machine.acceptAny kinds)
  fail {α β : Type} {depth statements : Nat} (change : α → β) (cause : ParseCause) :
    sim.Simulates depth statements change (Parse.fail cause) (machine.fail cause)
  report {depth statements : Nat} (error : ParseError) :
    sim.Simulates depth statements id (Parse.report error) (machine.report (sim.noted error))
  nested {α β : Type} {depth statements : Nat} {change : α → β} {read : Parse α}
    {other : EStateM ε σ β} (hdepth : depth < maxNesting)
    (h : sim.Simulates (depth + 1) statements change read other) :
    sim.Simulates depth statements change (Parse.nested read) (machine.nested other)
  nested_full {α β : Type} {depth statements : Nat} (change : α → β) (other : EStateM ε σ β)
    (hdepth : maxNesting ≤ depth) :
    sim.Simulates depth statements change (Parse.fail .nestingTooDeep) (machine.nested other)
  nestedStatement {α β : Type} {depth statements : Nat} {change : α → β} {read : Parse α}
    {other : EStateM ε σ β} (hstatements : statements < maxStatementNesting)
    (h : sim.Simulates depth (statements + 1) change read other) :
    sim.Simulates depth statements change (Parse.nestedStatement read)
      (machine.nestedStatement other)
  nestedStatement_full {α β : Type} {depth statements : Nat} (change : α → β)
    (other : EStateM ε σ β) (hstatements : maxStatementNesting ≤ statements) :
    sim.Simulates depth statements change (Parse.fail .statementNestingTooDeep)
      (machine.nestedStatement other)
  recovering {α β : Type} {statements : Nat} {change : α → β} {read : Parse α}
    {other : EStateM ε σ β} (substitute : α)
    (hproceeds : ∀ start : Parser, start.atEnd = false →
      start.Proceeds statements (Parse.recovering substitute read start))
    (h : sim.Simulates outer statements change read other) :
    sim.Simulates outer statements change (Parse.recovering substitute read)
      (machine.recovering (change substitute) other)
  rounds {depth statements : Nat} {parser : Parser} {state : σ}
    (h : sim.At depth statements parser state) : parser.ahead < machine.rounds state

variable {sim} {machine : Machine σ ε} {depth statements : Nat}

/-! ## Reads one behind the other -/

theorem SimulatesAt.bind {parser : Parser} {state : σ} {change : α → β} {result : γ → δ}
    {read : Parse α} {other : EStateM ε σ β} {next : α → Parse γ} {then' : β → EStateM ε σ δ}
    (h : sim.SimulatesAt depth statements parser state change read other)
    (hnext : ∀ first, sim.Simulates depth statements result (next first) (then' (change first))) :
    sim.SimulatesAt depth statements parser state result (read >>= next) (other >>= then') := by
  unfold SimulatesAt at h ⊢
  generalize hread : read parser = outcome, hother : other state = answer at h
  cases h with
  | ok hat =>
    rw [bind_of_ok hread, bind_of_ok hother]
    exact hnext _ hat
  | error hat =>
    rw [bind_of_error hread, bind_of_error hother]
    exact .error hat

theorem SimulatesAt.stateAfter {parser : Parser} {state : σ} {change : α → β} {read : Parse α}
    {other : EStateM ε σ β} (h : sim.SimulatesAt depth statements parser state change read other) :
    sim.At depth statements (stateAfter read parser) (stateAfter other state) := by
  unfold SimulatesAt at h
  unfold Scriptlet.stateAfter
  generalize read parser = outcome, other state = answer at h
  cases h with
  | ok hat => exact hat
  | error hat => exact hat

theorem Simulates.bind {change : α → β} {result : γ → δ} {read : Parse α} {other : EStateM ε σ β}
    {next : α → Parse γ} {then' : β → EStateM ε σ δ}
    (h : sim.Simulates depth statements change read other)
    (hnext : ∀ first, sim.Simulates depth statements result (next first) (then' (change first))) :
    sim.Simulates depth statements result (read >>= next) (other >>= then') :=
  fun _ _ hat => (h hat).bind hnext

theorem Simulates.pure {change : α → β} {result : α} {other : β} (h : other = change result) :
    sim.Simulates depth statements change (pure result) (pure other) := by
  intro parser state hat
  rw [h]
  exact .ok hat

theorem Simulates.ite {change : α → β} {read read' : Parse α} {other other' : EStateM ε σ β}
    {condition : Prop} [Decidable condition] (h : sim.Simulates depth statements change read other)
    (h' : sim.Simulates depth statements change read' other') :
    sim.Simulates depth statements change (if condition then read else read')
      (if condition then other else other') := by
  by_cases hcondition : condition
  · rw [if_pos hcondition, if_pos hcondition]
    exact h
  · rw [if_neg hcondition, if_neg hcondition]
    exact h'

namespace Lawful

variable {outer : Nat} (law : sim.Lawful machine outer)
include law

/-- What is done in front of a token may depend on it. -/
theorem peek_bind {change : α → β} {next : Token → Parse α} {then' : Token → EStateM ε σ β}
    (h : ∀ parser state, sim.At depth statements parser state →
      sim.SimulatesAt depth statements parser state change (next parser.current)
        (then' (sim.token parser.current))) :
    sim.Simulates depth statements change (Parse.current >>= next) (machine.peek >>= then') := by
  intro parser state hat
  have hpeek := law.peek hat
  unfold SimulatesAt Parse.current at hpeek
  generalize hanswer : machine.peek state = answer at hpeek
  cases hpeek with
  | ok hafter =>
    unfold SimulatesAt
    rw [bind_of_ok hanswer]
    exact h _ _ hafter

/-! ## Tokens and repetitions -/

theorem accept (kind : TokenKind) :
    sim.Simulates depth statements (Option.map sim.token) (Parse.accept kind)
      (machine.accept kind) := by
  have hwanted : (fun other => decide (other = kind)) = [kind].contains := by
    funext other
    simp
  rw [Parse.accept, hwanted]
  exact law.acceptAny [kind]

theorem expect (kind : TokenKind) (cause : ParseCause) :
    sim.Simulates depth statements sim.token (Parse.expect kind cause)
      (machine.expect kind cause) := by
  refine (law.accept kind).bind fun token? => ?_
  cases token? with
  | some token => exact .pure rfl
  | none => exact law.fail _ cause

omit law in
theorem repeating {change : τ → υ} {turn : τ → Parse (Turn τ)}
    {turn' : υ → EStateM ε σ (Turn υ)} (hsteady : Parse.Steady turn)
    (hturn : ∀ done, sim.Simulates depth statements (Turn.map change) (turn done)
      (turn' (change done))) {rounds : List Token} {count : Nat} {parser : Parser} {state : σ}
    (hat : sim.At depth statements parser state) (hrounds : parser.ahead < rounds.length)
    (hcount : parser.ahead < count) (done : τ) :
    sim.SimulatesAt depth statements parser state change (Parse.repeating turn rounds done)
      (machine.repeating turn' count (change done)) := by
  induction rounds generalizing count done parser state with
  | nil => exact absurd hrounds (Nat.not_lt_zero _)
  | cons round rounds ih =>
    obtain ⟨count, rfl⟩ := Nat.exists_eq_succ_of_ne_zero (Nat.ne_zero_of_lt hcount)
    have hfirst := hturn done hat
    unfold SimulatesAt at hfirst ⊢
    rw [Parse.repeating, Machine.repeating]
    generalize hread : turn done parser = outcome, hother : turn' (change done) state = answer
      at hfirst
    cases hfirst with
    | error hafter =>
      rw [bind_of_error hread, bind_of_error hother]
      exact .error hafter
    | @ok last _ _ hafter =>
      rw [bind_of_ok hread, bind_of_ok hother]
      cases last with
      | done result => exact .ok hafter
      | again next =>
        have hless := hsteady hread
        simp only [List.length_cons] at hrounds
        exact ih hafter (by omega) (by omega) next

theorem repeated {change : τ → υ} {turn : τ → Parse (Turn τ)} {turn' : υ → EStateM ε σ (Turn υ)}
    (hsteady : Parse.Steady turn)
    (hturn : ∀ done, sim.Simulates depth statements (Turn.map change) (turn done)
      (turn' (change done))) {first : τ} {first' : υ} (hfirst : change first = first') :
    sim.Simulates depth statements change (Parse.repeated turn first)
      (machine.repeated turn' first') := by
  intro parser state hat
  rw [← hfirst]
  exact repeating hsteady hturn hat (Parse.ahead_lt_rounds parser) (law.rounds hat) first

theorem entryTurn {change : α → β} {entry : Parse α} {entry' : EStateM ε σ β}
    (h : sim.Simulates depth statements change entry entry') (tooMany : ParseCause)
    (done : Array α) :
    sim.Simulates depth statements (Turn.map (Array.map change))
      (Parse.entryTurn tooMany entry done) (machine.entryTurn tooMany entry' (done.map change)) := by
  have hroom : sim.Simulates depth statements id (Parse.checkRoom tooMany done)
      (machine.checkRoom tooMany (done.map change)) := by
    unfold Parse.checkRoom Machine.checkRoom
    rw [Array.size_map]
    exact .ite (law.peek.bind fun token => law.report ⟨tooMany, token⟩) (.pure rfl)
  refine hroom.bind fun _ => h.bind fun last => (law.accept .comma).bind fun comma? => ?_
  cases comma? with
  | some comma => exact .pure (by rw [Turn.map, Array.map_push])
  | none => exact .pure (by rw [Turn.map, Array.map_push])

theorem entries {change : α → β} {entry : Parse α} {entry' : EStateM ε σ β}
    (hentry : Parse.Forward entry) (h : sim.Simulates depth statements change entry entry')
    (tooMany : ParseCause) :
    sim.Simulates depth statements (List.map change) (Parse.entries tooMany entry)
      (machine.entries tooMany entry') := by
  rw [Parse.entries_eq, Parse.sees, bind_assoc]
  refine law.peek.bind fun token => ?_
  rw [pure_bind, law.kind]
  simp only [decide_eq_true_eq]
  refine .ite (.pure rfl) ?_
  have hall := law.repeated (Parse.steady_entryTurn hentry tooMany) (law.entryTurn h tooMany)
    Array.map_empty
  refine hall.bind fun all => ?_
  exact .pure Array.toList_map

/-! ## Expressions -/

section Expressions

variable {operand inner : Parse Expr} {operand' inner' : EStateM ε σ Expr}
variable (hoperand : sim.Simulates depth statements sim.expr operand operand')
variable (hinner : sim.Simulates depth statements sim.expr inner inner')

include hoperand in
/-- The trees of a level are translated part by part. -/
theorem chainTurn {level : Level} (hlevel : level ∈ levels) (left : Expr) :
    sim.Simulates depth statements (Turn.map sim.expr) (Parse.chainTurn level operand left)
      (machine.chainTurn operand' level (sim.expr left)) := by
  have hjoin (operator : Token) (right : Expr) :
      level.join (sim.expr left) (sim.token operator) (sim.expr right) =
        sim.expr (level.join left operator right) := by
    simp only [levels, List.mem_cons, List.not_mem_nil, or_false] at hlevel
    rcases hlevel with rfl | rfl | rfl | rfl | rfl | rfl <;> rw [expr, Expr.relabel]
  refine (law.acceptAny level.operators).bind fun operator? => ?_
  cases operator? with
  | some operator => exact hoperand.bind fun right => .pure (by rw [Turn.map, hjoin])
  | none => exact .pure rfl

include hoperand in
theorem climb (hforward : Parse.Forward operand) {some : List Level} (hsome : some ⊆ levels) :
    sim.Simulates depth statements sim.expr (Parse.climb operand some)
      (machine.climb operand' some) := by
  induction some with
  | nil => exact hoperand
  | cons level tighter ih =>
    have htighter := ih fun other hother => hsome (.tail _ hother)
    rw [Parse.climb, Parse.chain_eq]
    exact htighter.bind fun left =>
      law.repeated (Parse.steady_chainTurn (Parse.forward_climb hforward tighter) level)
        (law.chainTurn htighter (hsome (.head _))) rfl

include hinner in
theorem primary :
    sim.Simulates depth statements sim.expr (Parse.primary inner) (machine.primary inner') := by
  refine law.peek_bind fun parser state hat => ?_
  have hend (kind : TokenKind) (hkind : parser.current.kind = kind) (hne : kind ≠ .endOfInput) :
      parser.atEnd = false := decide_eq_false (hkind ▸ hne)
  rw [law.kind, law.lexeme]
  cases hkind : parser.current.kind
  case kwFalse | kwTrue | string | identifier | kwPrint | kwInput =>
    refine (law.advance hat (hend _ hkind (by decide))).bind fun _ => ?_
    exact .pure rfl
  case number =>
    cases Integer.read? parser.current.lexeme with
    | some n =>
      refine (law.advance hat (hend _ hkind (by decide))).bind fun _ => ?_
      exact .pure rfl
    | none => exact law.fail _ _ hat
  case leftParen =>
    refine (law.advance hat (hend _ hkind (by decide))).bind fun _ => hinner.bind fun value =>
      (law.expect _ _).bind fun _ => ?_
    exact .pure rfl
  all_goals exact law.fail _ _ hat

include hinner in
theorem callTurn (hforward : Parse.Forward inner) (callee : Expr) :
    sim.Simulates depth statements (Turn.map sim.expr) (Parse.callTurn inner callee)
      (machine.callTurn inner' (sim.expr callee)) := by
  refine (law.accept .leftParen).bind fun left? => ?_
  cases left? with
  | some left =>
    refine (law.entries hforward hinner _).bind fun arguments =>
      (law.expect _ _).bind fun paren => .pure ?_
    rw [Turn.map, expr, Expr.relabel, Expr.relabelAll_eq_map]
  | none => exact .pure rfl

include hinner in
theorem call (hforward : Parse.Forward inner) :
    sim.Simulates depth statements sim.expr (Parse.call inner) (machine.call inner') := by
  rw [Parse.call_eq]
  exact (law.primary hinner).bind fun callee =>
    law.repeated (Parse.steady_callTurn hforward) (law.callTurn hinner hforward) rfl

include hoperand hinner in
theorem unary (hforward : Parse.Forward inner) :
    sim.Simulates depth statements sim.expr (Parse.unary operand inner)
      (machine.unary operand' inner') := by
  refine (law.acceptAny _).bind fun operator? => ?_
  cases operator? with
  | some operator => exact hoperand.bind fun value => .pure rfl
  | none => exact law.call hinner hforward

theorem assignTo (target : Expr) (equals : Token) (value : Expr) :
    sim.Simulates depth statements sim.expr (Parse.assignTo target equals value)
      (machine.assignTo (sim.expr target) (sim.token equals) (sim.expr value)) := by
  cases target with
  | var name => exact .pure rfl
  | _ => exact (law.report ⟨.invalidTarget, equals⟩).bind fun _ => .pure rfl

include hoperand hinner in
theorem assignment (hbehind : Parse.Forward operand) (hforward : Parse.Forward inner) :
    sim.Simulates depth statements sim.expr (Parse.assignment operand inner)
      (machine.assignment operand' inner') := by
  have hclimb := law.climb (law.unary hoperand hinner hforward)
    (Parse.forward_unary hbehind hforward) (List.Subset.refl levels)
  refine hclimb.bind fun target => (law.accept .assign).bind fun equals? => ?_
  cases equals? with
  | some equals => exact hinner.bind fun value => law.assignTo target equals value
  | none => exact .pure rfl

end Expressions

/-- The levels that are left are those for which the machine finds that there is one. -/
theorem expressionWithin {levels count : Nat} (hlevels : maxNesting - depth = levels)
    (hcount : levels < count) :
    sim.Simulates depth statements sim.expr (Parse.expressionWithin levels)
        (machine.expressionWithin count) ∧
      sim.Simulates depth statements sim.expr (Parse.operandWithin levels)
        (machine.operandWithin count) := by
  induction levels generalizing depth count with
  | zero =>
    obtain ⟨count, rfl⟩ := Nat.exists_eq_succ_of_ne_zero (Nat.ne_zero_of_lt hcount)
    have hfull : maxNesting ≤ depth := Nat.le_of_sub_eq_zero hlevels
    exact ⟨law.nested_full _ _ hfull, law.nested_full _ _ hfull⟩
  | succ levels ih =>
    obtain ⟨count, rfl⟩ := Nat.exists_eq_succ_of_ne_zero (Nat.ne_zero_of_lt hcount)
    obtain ⟨hinner, hoperand⟩ := @ih (depth + 1) count (by omega) (by omega)
    obtain ⟨hforward, hbehind⟩ := Parse.forward_within levels
    exact ⟨law.nested (by omega) (law.assignment hoperand hinner hbehind hforward),
      law.nested (by omega) (law.unary hoperand hinner hforward)⟩

theorem expression :
    sim.Simulates depth statements sim.expr Parse.expression machine.expression := by
  intro parser state hat
  have hwithin := (@expressionWithin _ _ _ _ depth statements _ law _ (maxNesting + 1) rfl
    (by omega)).1 hat
  unfold SimulatesAt Parse.expression
  rwa [hat.depth_eq]

/-! ## Statements -/

section Statements

variable {function statement declaration : Parse Stmt}
variable {function' statement' declaration' : EStateM ε σ Stmt}
variable (hfunction : sim.Simulates outer statements sim.stmt function function')
variable (hstatement : sim.Simulates outer statements sim.stmt statement statement')
variable (hdeclaration : sim.Simulates outer statements sim.stmt declaration declaration')

theorem optionalSemicolon :
    sim.Simulates depth statements id Parse.optionalSemicolon machine.optionalSemicolon :=
  (law.accept .semicolon).bind fun _ => .pure rfl

include hdeclaration in
theorem declarationTurn (ends : TokenKind → Prop) [DecidablePred ends] (done : Array Stmt) :
    sim.Simulates outer statements (Turn.map (Array.map sim.stmt))
      (Parse.declarationTurn ends declaration done)
      (machine.declarationTurn declaration' ends (done.map sim.stmt)) := by
  refine law.peek.bind fun token => ?_
  rw [law.kind]
  refine .ite (.pure rfl) (hdeclaration.bind fun stmt => .pure ?_)
  rw [Turn.map, Array.map_push]

include hdeclaration in
theorem block (hconsumes : Parse.Consumes declaration) :
    sim.Simulates outer statements (List.map sim.stmt) (Parse.block declaration)
      (machine.block declaration') := by
  rw [Parse.block_eq]
  have hsteady := @Parse.steady_declarationTurn Parse.EndsSequence _ (.inr rfl) _ hconsumes
  have hbody := law.repeated hsteady (law.declarationTurn hdeclaration Parse.EndsSequence)
    Array.map_empty
  refine hbody.bind fun body => (law.expect _ _).bind fun _ => ?_
  exact .pure Array.toList_map

theorem returnForm (keyword : Token) :
    sim.Simulates depth statements sim.stmt (Parse.returnForm keyword)
      (machine.returnForm (sim.token keyword)) := by
  refine law.peek.bind fun token => ?_
  rw [law.kind]
  refine .ite (law.optionalSemicolon.bind fun _ => .pure rfl) ?_
  exact law.expression.bind fun value => law.optionalSemicolon.bind fun _ => .pure rfl

include hstatement in
theorem branchForm :
    sim.Simulates outer statements sim.stmt (Parse.branchForm statement)
      (machine.branchForm statement') := by
  refine law.expression.bind fun condition => (law.expect _ _).bind fun _ =>
    hstatement.bind fun yes => (law.accept .kwElse).bind fun other? => ?_
  cases other? with
  | some other => exact hstatement.bind fun no => .pure (by rw [stmt, Stmt.relabel])
  | none => exact .pure (by rw [stmt, Stmt.relabel])

include hstatement in
theorem loopForm :
    sim.Simulates outer statements sim.stmt (Parse.loopForm statement)
      (machine.loopForm statement') :=
  law.expression.bind fun condition => (law.expect _ _).bind fun _ =>
    hstatement.bind fun body => .pure (by rw [stmt, Stmt.relabel])

include hstatement hdeclaration in
theorem statementForm (hconsumes : Parse.Consumes declaration) :
    sim.Simulates outer statements sim.stmt (Parse.statementForm statement declaration)
      (machine.statementForm statement' declaration') := by
  refine law.peek_bind fun parser state hat => ?_
  have hend (kind : TokenKind) (hkind : parser.current.kind = kind) (hne : kind ≠ .endOfInput) :
      parser.atEnd = false := decide_eq_false (hkind ▸ hne)
  rw [law.kind]
  cases hkind : parser.current.kind
  case kwReturn => exact (law.advance hat (hend _ hkind (by decide))).bind law.returnForm
  case kwPrint =>
    refine (law.advance hat (hend _ hkind (by decide))).bind fun _ =>
      law.expression.bind fun value => law.optionalSemicolon.bind fun _ => ?_
    exact .pure (by rw [stmt, Stmt.relabel])
  case leftBrace =>
    refine (law.advance hat (hend _ hkind (by decide))).bind fun _ =>
      (law.block hdeclaration hconsumes).bind fun body => ?_
    exact .pure (by rw [stmt, Stmt.relabel, Stmt.relabelAll_eq_map])
  case kwIf =>
    exact (law.advance hat (hend _ hkind (by decide))).bind fun _ => law.branchForm hstatement
  case kwWhile =>
    exact (law.advance hat (hend _ hkind (by decide))).bind fun _ => law.loopForm hstatement
  all_goals
    refine (law.expression hat).bind fun value => law.optionalSemicolon.bind fun _ => ?_
    exact .pure (by rw [stmt, Stmt.relabel])

include hdeclaration in
theorem functionForm (hconsumes : Parse.Consumes declaration) :
    sim.Simulates outer statements sim.stmt (Parse.functionForm declaration)
      (machine.functionForm declaration') := by
  refine (law.expect _ _).bind fun name => (law.expect _ _).bind fun _ =>
    (law.entries (Parse.forward_expect _ _) (law.expect _ _) _).bind fun params =>
      (law.expect _ _).bind fun _ => (law.expect _ _).bind fun _ =>
        (law.block hdeclaration hconsumes).bind fun body => .pure ?_
  rw [stmt, Stmt.relabel, Stmt.relabelAll_eq_map]

include hfunction hstatement in
theorem declarationForm
    (hproceeds : ∀ start : Parser, start.atEnd = false →
      start.Proceeds statements (Parse.declarationForm function statement start)) :
    sim.Simulates outer statements sim.stmt (Parse.declarationForm function statement)
      (machine.declarationForm function' statement') := by
  refine law.recovering Stmt.placeholder hproceeds ((law.accept .kwFunction).bind fun keyword? => ?_)
  cases keyword? with
  | some keyword => exact hfunction
  | none => exact hstatement

end Statements

theorem declarationWithin {levels count : Nat} (hlevels : maxStatementNesting - statements = levels)
    (hcount : levels < count) :
    sim.Simulates outer statements sim.stmt (Parse.statementWithin levels)
        (machine.statementWithin count) ∧
      sim.Simulates outer statements sim.stmt (Parse.functionWithin levels)
        (machine.functionWithin count) := by
  induction levels generalizing statements count with
  | zero =>
    obtain ⟨count, rfl⟩ := Nat.exists_eq_succ_of_ne_zero (Nat.ne_zero_of_lt hcount)
    have hfull : maxStatementNesting ≤ statements := Nat.le_of_sub_eq_zero hlevels
    exact ⟨law.nestedStatement_full _ _ hfull, law.nestedStatement_full _ _ hfull⟩
  | succ levels ih =>
    obtain ⟨count, rfl⟩ := Nat.exists_eq_succ_of_ne_zero (Nat.ne_zero_of_lt hcount)
    have hfewer : maxStatementNesting - (statements + 1) = levels := by omega
    obtain ⟨hstatement, hfunction⟩ := @ih (statements + 1) count hfewer (by omega)
    have hdeclaration :=
      law.declarationForm hfunction hstatement fun _ => Parse.proceeds_declarationWithin hfewer
    have hconsumes := Parse.consumes_declarationForm levels
    exact ⟨law.nestedStatement (by omega) (law.statementForm hstatement hdeclaration hconsumes),
      law.nestedStatement (by omega) (law.functionForm hdeclaration hconsumes)⟩

/-- **Declarations are read as on parsers.** -/
theorem declaration :
    sim.Simulates outer statements sim.stmt Parse.declaration machine.declaration := by
  intro parser state hat
  obtain ⟨hstatement, hfunction⟩ := @declarationWithin _ _ _ _ statements _ law _
    (maxStatementNesting + 1) rfl (by omega)
  have hdeclaration :=
    law.declarationForm hfunction hstatement (fun _ => Parse.proceeds_declarationWithin rfl) hat
  unfold SimulatesAt
  rw [Parse.declaration_apply, hat.statements_eq]
  exact hdeclaration

/-- **Programs are read as on parsers.** -/
theorem program :
    sim.Simulates outer statements (List.map sim.stmt) Parse.program machine.program := by
  rw [Parse.program_eq]
  have hdeclaration := @declaration _ _ sim machine statements outer law
  have hbody := law.repeated Parse.steady_programTurn
    (law.declarationTurn hdeclaration (· = .endOfInput)) Array.map_empty
  refine hbody.bind fun body => ?_
  exact .pure Array.toList_map

end Lawful

end Simulation

end Scriptlet
