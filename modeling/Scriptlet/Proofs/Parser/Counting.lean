import Scriptlet.Proofs.Parser.Simulation

/-!
# Levels and recovery in simulations

Every machine opens and closes levels in the same way, by two counts that its states keep. And it
goes on after an error in the same way, unless the error is fatal. Machines differ in how a state
keeps the counts, and in what is done in order to go on. If the counts of a state are those of the
parser for which it stands, then reading one level deeper agrees with reading one level deeper on
the parser, and if going on agrees, so does recovery. Simulations use these facts in place of proofs
of their own.

## Main definitions

* `Parser.counts` — the levels that are open on a parser
* `Counts.Agree` — the counts of states are those of parsers
* `goingOn` — reading, and going on after an error that is not fatal

## Main results

* `Counts.Agree.nested`, `Counts.Agree.nestedStatement` — reading one level deeper agrees
* `Simulation.simulates_goingOn`, `Parse.simulates_recovering` — recovery agrees
-/

namespace Scriptlet

variable {σ ε α β : Type}

/-- The counts of a parser. -/
def Parser.counts : Counts Parser where
  depth := depth
  statementDepth := statementDepth
  changeDepth change parser := { parser with depth := change parser.depth }
  changeStatementDepth change parser :=
    { parser with statementDepth := change parser.statementDepth }

namespace Parse

theorem nested_eq_onState (read : Parse α) (parser : Parser) :
    nested read parser = onState (Parser.counts.changeDepth (· - 1))
      (read (Parser.counts.changeDepth (· + 1) parser)) := by
  rw [nested]
  change _ = onState _ (read { parser with depth := parser.depth + 1 })
  cases read { parser with depth := parser.depth + 1 } <;> rfl

theorem nestedStatement_eq_onState (read : Parse α) (parser : Parser) :
    nestedStatement read parser = onState (Parser.counts.changeStatementDepth (· - 1))
      (read (Parser.counts.changeStatementDepth (· + 1) parser)) := by
  rw [nestedStatement]
  change _ = onState _ (read { parser with statementDepth := parser.statementDepth + 1 })
  cases read { parser with statementDepth := parser.statementDepth + 1 } <;> rfl

theorem machine_nested (read : Parse α) :
    machine.nested read = Parser.counts.nested (fail .nestingTooDeep) read := by
  funext parser
  change (if parser.depth < maxNesting then nested read parser else _) = _
  rw [nested_eq_onState]
  rfl

theorem machine_nestedStatement (read : Parse α) :
    machine.nestedStatement read =
      Parser.counts.nestedStatement (fail .statementNestingTooDeep) read := by
  funext parser
  change (if parser.statementDepth < maxStatementNesting then nestedStatement read parser else _) =
    _
  rw [nestedStatement_eq_onState]
  rfl

end Parse

/-! ## Levels -/

variable {sim : Simulation σ ε} {depth statements : Nat} {change : α → β} {read : Parse α}
  {other : EStateM ε σ β}

/-- Reads agree inside of something that is entered and left in the same way. -/
theorem Simulation.simulates_inside {depth' statements' : Nat} {enter leave : Parser → Parser}
    {enter' leave' : σ → σ}
    (henter : ∀ ⦃parser state⦄, sim.At depth statements parser state →
      sim.At depth' statements' (enter parser) (enter' state))
    (hleave : ∀ ⦃parser state⦄, sim.At depth' statements' parser state →
      sim.At depth statements (leave parser) (leave' state))
    (h : sim.Simulates depth' statements' change read other) :
    sim.Simulates depth statements change (fun parser => onState leave (read (enter parser)))
      (fun state => onState leave' (other (enter' state))) := by
  intro parser state hat
  have hinside := h (henter hat)
  unfold Simulation.SimulatesAt at hinside
  show sim.Matches _ _ _ (onState leave (read (enter parser))) (onState leave' (other (enter' state)))
  generalize read (enter parser) = outcome, other (enter' state) = answer at hinside
  cases hinside with
  | ok hafter => exact .ok (hleave hafter)
  | error hafter => exact .error (hleave hafter)

namespace Counts

/-- The counts of a state are those of the parser for which it stands, and change as they do. -/
structure Agree (counts : Counts σ) (sim : Simulation σ ε) : Prop where
  depth ⦃parser : Parser⦄ ⦃state : σ⦄ (h : sim.State parser state) :
    counts.depth state = parser.depth
  statementDepth ⦃parser : Parser⦄ ⦃state : σ⦄ (h : sim.State parser state) :
    counts.statementDepth state = parser.statementDepth
  changeDepth ⦃parser : Parser⦄ ⦃state : σ⦄ (h : sim.State parser state) (change : Nat → Nat) :
    sim.State (Parser.counts.changeDepth change parser) (counts.changeDepth change state)
  changeStatementDepth ⦃parser : Parser⦄ ⦃state : σ⦄ (h : sim.State parser state)
    (change : Nat → Nat) :
    sim.State (Parser.counts.changeStatementDepth change parser)
      (counts.changeStatementDepth change state)

namespace Agree

variable {counts : Counts σ} {fail : EStateM ε σ β} (law : counts.Agree sim)
include law

/-- **Reading one expression level deeper agrees.** -/
theorem nested (hdepth : depth < maxNesting)
    (h : sim.Simulates (depth + 1) statements change read other) :
    sim.Simulates depth statements change (Parse.nested read) (counts.nested fail other) := by
  intro parser state hat
  have hopen ⦃parser state⦄ (hat : sim.At depth statements parser state) :
      sim.At (depth + 1) statements (Parser.counts.changeDepth (· + 1) parser)
        (counts.changeDepth (· + 1) state) :=
    ⟨law.changeDepth hat.stands _, congrArg (· + 1) hat.depth_eq, hat.statements_eq⟩
  have hclose ⦃parser state⦄ (hat : sim.At (depth + 1) statements parser state) :
      sim.At depth statements (Parser.counts.changeDepth (· - 1) parser)
        (counts.changeDepth (· - 1) state) :=
    ⟨law.changeDepth hat.stands _, congrArg (· - 1) hat.depth_eq, hat.statements_eq⟩
  have hinside := Simulation.simulates_inside hopen hclose h hat
  have hlevel : counts.depth state < maxNesting := by rwa [law.depth hat.stands, hat.depth_eq]
  unfold Simulation.SimulatesAt
  rw [Counts.nested_of_lt hlevel, Parse.nested_eq_onState]
  exact hinside

theorem nested_full (hdepth : maxNesting ≤ depth)
    (hfail : sim.Simulates depth statements change (Parse.fail .nestingTooDeep) fail) :
    sim.Simulates depth statements change (Parse.fail .nestingTooDeep)
      (counts.nested fail other) := by
  intro parser state hat
  have hlevel : maxNesting ≤ counts.depth state := by rwa [law.depth hat.stands, hat.depth_eq]
  unfold Simulation.SimulatesAt
  rw [Counts.nested_of_le hlevel]
  exact hfail hat

/-- **Reading one statement level deeper agrees.** -/
theorem nestedStatement (hstatements : statements < maxStatementNesting)
    (h : sim.Simulates depth (statements + 1) change read other) :
    sim.Simulates depth statements change (Parse.nestedStatement read)
      (counts.nestedStatement fail other) := by
  intro parser state hat
  have hopen ⦃parser state⦄ (hat : sim.At depth statements parser state) :
      sim.At depth (statements + 1) (Parser.counts.changeStatementDepth (· + 1) parser)
        (counts.changeStatementDepth (· + 1) state) :=
    ⟨law.changeStatementDepth hat.stands _, hat.depth_eq, congrArg (· + 1) hat.statements_eq⟩
  have hclose ⦃parser state⦄ (hat : sim.At depth (statements + 1) parser state) :
      sim.At depth statements (Parser.counts.changeStatementDepth (· - 1) parser)
        (counts.changeStatementDepth (· - 1) state) :=
    ⟨law.changeStatementDepth hat.stands _, hat.depth_eq, congrArg (· - 1) hat.statements_eq⟩
  have hinside := Simulation.simulates_inside hopen hclose h hat
  have hlevel : counts.statementDepth state < maxStatementNesting := by
    rwa [law.statementDepth hat.stands, hat.statements_eq]
  unfold Simulation.SimulatesAt
  rw [Counts.nestedStatement_of_lt hlevel, Parse.nestedStatement_eq_onState]
  exact hinside

theorem nestedStatement_full (hstatements : maxStatementNesting ≤ statements)
    (hfail : sim.Simulates depth statements change (Parse.fail .statementNestingTooDeep) fail) :
    sim.Simulates depth statements change (Parse.fail .statementNestingTooDeep)
      (counts.nestedStatement fail other) := by
  intro parser state hat
  have hlevel : maxStatementNesting ≤ counts.statementDepth state := by
    rwa [law.statementDepth hat.stands, hat.statements_eq]
  unfold Simulation.SimulatesAt
  rw [Counts.nestedStatement_of_le hlevel]
  exact hfail hat

end Agree

end Counts

/-! Where states are parsers as well, levels are opened and closed by the moves on parsers. -/

namespace Parse

variable {sim : Simulation Parser ParseError} {other : Parse β} (law : Parser.counts.Agree sim)
include law

theorem simulates_nested (hdepth : depth < maxNesting)
    (h : sim.Simulates (depth + 1) statements change read other) :
    sim.Simulates depth statements change (nested read) (machine.nested other) := by
  rw [machine_nested]
  exact law.nested hdepth h

theorem simulates_nested_full (hdepth : maxNesting ≤ depth)
    (hfail : sim.Simulates depth statements change (fail .nestingTooDeep)
      (machine.fail .nestingTooDeep)) :
    sim.Simulates depth statements change (fail .nestingTooDeep) (machine.nested other) := by
  rw [machine_nested]
  exact law.nested_full hdepth hfail

theorem simulates_nestedStatement (hstatements : statements < maxStatementNesting)
    (h : sim.Simulates depth (statements + 1) change read other) :
    sim.Simulates depth statements change (nestedStatement read)
      (machine.nestedStatement other) := by
  rw [machine_nestedStatement]
  exact law.nestedStatement hstatements h

theorem simulates_nestedStatement_full (hstatements : maxStatementNesting ≤ statements)
    (hfail : sim.Simulates depth statements change (fail .statementNestingTooDeep)
      (machine.fail .statementNestingTooDeep)) :
    sim.Simulates depth statements change (fail .statementNestingTooDeep)
      (machine.nestedStatement other) := by
  rw [machine_nestedStatement]
  exact law.nestedStatement_full hstatements hfail

end Parse

/-! ## Going on after an error -/

/-- Reads, and goes on in some way after an error that is not fatal. -/
def goingOn (goOn : ParseError → EStateM ParseError σ α) (read : EStateM ParseError σ α) :
    EStateM ParseError σ α := fun state =>
  match read state with
  | .ok result after => .ok result after
  | .error error after => if error.isFatal then .error error after else goOn error after

/-- **Recovery agrees if going on does.** -/
theorem Simulation.simulates_goingOn {sim : Simulation σ ParseError} {substitute : α}
    {goOn : ParseError → EStateM ParseError σ β} {other : EStateM ParseError σ β}
    (hfatal : ∀ error, (sim.error error).isFatal = error.isFatal)
    (hgoOn : ∀ error, sim.Simulates depth statements change
      (do Parse.report error; Parse.synchronize; return substitute) (goOn (sim.error error)))
    (h : sim.Simulates depth statements change read other) :
    sim.Simulates depth statements change (Parse.recovering substitute read)
      (goingOn goOn other) := by
  intro parser state hat
  have hread := h hat
  unfold Simulation.SimulatesAt Parse.recovering Scriptlet.goingOn at *
  generalize read parser = outcome, other state = answer at hread
  cases hread with
  | ok hafter => exact .ok hafter
  | @error error stop after hafter =>
    show sim.Matches depth statements change (ite _ _ _) (ite _ _ _)
    rw [hfatal]
    by_cases hmild : error.isFatal = true
    · rw [if_pos hmild, if_pos hmild]
      exact .error hafter
    · rw [if_neg hmild, if_neg hmild]
      exact hgoOn error hafter

theorem Parse.recovering_eq_goingOn (substitute : α) (read : Parse α) :
    recovering substitute read =
      goingOn (fun error => do report error; synchronize; return substitute) read := by
  funext parser
  unfold recovering goingOn
  cases read parser <;> rfl

/-- Where states are parsers as well, errors have to be noted and tokens skipped alike. -/
theorem Parse.simulates_recovering {sim : Simulation Parser ParseError} {other : Parse β}
    (hfatal : ∀ error, (sim.error error).isFatal = error.isFatal)
    (hreport : ∀ error, sim.Simulates depth statements id (report error) (report (sim.error error)))
    (hskip : sim.Simulates depth statements id synchronize synchronize) (substitute : α)
    (h : sim.Simulates depth statements change read other) :
    sim.Simulates depth statements change (recovering substitute read)
      (recovering (change substitute) other) := by
  rw [recovering_eq_goingOn (change substitute)]
  exact Simulation.simulates_goingOn hfatal
    (fun error => (hreport error).bind fun _ => hskip.bind fun _ => .pure rfl) h

end Scriptlet
