import Scriptlet.Proofs.Parser.Accounts
import Scriptlet.Proofs.Parser.Calls

/-!
# A program is read attempt by attempt

In front of each statement of a program an attempt is made to read it. If it fails and the error is
not fatal, the error is noted, tokens are skipped, and a placeholder stands for the statement; the
statements read before it stay as they are. A fatal error ends the call, and the next call makes its
first attempt where that error stands.

## Main definitions

* `Attempt`, `Parse.Attempted` — attempts, made one behind the other
* `Parse.Ending` — how the attempts of a call end
* `Parse.Spells` — a read that never gives a placeholder

## Main results

* `Parse.spells_attempt` — only a failed attempt leaves a placeholder
* `Parse.exists_attempted` — a call gives what its attempts give
* `Parse.program_disciplined` — after any number of calls on one parser, the errors that a call
  returns are fatal, those it notes are not, and they pay for the placeholders of what it gives
-/

namespace Scriptlet

/-- An attempt to read a statement after which reading goes on. -/
inductive Attempt where
  | read (stmt : Stmt)
  | failed (error : ParseError)

/-- What stands for the statement in the program. -/
def Attempt.stmt : Attempt → Stmt
  | read stmt => stmt
  | failed _ => .placeholder

namespace Parse

variable {α β : Type} {start stop last : Parser} {attempts : List Attempt}

/-- Reads a function or a statement. -/
def attempt : Parse Stmt := do
  match ← accept .kwFunction with
  | some _ => function
  | none => statement

/-- Attempts that are made one behind the other, each in front of a token that is no end mark. -/
inductive Attempted : Parser → List Attempt → Parser → Prop
  | nil {parser : Parser} : Attempted parser [] parser
  | read {start middle stop : Parser} {stmt : Stmt} {attempts : List Attempt} :
    start.atEnd = false → attempt start = .ok stmt middle → Attempted middle attempts stop →
    Attempted start (.read stmt :: attempts) stop
  | failed {start middle stop : Parser} {error : ParseError} {attempts : List Attempt} :
    start.atEnd = false → attempt start = .error error middle → error.isFatal = false →
    Attempted { middle.report error with rest := skipTokens middle.rest } attempts stop →
    Attempted start (.failed error :: attempts) stop

/-- How a call ends whose attempts have come as far as a parser: with a result if an end mark is
next, and else with the fatal error of one more attempt. -/
inductive Ending (last : Parser) (result : α) : EStateM.Result ParseError Parser α → Prop
  | complete : last.atEnd = true → Ending last result (.ok result last)
  | fatal {error : ParseError} {stop : Parser} :
    last.atEnd = false → attempt last = .error error stop → error.isFatal = true →
    Ending last result (.error error stop)

/-- A declaration is an attempt that is recovered from. -/
theorem declaration_eq : declaration = recovering .placeholder attempt := rfl

/-! ## What is read is no placeholder -/

/-- A read that never gives a placeholder. -/
abbrev Spells : Parse Stmt → Prop := Gives (· ≠ .placeholder)

theorem spells_statementForm (statement declaration : Parse Stmt) :
    Spells (statementForm statement declaration) := by
  refine .after fun next => ?_
  split
  · refine .after fun keyword => .after fun last => ?_
    split
    · exact .after fun _ => gives_pure nofun
    · exact .after fun _ => .after fun _ => gives_pure nofun
  · exact .after fun _ => .after fun _ => .after fun _ => gives_pure nofun
  · exact .after fun _ => .after fun _ => gives_pure nofun
  · refine .after fun _ => .after fun _ => .after fun _ => .after fun _ => .after fun else? => ?_
    cases else? with
    | none => exact gives_pure nofun
    | some keyword => exact .after fun _ => gives_pure nofun
  · exact .after fun _ => .after fun _ => .after fun _ => .after fun _ => gives_pure nofun
  · refine absents_of_expression.bind fun value hvalue => .after fun _ => gives_pure ?_
    rintro ⟨⟩
    cases hvalue

theorem spells_functionForm (declaration : Parse Stmt) : Spells (functionForm declaration) :=
  .after fun _ => .after fun _ => .after fun _ => .after fun _ => .after fun _ => .after fun _ =>
    gives_pure nofun

theorem spells_within (levels : Nat) :
    Spells (statementWithin levels) ∧ Spells (functionWithin levels) := by
  cases levels with
  | zero => exact ⟨gives_fail _, gives_fail _⟩
  | succ levels =>
    exact ⟨(spells_statementForm _ _).nestedStatement, (spells_functionForm _).nestedStatement⟩

/-- **Only a failed attempt leaves a placeholder.** -/
theorem spells_attempt : Spells attempt := by
  refine .after fun keyword? => ?_
  cases keyword? with
  | some keyword => exact fun start _ _ hread => (spells_within _).2 hread
  | none => exact fun start _ _ hread => (spells_within _).1 hread

/-! ## One attempt behind the other -/

/-- A turn that reads a declaration calls for another. -/
theorem repeating_of_declaration {stmt : Stmt} (hend : start.atEnd = false)
    (h : declaration start = .ok stmt stop) (round : Token) (rounds : List Token)
    (done : Array Stmt) : repeating programTurn (round :: rounds) done start =
      repeating programTurn rounds (done.push stmt) stop := by
  have hturn : programTurn done start = .ok (.again (done.push stmt)) stop := by
    rw [programTurn_of_not_atEnd hend, bind_of_ok h]
    rfl
  rw [repeating, bind_of_ok hturn]
  rfl

/-- Turns that are enough make attempts until there is an end mark or a fatal error. -/
theorem exists_attempted_of_repeating {rounds : List Token} (hrounds : start.ahead < rounds.length)
    (done : Array Stmt) : ∃ attempts last, Attempted start attempts last ∧
      Ending last (done.toList ++ attempts.map Attempt.stmt).toArray
        (repeating programTurn rounds done start) := by
  induction rounds generalizing start done with
  | nil => exact absurd hrounds (Nat.not_lt_zero _)
  | cons round rounds ih =>
    rw [List.length_cons] at hrounds
    cases hend : start.atEnd with
    | true =>
      refine ⟨[], start, .nil, ?_⟩
      rw [repeating, bind_of_ok (programTurn_of_atEnd hend done), List.map_nil, List.append_nil]
      exact .complete hend
    | false =>
      -- Whatever stands for the statement, the turns behind it have fewer tokens in front of them.
      have hnext {stmt : Stmt} {middle : Parser}
          (h : recovering .placeholder attempt start = .ok stmt middle) :
          ∃ attempts last, Attempted middle attempts last ∧
            Ending last (done.toList ++ stmt :: attempts.map Attempt.stmt).toArray
              (repeating programTurn (round :: rounds) done start) := by
        rw [← declaration_eq] at h
        have hless := consumes_declaration hend h
        obtain ⟨attempts, last, hattempted, hending⟩ := @ih middle (by omega) (done.push stmt)
        rw [Array.toList_push, List.append_assoc] at hending
        rw [repeating_of_declaration hend h]
        exact ⟨attempts, last, hattempted, hending⟩
      cases hattempt : attempt start with
      | ok stmt middle =>
        obtain ⟨attempts, last, hattempted, hending⟩ := hnext (recovering_of_ok hattempt)
        exact ⟨.read stmt :: attempts, last, .read hend hattempt hattempted, hending⟩
      | error error middle =>
        cases hfatal : error.isFatal with
        | false =>
          obtain ⟨attempts, last, hattempted, hending⟩ := hnext (recovering_of_mild hattempt hfatal)
          exact ⟨.failed error :: attempts, last, .failed hend hattempt hfatal hattempted, hending⟩
        | true =>
          have hturn : programTurn done start = .error error middle := by
            rw [programTurn_of_not_atEnd hend, declaration_eq]
            exact bind_of_error (recovering_of_fatal hattempt hfatal)
          refine ⟨[], start, .nil, ?_⟩
          rw [repeating, bind_of_error hturn]
          exact .fatal hend hattempt hfatal

theorem Attempted.ne_placeholder (h : Attempted start attempts stop) {stmt : Stmt}
    (hmem : .read stmt ∈ attempts) : stmt ≠ .placeholder := by
  induction h with
  | nil => cases hmem
  | read _ hattempt _ ih =>
    rcases List.mem_cons.mp hmem with heq | hmem
    · cases heq
      exact spells_attempt hattempt
    · exact ih hmem
  | failed _ _ _ _ ih => exact ih ((List.mem_cons.mp hmem).resolve_left nofun)

theorem Ending.map {read : Parse α} {result : α} (h : Ending last result (read start))
    (change : α → β) : Ending last (change result) ((do return change (← read)) start) := by
  cases hread : read start with
  | ok given stop =>
    rw [hread] at h
    rw [bind_of_ok hread]
    cases h with
    | complete hend => exact .complete hend
  | error error stop =>
    rw [hread] at h
    rw [bind_of_error hread]
    cases h with
    | fatal hend hattempt hfatal => exact .fatal hend hattempt hfatal

/-- **A call gives what its attempts give.** -/
theorem exists_attempted (start : Parser) : ∃ attempts last, Attempted start attempts last ∧
    Ending last (attempts.map Attempt.stmt) (program start) := by
  obtain ⟨attempts, last, hattempted, hending⟩ :=
    exists_attempted_of_repeating (ahead_lt_rounds start) #[]
  refine ⟨attempts, last, hattempted, ?_⟩
  rw [program_eq]
  exact @Ending.map _ _ start last (repeated programTurn #[]) _ hending Array.toList

/-! ## One call after the other -/

/-- No call notes a fatal error. -/
theorem notes_afterCalls (start : Parser) (count : Nat) :
    start.Notes (afterCalls program start count) := by
  induction count with
  | zero => exact .of_eq rfl
  | succ count ih => exact ih.trans (accounts_program.notes _)

/-- **Errors are returned or noted, and the noted ones pay for the placeholders.** Whatever the
tokens are and however many calls went before on the same parser, no fatal error is among those
noted. A call notes some more, makes its attempts, and ends in front of an end mark or with a fatal
error. In the first case its program has the statements that were read, in order, with one
placeholder in the place of each that could not be read and nowhere else between them. It holds at
most as many absent literals as the call has noted errors, so no placeholder stands anywhere in a
program without errors. -/
theorem program_disciplined (tokens : List Token) (count : Nat) :
    let start := afterCalls program (.ofTokens tokens) count
    (∀ error ∈ start.diagnostics, error.isFatal = false) ∧
    ∃ noted attempts last,
      (stateAfter program start).diagnostics = start.diagnostics ++ noted ∧
      (∀ error ∈ noted, error.isFatal = false) ∧
      Attempted start attempts last ∧
      (∀ stmt, .read stmt ∈ attempts → stmt ≠ .placeholder) ∧
      Ending last (attempts.map Attempt.stmt) (program start) ∧
      (∀ statements stop, program start = .ok statements stop →
        Stmt.absentsAll statements ≤ noted.size ∧
        (noted = #[] → ∀ stmt ∈ statements, ¬ Stmt.placeholder.Within stmt)) ∧
      (∀ error stop, program start = .error error stop → error.isFatal = true) := by
  intro start
  obtain ⟨noted, hnoted, hmild⟩ := accounts_program.notes start
  obtain ⟨attempts, last, hattempted, hending⟩ := exists_attempted start
  refine ⟨?_, noted, attempts, last, hnoted, hmild, hattempted,
    fun _ => hattempted.ne_placeholder, hending, ?_, ?_⟩
  · obtain ⟨earlier, hearlier, hearlier_mild⟩ := notes_afterCalls (.ofTokens tokens) count
    intro error hmem
    refine hearlier_mild error ?_
    rw [show start.diagnostics = #[] ++ earlier from hearlier] at hmem
    simpa using hmem
  · intro statements stop hprogram
    have hpaid := accounts_program.paid hprogram
    rw [stateAfter, hprogram] at hnoted
    have hle : Stmt.absentsAll statements ≤ noted.size := by
      rw [show stop.diagnostics = start.diagnostics ++ noted from hnoted,
        Array.size_append] at hpaid
      omega
    refine ⟨hle, fun hempty stmt hstmt hwithin => ?_⟩
    have hpart := Nat.le_trans hwithin.absents_le (Stmt.absents_le_of_mem hstmt)
    rw [Stmt.absents_placeholder] at hpart
    rw [hempty, Array.size_empty] at hle
    omega
  · intro error stop hprogram
    exact isFatal_of_program hprogram

end Parse

end Scriptlet
