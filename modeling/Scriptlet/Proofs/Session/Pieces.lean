import Scriptlet.Proofs.Parser.Concatenation
import Scriptlet.Proofs.Session.Layout
import Scriptlet.Proofs.Session.Terminals
import Scriptlet.Proofs.Token.Seam

/-!
# A script can be run in pieces

A script is read as a whole before any of it runs, and its end is where everything written is made
sure to have arrived. If it is cut at a line break between two statements and run piece by piece, in
one session, it does the same: the second piece finds the names and functions that the first left
behind, at whatever places their declarations stand, and it is not run if the first one fails.

## Main results

* `Action.execTop_append`, `Action.interpret_append` — statements behind others
* `program_newline` — what is read from both pieces at once
* `Session.run_pieces` — a script run in pieces
-/

namespace Scriptlet

open Scriptlet.Action

/-! ## Statements behind others -/

namespace Action

theorem execTop_append (steps : Nat) (statements later : List Stmt) :
    execTop steps (statements ++ later) =
      (do execTop steps statements; execTop steps later) := by
  induction statements with
  | nil => rfl
  | cons stmt rest ih =>
    rw [List.cons_append, execTop, execTop, ih]
    simp only [bind_assoc]

/-- Nothing is lost or gained by making sure in between that everything written has arrived. -/
theorem interpret_append (steps : Nat) (statements later : List Stmt) {session : Session}
    (hflush : session.terminal.flushes = true) :
    interpret steps (statements ++ later) session =
      (do interpret steps statements; interpret steps later : Action Unit) session := by
  have hlast := Terminal.lasting_flushes.execTop steps statements hflush
  unfold interpret
  rw [execTop_append]
  simp only [bind_assoc]
  cases hfirst : execTop steps statements session with
  | error stop after => rw [bind_of_error hfirst, bind_of_error hfirst]
  | ok result after =>
    rw [stateAfter, hfirst] at hlast
    have hflushed : onTerminal .unknown Terminal.flush after = .ok () after := by
      rw [onTerminal, Terminal.flush_of_flushes hlast]
    rw [bind_of_ok hfirst, bind_of_ok hfirst, bind_of_ok hflushed]

end Action

/-! ## Reading both pieces -/

theorem tokenize_eq_ok {source : String} {tokens : List Token} (h : tokenize source = .ok tokens) :
    lex source = ⟨tokens, none⟩ := by
  unfold tokenize at h
  split at h
  · next hlex =>
    cases h
    exact hlex
  · cases h

theorem program_of_reading {tokens : List Token} {statements : List Stmt}
    (h : (reading tokens).1 = .ok statements) :
    ∃ stop, Parse.program (.ofTokens tokens) = .ok statements stop := by
  unfold reading at h
  split at h
  · next stop hread =>
    cases h
    exact ⟨stop, hread⟩
  · cases h

/-- An end mark does not change what is read. -/
theorem Yields.of_endMark {tokens : List Token} {statements : List Stmt} {place : Location}
    (hends : ∀ token ∈ tokens, token.kind ≠ .endOfInput)
    (h : Yields (tokens ++ [.endMark place]) statements) : Yields tokens statements := by
  obtain ⟨openings, hprogram, hallow⟩ := h.exists_allow hends rfl
  have hread := (@yields_iff_allow tokens [] statements openings hprogram rfl).mpr hallow
  rwa [List.append_nil] at hread

theorem map_unplaced_down (lines : Nat) (tokens : List Token) :
    (tokens.map (Token.down lines)).map Token.unplaced = tokens.map Token.unplaced := by
  rw [List.map_map]
  rfl

/-- **Both pieces at once are read as the statements of the first and behind them those of the
second**, which stand at other places than if the second is read alone. -/
theorem program_newline {first second : String} {tokens others : List Token}
    {statements later : List Stmt} (hfirst : tokenize first = .ok tokens)
    (hread : reading tokens = (.ok statements, #[]))
    (hlast : ∀ token ∈ (beforeEnd tokens).getLast?,
      token.kind = .semicolon ∨ token.kind = .rightBrace)
    (hsecond : tokenize second = .ok others) (helse : ∀ token ∈ others.head?, token.kind ≠ .kwElse)
    (hlater : (reading others).1 = .ok later) :
    ∃ joined moved stop stop', tokenize (first ++ "\n" ++ second) = .ok joined ∧
      Parse.program (.ofTokens others) = .ok later stop ∧
      Parse.program (.ofTokens joined) = .ok (statements ++ moved) stop' ∧
      moved.map (Stmt.relabel Token.unplaced) = later.map (Stmt.relabel Token.unplaced) ∧
      stop'.unplaced = stop.unplaced := by
  have hlexed := tokenize_eq_ok hsecond
  obtain ⟨front, hends, hfront, hjoined⟩ := exists_lex_newline (congrArg Lexed.error?
    (tokenize_eq_ok hfirst))
  obtain ⟨_, _, hothers, _⟩ := exists_lex_newline (congrArg Lexed.error? hlexed)
  obtain rfl : tokens = front ++ [.endMark (.behind first.toList)] :=
    congrArg Lexed.tokens ((tokenize_eq_ok hfirst).symm.trans hfront)
  have hne : others ≠ [] := by
    rw [show others = _ from congrArg Lexed.tokens (hlexed.symm.trans hothers)]
    exact List.append_ne_nil_of_right_ne_nil _ (List.cons_ne_nil _ _)
  generalize 1 + first.toList.count '\n' = lines at hjoined
  have htokenize : tokenize (first ++ "\n" ++ second) =
      .ok (front ++ others.map (Token.down lines)) := by
    rw [tokenize, hjoined, hlexed]
    rfl
  have hfinished (hfront : front ≠ []) : Grammar.Finished front := by
    rw [beforeEnd_append hends rfl] at hlast
    exact ⟨front.getLast hfront, List.getLast?_eq_some_getLast hfront,
      hlast _ (List.getLast?_eq_some_getLast hfront)⟩
  have hahead : kindAhead (others.map (Token.down lines)) .endOfInput ≠ .kwElse := by
    obtain ⟨token, rest, rfl⟩ := List.exists_cons_of_ne_nil hne
    exact helse token rfl
  have hboth := program_append hends (.of_endMark hends (yields_of_reading hread)) hfinished
    (mt List.map_eq_nil_iff.mp hne) hahead
  obtain ⟨stop, halone⟩ := program_of_reading hlater
  have hparser : (Parser.ofTokens (others.map (Token.down lines))).unplaced =
      (Parser.ofTokens others).unplaced := by
    rw [Parser.ofTokens_unplaced, Parser.ofTokens_unplaced, map_unplaced_down]
  rcases Parse.program_alike hparser with ⟨_, _, _, _, _, herror, _, _⟩ |
    ⟨moved, _, stop', _, hmoved, hsame, hstatements, hstop⟩
  · cases halone.symm.trans herror
  · cases halone.symm.trans hsame
    exact ⟨_, moved, stop, stop', htokenize, halone, hboth.trans (bind_of_ok hmoved), hstatements,
      hstop⟩

namespace Session

/-- **A script can be run in pieces.** Let two scripts be made of tokens, the first be read without
an error and end with a semicolon or a closing brace, and the second not start with an `else` and
be read without a fatal error. Both at once, with a line break between them, are then run like the
first and, if it did not fail, the second behind it. If the first fails, both at once fail with the
same error and leave the same session behind. -/
theorem run_pieces (steps : Nat) {first second : String} {tokens others : List Token}
    {statements later : List Stmt} {session : Session} (hfirst : tokenize first = .ok tokens)
    (hread : reading tokens = (.ok statements, #[]))
    (hlast : ∀ token ∈ (beforeEnd tokens).getLast?,
      token.kind = .semicolon ∨ token.kind = .rightBrace)
    (hsecond : tokenize second = .ok others) (helse : ∀ token ∈ others.head?, token.kind ≠ .kwElse)
    (hlater : (reading others).1 = .ok later) (hflush : session.terminal.flushes = true) :
    SameRun (run steps (first ++ "\n" ++ second) session)
        ((do let _ ← run steps first; run steps second) session) ∧
      ∀ error after, run steps first session = .error error after →
        run steps (first ++ "\n" ++ second) session = .error error after := by
  obtain ⟨joined, moved, stop, stop', hjoined, halone, hboth, hmoved, hstop⟩ :=
    program_newline hfirst hread hlast hsecond helse hlater
  obtain ⟨quiet, hprogram, hquiet⟩ := yields_of_reading hread
  have hsource := Parser.ofSource_of_ok hfirst
  have hsource' := Parser.ofSource_of_ok hsecond
  have hsourceBoth := Parser.ofSource_of_ok hjoined
  have hinterpret := interpret_append steps statements moved hflush
  cases hbegun : interpret steps statements session with
  | error reason after =>
    rw [bind_of_error hbegun] at hinterpret
    have hrun := run_of_stop hsource hprogram hbegun
    have hrunBoth := run_of_stop hsourceBoth hboth hinterpret
    rw [hrunBoth, bind_of_error hrun, hrun]
    exact ⟨.error rfl (.refl after), fun _ _ h => h⟩
  | ok result middle =>
    rw [bind_of_ok hbegun] at hinterpret
    have hrun := run_of_ok hsource hprogram hbegun
    rw [bind_of_ok hrun, hrun]
    refine ⟨?_, fun _ _ h => by cases h⟩
    have halike := interpret_alike steps hmoved (.refl middle)
    generalize hend : interpret steps moved middle = outcome,
      hend' : interpret steps later middle = outcome' at halike
    rw [hend] at hinterpret
    cases halike with
    | ok hafter _ =>
      rw [run_of_ok hsourceBoth hboth hinterpret, run_of_ok hsource' halone hend']
      exact .ok (diagnostics_alike hstop) ((Alike.refl middle).later hafter)
    | error hafter hstops =>
      rw [run_of_stop hsourceBoth hboth hinterpret, run_of_stop hsource' halone hend']
      exact .error (congrArg RunError.stop hstops) ((Alike.refl middle).later hafter)
    | excused hexcused => exact hexcused.elim

end Session

namespace Sample

/-- A script that ends in a comment without a line break. -/
def opening : String := "function f() \x7b return x; \x7d x = 3; // f"

/-- A script that goes on with what the other leaves behind, and fails. -/
def closing : String := "print f()\nx / 0"

/-- A session in which nothing was run. -/
def fresh : Session := .start (.captured {}) {}

theorem exists_reading {tokens : List Token} (h : (reading tokens).1.isOk = true) :
    ∃ statements, reading tokens = (.ok statements, (reading tokens).2) := by
  generalize reading tokens = result at h
  obtain ⟨_ | statements, noted⟩ := result
  · cases h
  · exact ⟨statements, rfl⟩

/-- Run at once, the two scripts fail on another line than if they are run in pieces. -/
theorem closing_behind_opening :
    Session.RunResult.answer (Session.run 20 (opening ++ "\n" ++ closing) fresh) =
        .error (.stop (.fault ⟨.divisionByZero, ⟨3, 3⟩⟩)) ∧
      Session.RunResult.answer ((do let _ ← Session.run 20 opening; Session.run 20 closing) fresh) =
        .error (.stop (.fault ⟨.divisionByZero, ⟨2, 3⟩⟩)) ∧
      Session.SameRun (Session.run 20 (opening ++ "\n" ++ closing) fresh)
        ((do let _ ← Session.run 20 opening; Session.run 20 closing) fresh) := by
  obtain ⟨statements, hread⟩ := @exists_reading (lex opening).tokens (by decide +kernel)
  obtain ⟨later, hlater⟩ := @exists_reading (lex closing).tokens (by decide +kernel)
  rw [show (reading (lex opening).tokens).2 = #[] by decide +kernel] at hread
  refine ⟨by decide +kernel, by decide +kernel, ?_⟩
  exact (Session.run_pieces 20 (by decide +kernel) hread (by decide +kernel) (by decide +kernel)
    (by decide +kernel) (congrArg Prod.fst hlater) rfl).1

end Sample

end Scriptlet
