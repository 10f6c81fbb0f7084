import Scriptlet.Proofs.Parser.Counting

/-!
# Reading does not look at places

A token knows its place, and errors and trees keep the tokens they come from. Nothing that reading
does depends on a place: two scripts with the same tokens at other places are read alike, into trees
and errors that are the same but for the places of their tokens.

To say so, places are erased. Reads over the moves on parsers, of tokens without places, do what the
reads do, with the places erased from what they give. So what two scripts have in common once their
places are erased decides what their trees and errors have in common.

## Main definitions

* `ParseError.unplaced`, `Parser.unplaced` — with every place erased
* `Parse.erasure`, `Parse.erased` — parsers without places stand for those from which they come,
  and the outcome of reading a program without its places

## Main results

* `Parse.erasure_lawful` — the moves on parsers do not look at places
* `Parse.program_alike` — neither does reading a program
-/

namespace Scriptlet

/-- The error, at no place in particular. -/
def ParseError.unplaced (error : ParseError) : ParseError := ⟨error.cause, error.token.unplaced⟩

namespace Parser

/-- The parser with the places of all tokens erased. -/
def unplaced (parser : Parser) : Parser :=
  { parser with
    rest := parser.rest.map Token.unplaced
    diagnostics := parser.diagnostics.map ParseError.unplaced }

@[simp] theorem current_unplaced (parser : Parser) :
    parser.unplaced.current = parser.current.unplaced := by
  obtain ⟨rest, diagnostics, depth, statements⟩ := parser
  cases rest with
  | nil => rfl
  | cons token rest => rfl

@[simp] theorem atEnd_unplaced (parser : Parser) : parser.unplaced.atEnd = parser.atEnd := by
  rw [atEnd, atEnd, current_unplaced]
  rfl

@[simp] theorem advanced_unplaced (parser : Parser) :
    parser.unplaced.advanced = parser.advanced.unplaced := by
  rw [advanced, advanced, atEnd_unplaced]
  by_cases hend : parser.atEnd = true
  · rw [if_pos hend, if_pos hend]
  · rw [if_neg hend, if_neg hend]
    simp [unplaced, List.map_tail]

@[simp] theorem report_unplaced (parser : Parser) (error : ParseError) :
    parser.unplaced.report error.unplaced = (parser.report error).unplaced := by
  simp [unplaced, report]

@[simp] theorem ahead_unplaced (parser : Parser) : parser.unplaced.ahead = parser.ahead := by
  show (beforeEnd (parser.rest.map Token.unplaced)).length = (beforeEnd parser.rest).length
  rw [beforeEnd, List.takeWhile_map, List.length_map]
  rfl

end Parser

namespace Parse

theorem skipTokens_map_unplaced (tokens : List Token) :
    skipTokens (tokens.map Token.unplaced) = (skipTokens tokens).map Token.unplaced := by
  fun_induction skipTokens tokens with
  | case1 => rfl
  | case2 token rest hend => simp [skipTokens, hend]
  | case3 token rest hend hsemicolon => simp [skipTokens, hsemicolon]
  | case4 token hend hsemicolon next rest hstarts =>
    simp [skipTokens, hend, hsemicolon, hstarts]
  | case5 token hend hsemicolon next rest hstarts ih =>
    rw [List.map_cons] at ih
    rw [List.map_cons, List.map_cons, skipTokens_cons_cons (by simpa using hend)]
    simp [hsemicolon, hstarts, ih]
  | case6 token hend hsemicolon => simp [skipTokens, hend, hsemicolon]

/-! ## The simulation -/

/-- A parser without places stands for each parser from which it comes. -/
def erasure : Simulation Parser ParseError where
  token := Token.unplaced
  State parser erased := erased = parser.unplaced
  error := ParseError.unplaced

section Simulation

variable {α β : Type} {depth statements : Nat} {change : α → β}
variable {read : Parse α} {other : Parse β}

theorem erases_acceptAny (kinds : List TokenKind) :
    erasure.Simulates depth statements (Option.map Token.unplaced) (acceptIf kinds.contains)
      (machine.acceptAny kinds) := by
  rintro parser _ ⟨rfl, hdepth, hstatements⟩
  show erasure.Matches _ _ _ (ite _ _ _) (ite _ _ _)
  rw [Parser.atEnd_unplaced, Parser.current_unplaced, Token.kind_unplaced]
  split
  · have hreaches := parser.reaches_advanced
    rw [Parser.advanced_unplaced]
    exact .ok ⟨rfl, hreaches.depth.trans hdepth, hreaches.statementDepth.trans hstatements⟩
  · exact .ok ⟨rfl, hdepth, hstatements⟩

theorem erases_fail (cause : ParseCause) :
    erasure.Simulates depth statements change (fail cause) (machine.fail cause) := by
  rintro parser _ ⟨rfl, hdepth, hstatements⟩
  show erasure.Matches _ _ _ _ (.error ⟨cause, parser.unplaced.current⟩ _)
  rw [Parser.current_unplaced]
  exact .error ⟨rfl, hdepth, hstatements⟩

theorem erases_report (error : ParseError) :
    erasure.Simulates depth statements id (report error) (report (erasure.error error)) := by
  rintro parser _ ⟨rfl, hdepth, hstatements⟩
  show erasure.Matches _ _ _ _ (.ok () (parser.unplaced.report error.unplaced))
  rw [Parser.report_unplaced]
  exact .ok ⟨rfl, hdepth, hstatements⟩

theorem erases_synchronize :
    erasure.Simulates depth statements id synchronize synchronize := by
  rintro parser _ ⟨rfl, hdepth, hstatements⟩
  show erasure.Matches _ _ _ _
    (.ok () { parser.unplaced with rest := skipTokens (parser.rest.map Token.unplaced) })
  rw [skipTokens_map_unplaced]
  exact .ok ⟨rfl, hdepth, hstatements⟩

theorem counts_agree_erasure : Parser.counts.Agree erasure where
  depth := by
    rintro parser _ rfl
    rfl
  statementDepth := by
    rintro parser _ rfl
    rfl
  changeDepth := by
    rintro parser _ rfl change
    rfl
  changeStatementDepth := by
    rintro parser _ rfl change
    rfl

/-- **No move on parsers looks at a place.** -/
theorem erasure_lawful (outer : Nat) : erasure.Lawful machine outer where
  kind _ := rfl
  lexeme _ := rfl
  peek := by
    rintro depth statements parser _ ⟨rfl, hdepth, hstatements⟩
    show erasure.Matches _ _ _ _ (.ok parser.unplaced.current _)
    rw [Parser.current_unplaced]
    exact .ok ⟨rfl, hdepth, hstatements⟩
  advance := by
    rintro depth statements parser _ ⟨rfl, hdepth, hstatements⟩ _
    have hreaches := parser.reaches_advanced
    show erasure.Matches _ _ _ _ (.ok parser.unplaced.current parser.unplaced.advanced)
    rw [Parser.current_unplaced, Parser.advanced_unplaced]
    exact .ok ⟨rfl, hreaches.depth.trans hdepth, hreaches.statementDepth.trans hstatements⟩
  acceptAny := erases_acceptAny
  fail _ := erases_fail
  report := erases_report
  nested := simulates_nested counts_agree_erasure
  nested_full _ _ hfull := simulates_nested_full counts_agree_erasure hfull (erases_fail _)
  nestedStatement := simulates_nestedStatement counts_agree_erasure
  nestedStatement_full _ _ hfull :=
    simulates_nestedStatement_full counts_agree_erasure hfull (erases_fail _)
  recovering substitute _ :=
    simulates_recovering (fun _ => rfl) erases_report erases_synchronize substitute
  rounds := by
    rintro depth statements parser _ ⟨rfl, _, _⟩
    show parser.ahead < parser.unplaced.ahead + 1
    rw [Parser.ahead_unplaced]
    exact Nat.lt_succ_self _

end Simulation

/-! ## Programs -/

/-- The outcome of reading a program, with every place erased. -/
def erased : EStateM.Result ParseError Parser (List Stmt) →
    EStateM.Result ParseError Parser (List Stmt)
  | .ok statements stop => .ok (statements.map (Stmt.relabel Token.unplaced)) stop.unplaced
  | .error error stop => .error error.unplaced stop.unplaced

theorem machine_program (parser : Parser) :
    machine.program parser.unplaced = erased (program parser) := by
  have hread : erasure.Matches parser.depth parser.statementDepth
      (List.map (Stmt.relabel Token.unplaced)) (program parser) (machine.program parser.unplaced) :=
    (erasure_lawful parser.depth).program ⟨rfl, rfl, rfl⟩
  generalize program parser = outcome, machine.program parser.unplaced = answer at hread ⊢
  cases hread with
  | ok hafter => rw [hafter.stands]; rfl
  | error hafter => rw [hafter.stands]; rfl

/-- **Reading a program does not look at places.** Parsers that are the same up to places end with
errors or with trees that are. -/
theorem program_alike {parser parser' : Parser} (h : parser.unplaced = parser'.unplaced) :
    (∃ error error' stop stop', program parser = .error error stop ∧
        program parser' = .error error' stop' ∧ error.unplaced = error'.unplaced ∧
        stop.unplaced = stop'.unplaced) ∨
      ∃ statements statements' stop stop', program parser = .ok statements stop ∧
        program parser' = .ok statements' stop' ∧
        statements.map (Stmt.relabel Token.unplaced) =
          statements'.map (Stmt.relabel Token.unplaced) ∧
        stop.unplaced = stop'.unplaced := by
  have hsame : erased (program parser) = erased (program parser') := by
    rw [← machine_program, ← machine_program, h]
  cases hread : program parser with
  | error error stop =>
    cases hread' : program parser' with
    | error error' stop' =>
      rw [hread, hread'] at hsame
      exact .inl ⟨error, error', stop, stop', rfl, rfl, EStateM.Result.error.inj hsame⟩
    | ok statements' stop' =>
      rw [hread, hread'] at hsame
      cases hsame
  | ok statements stop =>
    cases hread' : program parser' with
    | error error' stop' =>
      rw [hread, hread'] at hsame
      cases hsame
    | ok statements' stop' =>
      rw [hread, hread'] at hsame
      exact .inr ⟨statements, statements', stop, stop', rfl, rfl, EStateM.Result.ok.inj hsame⟩

end Parse

theorem Parser.ofTokens_unplaced (tokens : List Token) :
    (ofTokens tokens).unplaced = ofTokens (tokens.map Token.unplaced) := by
  rw [ofTokens, ofTokens, List.getLast?_map]
  cases tokens.getLast? with
  | none => simp [unplaced, Token.unplaced, Token.endMark]
  | some last =>
    show Parser.unplaced ⟨ite (last.kind = .endOfInput) _ _, _, _, _⟩ =
      ⟨ite (last.kind = .endOfInput) _ _, _, _, _⟩
    split
    · simp [unplaced]
    · simp [unplaced, Token.unplaced, Token.endMark]

end Scriptlet
