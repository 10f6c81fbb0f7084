import Scriptlet.Proofs.Grammar.Seam
import Scriptlet.Proofs.Parser.Repetition

/-!
# One program behind another

Statements need no semicolon between them, and reading takes as much for one statement as it can, so
the tokens of two programs one behind the other may be read as something else. Not so if the first
ends with a semicolon or a closing brace and the second does not start with an `else`: then what is
read is the first program and behind it whatever the second alone is read as, spoiled statements and
fatal errors included.

## Main definitions

* `reading` — what tokens are read as: statements or a fatal error, and the errors that were noted

## Main results

* `Parse.repeating_sequence` — declarations of the grammar are read in front of anything
* `reading_append` — one program behind another
-/

namespace Scriptlet

open Grammar

/-- What tokens are read as a program, and the errors that are noted on the way. -/
def reading (tokens : List Token) : Except ParseError (List Stmt) × Array ParseError :=
  match Parse.program (.ofTokens tokens) with
  | .ok statements stop => (.ok statements, stop.diagnostics)
  | .error error stop => (.error error, stop.diagnostics)

theorem yields_of_reading {tokens : List Token} {statements : List Stmt}
    (h : reading tokens = (.ok statements, #[])) : Yields tokens statements := by
  unfold reading at h
  split at h
  · rename_i statements stop hread
    obtain ⟨hstatements, hnoted⟩ := Prod.mk.inj h
    cases hstatements
    exact ⟨stop, hread, hnoted⟩
  · cases h

namespace Parse

/-! ## Declarations in front of others -/

theorem programTurn_of_ok {start stop : Parser} {stmt : Stmt}
    (hkind : start.current.kind ≠ .endOfInput) (h : declaration start = .ok stmt stop)
    (done : Array Stmt) : programTurn done start = .ok (.again (done.push stmt)) stop := by
  rw [programTurn_of_not_atEnd (decide_eq_false hkind), bind_of_ok h]
  rfl

/-- Declarations of the grammar are read one by one, whatever is read behind them. -/
theorem repeating_sequence {parser : Parser} {tokens rest : List Token} {next : TokenKind}
    {trees : List Stmt} {openings : List Opening}
    (h : Sequence Declaration tokens next trees openings) (hallow : parser.limits.Allow openings)
    (hnext : kindAhead rest .endOfInput = next) {rounds others : List Token}
    (hrounds : (parser.facing (tokens ++ rest)).ahead < rounds.length)
    (hothers : (parser.facing rest).ahead < others.length) (done : Array Stmt) :
    repeating programTurn rounds done (parser.facing (tokens ++ rest)) =
      repeating programTurn others (done ++ trees.toArray) (parser.facing rest) := by
  induction h generalizing rounds done with
  | stop =>
    rw [Array.append_empty]
    exact steady_programTurn.repeating_eq hrounds hothers done
  | @step tokens later next tree trees openings added first others ih =>
    obtain ⟨hfirst, hlater⟩ := Limits.allow_append.mp hallow
    have hread : declaration (parser.facing (tokens ++ (later ++ rest))) =
        .ok tree (parser.facing (later ++ rest)) := by
      have hsettles := settles_declaration first parser (later ++ rest)
        (by rw [kindAhead_append, hnext])
      rwa [Limits.firstError_eq_none_iff.mpr hfirst, settles_none] at hsettles
    have hkind : (parser.facing (tokens ++ (later ++ rest))).current.kind ≠ .endOfInput := by
      intro hend
      have hstarts := Declaration.starts.ahead first (kindAhead (later ++ rest) .endOfInput)
      rw [← kindAhead_append, ← Parser.current_kind_facing, hend] at hstarts
      exact absurd hstarts (by decide)
    obtain ⟨round, rounds, rfl⟩ := List.exists_cons_of_length_pos (Nat.zero_lt_of_lt hrounds)
    have hturn := programTurn_of_ok hkind hread done
    have hless := steady_programTurn hturn
    rw [List.append_assoc] at hrounds ⊢
    rw [List.length_cons] at hrounds
    rw [repeating, bind_of_ok hturn, goOn, ih hlater hnext (by omega) (done.push tree)]
    simp

/-- Declarations that were read before stay in front of those read later. -/
theorem repeating_append (rounds : List Token) (done more : Array Stmt) :
    repeating programTurn rounds (done ++ more) =
      (do return done ++ (← repeating programTurn rounds more)) := by
  induction rounds generalizing more with
  | nil => rfl
  | cons round rounds ih =>
    simp only [repeating, programTurn, declarationTurn, bind_assoc]
    congr 1
    funext next
    by_cases hkind : next.kind = .endOfInput
    · simp only [hkind, if_true]
      rfl
    · simp only [hkind, if_false, bind_assoc, pure_bind, goOn, ← ih, Array.append_push]

end Parse

/-! ## Programs -/

theorem rest_ofTokens_append {second : List Token} (h : second ≠ []) (first : List Token) :
    Parser.ofTokens (first ++ second) =
      (Parser.ofTokens second).facing (first ++ (Parser.ofTokens second).rest) := by
  have hlast : (first ++ second).getLast? = second.getLast? :=
    List.getLast?_append_of_ne_nil _ h
  unfold Parser.ofTokens
  rw [hlast]
  split
  · rename_i hnone
    exact absurd (List.getLast?_eq_none_iff.mp hnone) h
  · split
    · rfl
    · simp [Parser.facing]

/-- A finished program is read in front of another, and the rest is read as the other alone. -/
theorem program_append {first second : List Token} {statements : List Stmt}
    (hends : ∀ token ∈ first, token.kind ≠ .endOfInput) (h : Yields first statements)
    (hfinished : first ≠ [] → Finished first) (hsecond : second ≠ [])
    (helse : kindAhead second .endOfInput ≠ .kwElse) :
    Parse.program (.ofTokens (first ++ second)) =
      (do return statements ++ (← Parse.program) : Parse (List Stmt)) (.ofTokens second) := by
  rw [← List.append_nil first] at h
  obtain ⟨openings, hprogram, hallow⟩ := h.exists_allow hends rfl
  obtain ⟨added, hadded, _⟩ := rest_ofTokens second
  have hnext : kindAhead (Parser.ofTokens second).rest .endOfInput ≠ .kwElse := by
    obtain ⟨token, rest, rfl⟩ := List.exists_cons_of_ne_nil hsecond
    rw [hadded]
    exact helse
  have hsequence := Sequence.detached hprogram hfinished hnext
  have hread := @Parse.repeating_sequence (.ofTokens second) _ _ _ _ _ hsequence hallow rfl _ _
    (Parse.ahead_lt_rounds _) (Parse.ahead_lt_rounds _) #[]
  rw [Array.empty_append, ← @Array.append_empty _ statements.toArray,
    Parse.repeating_append] at hread
  rw [rest_ofTokens_append hsecond, Parse.program_eq, bind_assoc]
  cases halone : Parse.repeated Parse.programTurn #[] (.ofTokens second) with
  | ok body stop =>
    have hboth : Parse.repeated Parse.programTurn #[]
        ((Parser.ofTokens second).facing (first ++ (Parser.ofTokens second).rest)) =
          .ok (statements.toArray ++ body) stop := hread.trans (bind_of_ok halone)
    rw [bind_of_ok hboth, bind_of_ok halone, pure_bind]
    show EStateM.Result.ok (statements.toArray ++ body).toList stop =
      .ok (statements ++ body.toList) stop
    rw [Array.toList_append]
  | error error stop =>
    have hboth : Parse.repeated Parse.programTurn #[]
        ((Parser.ofTokens second).facing (first ++ (Parser.ofTokens second).rest)) =
          .error error stop := hread.trans (bind_of_error halone)
    rw [bind_of_error hboth, bind_of_error halone]

/-- **One program behind another.** If a program is read without an error and its last token is a
semicolon or a closing brace, then tokens behind it that do not start with an `else` are read as
they are alone: their statements come behind those of the first program, the errors that are noted
are theirs, and reading fails if and only if it does so for them, with the same error. -/
theorem reading_append {first second : List Token} {statements : List Stmt}
    (hends : ∀ token ∈ first, token.kind ≠ .endOfInput)
    (h : reading first = (.ok statements, #[]))
    (hlast : ∀ token ∈ first.getLast?, token.kind = .semicolon ∨ token.kind = .rightBrace)
    (helse : ∀ token ∈ second.head?, token.kind ≠ .kwElse) :
    (∀ others, (reading second).1 = .ok others →
      (reading (first ++ second)).1 = .ok (statements ++ others)) ∧
    (∀ error, (reading (first ++ second)).1 = .error error ↔ (reading second).1 = .error error) ∧
    (reading (first ++ second)).2 = (reading second).2 := by
  cases second with
  | nil =>
    have hnone : reading [] = (.ok [], #[]) := rfl
    rw [List.append_nil, h, hnone]
    simp
  | cons token rest =>
    have hfinished (hne : first ≠ []) : Finished first :=
      ⟨first.getLast hne, List.getLast?_eq_some_getLast hne,
        hlast _ (List.getLast?_eq_some_getLast hne)⟩
    have hread := program_append hends (yields_of_reading h) hfinished (List.cons_ne_nil token rest)
      (helse token rfl)
    unfold reading
    rw [hread]
    cases halone : Parse.program (.ofTokens (token :: rest)) with
    | ok others stop =>
      rw [bind_of_ok halone]
      refine ⟨?_, ?_, rfl⟩
      · rintro _ ⟨⟩
        rfl
      · simp [pure, EStateM.pure]
    | error error stop =>
      rw [bind_of_error halone]
      simp

namespace Sample

/-- A token of the sample, in a column of its only line. -/
def word (kind : TokenKind) (lexeme : String) (column : Nat) : Token := ⟨kind, lexeme, ⟨1, column⟩⟩

/-- `if a then { b }` -/
def guarded : List Token :=
  [word .kwIf "if" 1, word .identifier "a" 4, word .kwThen "then" 6, word .leftBrace "\x7b" 11,
    word .identifier "b" 13, word .rightBrace "\x7d" 15]

/-- `- c )`, which would go on with the expression in front of it, and is spoiled at its end. -/
def spoiled : List Token :=
  [word .minus "-" 17, word .identifier "c" 19, word .rightParen ")" 21]

/-- What `guarded` is read as. -/
def guardedStatements : List Stmt :=
  [.branch (.var (word .identifier "a" 4)) (.block [.expression (.var (word .identifier "b" 13))])
    none]

/-- What `spoiled` is read as. -/
def spoiledStatements : List Stmt :=
  [.expression (.unary (word .minus "-" 17) (.var (word .identifier "c" 19))), .placeholder]

/-- The statement and the error of the second program stand behind the first. -/
theorem reading_guarded_append : reading guarded = (.ok guardedStatements, #[]) ∧
    (reading (guarded ++ spoiled)).1 = .ok (guardedStatements ++ spoiledStatements) ∧
    (reading (guarded ++ spoiled)).2 = #[⟨.noExpression, word .rightParen ")" 21⟩] := by
  have hguarded : reading guarded = (.ok guardedStatements, #[]) := rfl
  have hspoiled : reading spoiled =
      (.ok spoiledStatements, #[⟨.noExpression, word .rightParen ")" 21⟩]) := rfl
  obtain ⟨hstatements, _, hnoted⟩ :=
    @reading_append guarded spoiled _ (by decide) hguarded (by decide) (by decide)
  exact ⟨hguarded, hstatements _ (by rw [hspoiled]), by rw [hnoted, hspoiled]⟩

end Sample

end Scriptlet
