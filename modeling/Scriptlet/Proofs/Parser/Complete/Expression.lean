import Scriptlet.Proofs.Grammar.Limits
import Scriptlet.Proofs.Parser.Dispatch
import Scriptlet.Proofs.Parser.Forward

/-!
# Every expression of the grammar is read

A read is given a phrase of the grammar and whatever stands behind it. If a level is left for each
of the phrase's openings, the read gives the phrase's tree and stops behind its last token;
otherwise it fails at the first opening for which there is none. No error is noted in either case.

The proofs follow the forms: each says that a form is read if the phrases inside it are, and the
levels are put together by induction on the nesting of the phrase. A repetition is an induction on
the repetition in the grammar. Only the number of rounds has to be watched, which is larger than
the number of tokens that are left.

## Main definitions

* `Parse.Settles` — a read comes to an error or a tree
* `Parse.Follows` — a read takes the phrases of a form for what they are

## Main results

* `Parse.follows_chain`, `follows_call`, `follows_assignment`, … — one result for each form
* `Parse.follows_expression` — expressions are read
-/

namespace Scriptlet

/-! ## What a read comes to -/

namespace Parse

open Grammar

variable {α β : Type}

/-- A read fails with the error, if there is one, and else gives the tree and stops where it
should. -/
def Settles (result : EStateM.Result ParseError Parser α) (error? : Option ParseError) (tree : α)
    (stop : Parser) : Prop :=
  match error? with
  | some error => ∃ stopped, result = .error error stopped
  | none => result = .ok tree stop

theorem settles_none {result : EStateM.Result ParseError Parser α} {tree : α} {stop : Parser} :
    Settles result none tree stop ↔ result = .ok tree stop := Iff.rfl

theorem Settles.bind {read : Parse α} {next : α → Parse β} {start middle stop : Parser}
    {first second : Option ParseError} {tree : α} {result : β}
    (h : Settles (read start) first tree middle)
    (hnext : Settles (next tree middle) second result stop) :
    Settles ((read >>= next) start) (first.or second) result stop := by
  cases first with
  | none =>
    rw [bind_of_ok h]
    exact hnext
  | some error =>
    obtain ⟨stopped, hstopped⟩ := h
    exact ⟨stopped, bind_of_error hstopped⟩

/-- A second read that cannot fail. -/
theorem Settles.bind_ok {read : Parse α} {next : α → Parse β} {start middle stop : Parser}
    {error? : Option ParseError} {tree : α} {result : β}
    (h : Settles (read start) error? tree middle) (hnext : next tree middle = .ok result stop) :
    Settles ((read >>= next) start) error? result stop := by
  have hbind := h.bind (settles_none.mpr hnext)
  rwa [Option.or_none] at hbind

/-- The phrases are read: with the limits that are left and some expressions open, reading a
phrase fails at the first opening that exceeds the limits, and else gives its tree and stops
behind it. -/
def Follows (read : Parse α) (phrase : Phrase α) (limits : Limits) (depth : Nat) : Prop :=
  ∀ ⦃tokens next tree openings⦄, phrase tokens next tree openings →
    ∀ (parser : Parser) (rest : List Token), parser.depth = depth →
      kindAhead rest .endOfInput = next →
        Settles (read (parser.facing (tokens ++ rest))) (limits.firstError openings) tree
          (parser.facing rest)

/-! ## Lists -/

section Lists

variable {limits : Limits} {depth : Nat}

theorem settles_entriesFrom {entry : Parse α} {phrase : Phrase α}
    (hentry : Follows entry phrase limits depth) (tooMany : ParseCause) {tokens : List Token}
    {next : TokenKind} {trees : List α} {openings : List Opening}
    (h : Separated phrase tokens next trees openings) (parser : Parser) (rest : List Token)
    (hdepth : parser.depth = depth) (hnext : kindAhead rest .endOfInput = next)
    (rounds : List Token) (hrounds : (tokens ++ rest).length < rounds.length) (done : Array α)
    (hcount : done.size + trees.length ≤ maxEntries) :
    Settles (entriesFrom tooMany entry rounds done (parser.facing (tokens ++ rest)))
      (limits.firstError openings) (done ++ trees.toArray) (parser.facing rest) := by
  induction h generalizing rounds done with
  | last first stop =>
    obtain ⟨round, rounds, rfl⟩ := List.exists_cons_of_length_pos (Nat.zero_lt_of_lt hrounds)
    rw [entriesFrom_cons (by simp at hcount; omega)]
    refine (hentry first parser rest hdepth hnext).bind_ok ?_
    rw [bind_of_ok (accept_facing_none parser rest (by rwa [hnext])), ← Array.push_eq_append]
    rfl
  | @more tokens later comma next tree trees openings _ first sign others ih =>
    obtain ⟨round, rounds, rfl⟩ := List.exists_cons_of_length_pos (Nat.zero_lt_of_lt hrounds)
    rw [entriesFrom_cons (by simp at hcount; omega), Limits.firstError_append, List.append_assoc,
      List.cons_append]
    refine (hentry first parser (comma :: (later ++ rest)) hdepth sign).bind ?_
    rw [bind_of_ok (accept_facing parser (later ++ rest) sign (by decide))]
    have hlater := ih hnext rounds (by simp at hrounds ⊢; omega) (done.push tree)
      (by simp at hcount ⊢; omega)
    simpa using hlater

theorem follows_entries {entry : Parse α} {phrase : Phrase α}
    (hentry : Follows entry phrase limits depth) (hstarts : StartsWith phrase (· ≠ .rightParen))
    (tooMany : ParseCause) : Follows (entries tooMany entry) (Entries phrase) limits depth := by
  intro tokens next trees openings h parser rest hdepth hnext
  rw [entries, bind_of_ok (sees_facing parser _)]
  cases h with
  | none =>
    rw [List.nil_append, hnext]
    rfl
  | some all count =>
    have hfirst : kindAhead (tokens ++ rest) .endOfInput ≠ .rightParen := by
      rw [kindAhead_append]
      cases all with
      | last first stop => exact hstarts.ahead first _
      | more first sign others =>
        rw [kindAhead_append]
        exact hstarts.ahead first _
    simp only [hfirst, decide_false]
    change Settles ((rounds >>= fun rounds => entriesFrom tooMany entry rounds #[] >>= fun all =>
      pure all.toList) _) _ _ _
    rw [bind_of_ok (rounds_facing parser _)]
    have hall := settles_entriesFrom hentry tooMany all parser rest hdepth hnext
      ((parser.facing (tokens ++ rest)).current :: (tokens ++ rest)) (by simp) #[]
      (by simpa using count)
    rw [Array.empty_append] at hall
    exact hall.bind_ok rfl

end Lists

/-! ## Expressions -/

section Expressions

variable {limits : Limits} {depth : Nat} {operand inner : Parse Expr}
variable {operandPhrase innerPhrase : Phrase Expr}

theorem settles_chainFrom {level : Level} (hend : .endOfInput ∉ level.operators)
    (hoperand : Follows operand operandPhrase limits depth) {left tree : Expr}
    {tokens : List Token} {next : TokenKind} {openings : List Opening}
    (h : Operators level operandPhrase left tokens next tree openings) (parser : Parser)
    (rest : List Token) (hdepth : parser.depth = depth)
    (hnext : kindAhead rest .endOfInput = next) (rounds : List Token)
    (hrounds : (tokens ++ rest).length < rounds.length) :
    Settles (chainFrom level operand rounds left (parser.facing (tokens ++ rest)))
      (limits.firstError openings) tree (parser.facing rest) := by
  induction h generalizing rounds with
  | stop none =>
    obtain ⟨round, rounds, rfl⟩ := List.exists_cons_of_length_pos (Nat.zero_lt_of_lt hrounds)
    rw [List.nil_append, chainFrom,
      bind_of_ok (acceptIf_facing_none parser rest (by simpa [hnext] using none))]
    rfl
  | @step left right tree operator tokens later next openings _ isOperator second others ih =>
    obtain ⟨round, rounds, rfl⟩ := List.exists_cons_of_length_pos (Nat.zero_lt_of_lt hrounds)
    have hkind : operator.kind ≠ .endOfInput := fun h => hend (h ▸ isOperator)
    rw [List.cons_append, List.append_assoc, chainFrom, Limits.firstError_append,
      bind_of_ok (acceptIf_facing parser _ hkind (by simpa using isOperator))]
    refine (hoperand second parser (later ++ rest) hdepth ?_).bind (ih hnext rounds ?_)
    · rw [kindAhead_append, hnext]
    · simp at hrounds ⊢
      omega

theorem follows_chain {level : Level} (hend : .endOfInput ∉ level.operators)
    (hoperand : Follows operand operandPhrase limits depth) :
    Follows (chain level operand) (Chain level operandPhrase) limits depth := by
  rintro _ next tree _ ⟨first, others⟩ parser rest hdepth hnext
  rename_i tokens later left openings _
  rw [List.append_assoc, Limits.firstError_append]
  refine (hoperand first parser (later ++ rest) hdepth ?_).bind ?_
  · rw [kindAhead_append, hnext]
  · rw [bind_of_ok (rounds_facing parser (later ++ rest))]
    exact settles_chainFrom hend hoperand others parser rest hdepth hnext _ (by simp)

theorem follows_disjunction (hoperand : Follows operand operandPhrase limits depth) :
    Follows (climb operand levels) (Disjunction operandPhrase) limits depth := by
  have hfactor : Follows (climb operand (levels.drop 5)) (Factor operandPhrase) limits depth :=
    follows_chain (by decide) hoperand
  have hterm : Follows (climb operand (levels.drop 4)) (Term operandPhrase) limits depth :=
    follows_chain (by decide) hfactor
  have hcomparison : Follows (climb operand (levels.drop 3)) (Comparison operandPhrase) limits
      depth := follows_chain (by decide) hterm
  have hequality : Follows (climb operand (levels.drop 2)) (Equality operandPhrase) limits depth :=
    follows_chain (by decide) hcomparison
  have hconjunction : Follows (climb operand (levels.drop 1)) (Conjunction operandPhrase) limits
      depth := follows_chain (by decide) hequality
  exact follows_chain (by decide) hconjunction

theorem follows_primary (hinner : Follows inner innerPhrase limits depth) :
    Follows (primary inner) (Primary innerPhrase) limits depth := by
  intro tokens next tree openings h parser rest hdepth hnext
  cases h with
  | literal written => exact primary_facing_literal inner parser rest written
  | name isName => exact primary_facing_name inner parser rest isName
  | @group left right tokens _ tree openings isLeft inside isRight =>
    rw [List.cons_append, List.append_assoc, primary_facing_paren inner parser _ isLeft]
    refine (hinner inside parser ([right] ++ rest) hdepth isRight).bind_ok ?_
    rw [List.singleton_append, bind_of_ok (expect_facing parser rest isRight (by decide) _)]
    rfl

theorem settles_callsFrom (hinner : Follows inner innerPhrase limits depth)
    (hstarts : StartsWith innerPhrase startsExpression) {callee tree : Expr}
    {tokens : List Token} {next : TokenKind} {openings : List Opening}
    (h : Arguments innerPhrase callee tokens next tree openings) (parser : Parser)
    (rest : List Token) (hdepth : parser.depth = depth)
    (hnext : kindAhead rest .endOfInput = next) (rounds : List Token)
    (hrounds : (tokens ++ rest).length < rounds.length) :
    Settles (callsFrom inner rounds callee (parser.facing (tokens ++ rest)))
      (limits.firstError openings) tree (parser.facing rest) := by
  induction h generalizing rounds with
  | stop none =>
    obtain ⟨round, rounds, rfl⟩ := List.exists_cons_of_length_pos (Nat.zero_lt_of_lt hrounds)
    rw [List.nil_append, callsFrom, bind_of_ok (accept_facing_none parser rest (by rwa [hnext]))]
    rfl
  | @step callee tree left right tokens later next arguments openings _ isLeft inside isRight
      others ih =>
    obtain ⟨round, rounds, rfl⟩ := List.exists_cons_of_length_pos (Nat.zero_lt_of_lt hrounds)
    have hfirst : StartsWith innerPhrase (· ≠ .rightParen) :=
      hstarts.mono fun kind h => by rintro rfl; exact absurd h (by decide)
    rw [List.cons_append, List.append_assoc, List.cons_append, callsFrom,
      Limits.firstError_append, bind_of_ok (accept_facing parser _ isLeft (by decide))]
    refine (follows_entries hinner hfirst _ inside parser (right :: (later ++ rest)) hdepth
      isRight).bind ?_
    rw [bind_of_ok (expect_facing parser _ isRight (by decide) _)]
    refine ih hnext rounds ?_
    simp at hrounds ⊢
    omega

theorem follows_call (hinner : Follows inner innerPhrase limits depth)
    (hstarts : StartsWith innerPhrase startsExpression) :
    Follows (call inner) (Call innerPhrase) limits depth := by
  rintro _ next tree _ ⟨first, others⟩ parser rest hdepth hnext
  rename_i tokens later callee openings _
  rw [List.append_assoc, Limits.firstError_append]
  refine (follows_primary hinner first parser (later ++ rest) hdepth ?_).bind ?_
  · rw [kindAhead_append, hnext]
  · rw [bind_of_ok (rounds_facing parser (later ++ rest))]
    exact settles_callsFrom hinner hstarts others parser rest hdepth hnext _ (by simp)

theorem follows_unary (hoperand : Follows operand operandPhrase limits depth)
    (hinner : Follows inner innerPhrase limits depth)
    (hstarts : StartsWith innerPhrase startsExpression) :
    Follows (unary operand inner) (Unary operandPhrase innerPhrase) limits depth := by
  intro tokens next tree openings h parser rest hdepth hnext
  cases h with
  | @operator operator tokens _ tree _ isOperator behind =>
    have hkind : operator.kind ≠ .endOfInput := by
      rcases isOperator with h | h <;> simp [h]
    rw [unary, List.cons_append, bind_of_ok (acceptIf_facing parser (tokens ++ rest) hkind
      (by simpa using isOperator))]
    exact (hoperand behind parser rest hdepth hnext).bind_ok rfl
  | call call =>
    obtain ⟨token, later, rfl, hkind⟩ := Call.starts call
    have hother : ∀ kind, startsPrimary kind → [TokenKind.kwNot, .minus].contains kind = false := by
      unfold startsPrimary
      decide
    rw [unary, bind_of_ok (acceptIf_facing_none parser (token :: later ++ rest) (hother _ hkind))]
    exact follows_call hinner hstarts call parser rest hdepth hnext

theorem follows_assignment (hoperand : Follows operand operandPhrase limits depth)
    (hinner : Follows inner innerPhrase limits depth)
    (hstarts : StartsWith innerPhrase startsExpression) :
    Follows (assignment operand inner) (Assignment operandPhrase innerPhrase) limits depth := by
  have hdisjunction := follows_disjunction (follows_unary hoperand hinner hstarts)
  intro tokens next tree openings h parser rest hdepth hnext
  cases h with
  | plain alone stop =>
    refine (hdisjunction alone parser rest hdepth hnext).bind_ok ?_
    rw [bind_of_ok (accept_facing_none parser rest (by rwa [hnext]))]
    rfl
  | @assign tokens later name equals _ value openings _ target sign behind =>
    rw [List.append_assoc, List.cons_append, Limits.firstError_append]
    refine (hdisjunction target parser (equals :: (later ++ rest)) hdepth sign).bind ?_
    rw [bind_of_ok (accept_facing parser _ sign (by decide))]
    exact (hinner behind parser rest hdepth hnext).bind_ok rfl

/-! ## Nesting -/

theorem follows_fail {phrase : Phrase α} {nesting : Nesting} (h : limits.of nesting = 0) :
    Follows (fail nesting.cause) (Deeper nesting phrase) limits depth := by
  rintro _ next tree _ ⟨inside⟩ parser rest hdepth hnext
  rw [Limits.firstError_cons_of_exceeds (Nat.le_of_eq h)]
  exact ⟨_, rfl⟩

theorem Settles.nested {read : Parse α} {start stop : Parser} {error? : Option ParseError} {tree : α}
    (h : Settles (read { start with depth := start.depth + 1 }) error? tree stop) :
    Settles (nested read start) error? tree { stop with depth := stop.depth - 1 } := by
  cases error? with
  | none => exact nested_of_ok h
  | some error =>
    obtain ⟨stopped, hstopped⟩ := h
    exact ⟨_, nested_of_error hstopped⟩

theorem follows_nested {read : Parse α} {phrase : Phrase α}
    (h : Follows read phrase limits (depth + 1)) :
    Follows (nested read) (Deeper .expression phrase) (limits.more .expression) depth := by
  rintro _ next tree _ ⟨inside⟩ parser rest hdepth hnext
  rename_i token tokens openings
  rw [Limits.firstError_cons_of_not_exceeds (by simp [Opening.Exceeds, Limits.of, Limits.more]),
    Limits.firstError_map_deeper]
  let start := parser.facing (token :: tokens ++ rest)
  have hread : Settles (read { start with depth := start.depth + 1 }) _ _ _ :=
    h inside { parser with depth := parser.depth + 1 } rest (by simp [hdepth]) hnext
  exact hread.nested

/-- The limits that leave some levels for expressions. -/
theorem follows_within (levels allowed statements depth : Nat) :
    Follows (expressionWithin allowed) (ExpressionWithin levels) ⟨allowed, statements⟩ depth ∧
      Follows (operandWithin allowed) (OperandWithin levels) ⟨allowed, statements⟩ depth := by
  induction levels generalizing allowed depth with
  | zero => exact ⟨by rintro _ _ _ _ ⟨⟩, by rintro _ _ _ _ ⟨⟩⟩
  | succ levels ih =>
    cases allowed with
    | zero => exact ⟨follows_fail rfl, follows_fail rfl⟩
    | succ allowed =>
      obtain ⟨hexpression, hoperand⟩ := ih allowed (depth + 1)
      have hstarts := ExpressionWithin.starts levels
      exact ⟨follows_nested (follows_assignment hoperand hexpression hstarts),
        follows_nested (follows_unary hoperand hexpression hstarts)⟩

/-- **Expressions are read.** -/
theorem follows_expression (statements depth : Nat) :
    Follows expression Expression ⟨maxNesting - depth, statements⟩ depth := by
  rintro tokens next tree openings ⟨levels, h⟩ parser rest rfl hnext
  exact (follows_within levels (maxNesting - parser.depth) statements parser.depth).1 h parser rest
    rfl hnext

end Expressions

end Parse

end Scriptlet
