import Scriptlet.Proofs.Grammar.Order
import Scriptlet.Proofs.Parser.Failures
import Scriptlet.Proofs.Parser.Program

/-!
# The limits on nesting are exact

Nothing but nesting keeps a program of the grammar from being read. Reading comes across its
openings in order, and stops at the first one that finds as many levels of its kind open as there
may be; if there is none, the program is read without an error.

## Main results

* `Grammar.Limits.firstError_eq_some_iff` — the first error is that of the first opening that
  exceeds the limits
* `nesting_exact` — a program is spoiled by its first opening that exceeds the limits, and by
  nothing else
-/

namespace Scriptlet

open Grammar

/-- The first error stands at an opening that exceeds the limits, and none in front of it does. -/
theorem Grammar.Limits.firstError_eq_some_iff {limits : Limits} {openings : List Opening}
    {error : ParseError} :
    limits.firstError openings = some error ↔ ∃ before opening after,
      openings = before ++ opening :: after ∧ limits.Allow before ∧ opening.Exceeds limits ∧
        opening.error = error := by
  constructor
  · intro h
    obtain ⟨opening, hfind, herror⟩ := Option.map_eq_some_iff.mp h
    obtain ⟨hexceeds, before, after, hopenings, hbefore⟩ := List.find?_eq_some_iff_append.mp hfind
    refine ⟨before, opening, after, hopenings, fun other hmem => ?_, by simpa using hexceeds,
      herror⟩
    simpa using hbefore other hmem
  · rintro ⟨before, opening, after, rfl, hbefore, hexceeds, rfl⟩
    rw [firstError_append, firstError_eq_none_iff.mpr hbefore, firstError_cons_of_exceeds hexceeds]
    rfl

/-- **The limits on nesting are exact.** Let the tokens in front of the end be a program of the
grammar. Its openings can be met by going through the tokens once. Reading fails exactly if there is
one with no level left for it, that is, with as many levels of its kind open as there may be. Then
it fails fatally, with the error of the first such opening, in front of the token where that is. In
all other cases the statements of the program are read, and no error is noted. -/
theorem nesting_exact {tokens : List Token} {statements : List Stmt} {openings : List Opening}
    (h : Program (beforeEnd tokens) statements openings) :
    Met (beforeEnd tokens) openings ∧
    ((∃ error stop, Parse.program (.ofTokens tokens) = .error error stop) ↔
      ∃ opening ∈ openings, opening.Exceeds Limits.program) ∧
    (∀ before opening after, openings = before ++ opening :: after →
      Limits.program.Allow before → opening.Exceeds Limits.program →
        opening.error.isFatal = true ∧ ∃ stop,
          Parse.program (.ofTokens tokens) = .error opening.error stop ∧
            stop.current = opening.token) ∧
    (Limits.program.Allow openings → Yields tokens statements) := by
  obtain ⟨rest, htokens, hrest⟩ := exists_eq_beforeEnd_append tokens
  -- Reading a program is settled by the first error of its openings; the parts say where that is.
  have hfails {before after : List Opening} {opening : Opening}
      (hopenings : openings = before ++ opening :: after) (hbefore : Limits.program.Allow before)
      (hexceeds : opening.Exceeds Limits.program) :
      ∃ stop, Parse.program (.ofTokens tokens) = .error opening.error stop := by
    obtain ⟨added, hsettles⟩ := settles_ofTokens h hrest
    rw [← htokens, Limits.firstError_eq_some_iff.mpr
      ⟨before, opening, after, hopenings, hbefore, hexceeds, rfl⟩] at hsettles
    exact hsettles
  have hyields (hallow : Limits.program.Allow openings) : Yields tokens statements := by
    rw [htokens]
    exact (yields_iff_allow h hrest).mpr hallow
  refine ⟨h.met, ?_, ?_, hyields⟩
  · by_cases hallow : Limits.program.Allow openings
    · obtain ⟨stop, hread, _⟩ := hyields hallow
      refine iff_of_false ?_ fun ⟨opening, hmem, hexceeds⟩ => hallow opening hmem hexceeds
      rintro ⟨error, stopped, herror⟩
      cases hread.symm.trans herror
    · obtain ⟨error, hfirst⟩ := Option.ne_none_iff_exists'.mp
        (mt Limits.firstError_eq_none_iff.mp hallow)
      obtain ⟨before, opening, after, hopenings, hbefore, hexceeds, rfl⟩ :=
        Limits.firstError_eq_some_iff.mp hfirst
      have hmem : opening ∈ openings := by simp [hopenings]
      exact iff_of_true ⟨_, hfails hopenings hbefore hexceeds⟩ ⟨opening, hmem, hexceeds⟩
  · intro before opening after hopenings hbefore hexceeds
    obtain ⟨stop, hstop⟩ := hfails hopenings hbefore hexceeds
    exact ⟨opening.error_isFatal, stop, hstop, (Parse.failsAhead_program hstop).symm⟩

/-! ## Phrases that stand alone -/

namespace Grammar

variable {operand inner : Phrase Expr} {tokens : List Token} {next : TokenKind} {tree : Expr}
  {openings : List Opening}

theorem Chain.single {level : Level} (h : operand tokens next tree openings)
    (hnext : next ∉ level.operators) : Chain level operand tokens next tree openings := by
  have hchain : Chain level operand (tokens ++ []) next tree (openings ++ []) :=
    .intro h (.stop hnext)
  rwa [List.append_nil, List.append_nil] at hchain

theorem Call.single (h : Primary inner tokens next tree openings) (hnext : next ≠ .leftParen) :
    Call inner tokens next tree openings := by
  have hcall : Call inner (tokens ++ []) next tree (openings ++ []) := .intro h (.stop hnext)
  rwa [List.append_nil, List.append_nil] at hcall

/-- A call, or an operator and its operand, is an expression in front of a token that closes it. -/
theorem Assignment.alone (h : Unary operand inner tokens next tree openings)
    (hnext : next ∈ [TokenKind.rightParen, .endOfInput]) :
    Assignment operand inner tokens next tree openings := by
  have hne : next ≠ .assign ∧ ∀ level ∈ levels, next ∉ level.operators := by
    simp only [List.mem_cons, List.not_mem_nil, or_false] at hnext
    rcases hnext with rfl | rfl <;> decide
  obtain ⟨hassign, hlevels⟩ := hne
  refine .plain (.single (.single (.single (.single (.single (.single h ?_) ?_) ?_) ?_) ?_) ?_)
    hassign
  all_goals exact hlevels _ (by simp [levels])

/-- What stands alone is an expression in front of a token that closes it. -/
theorem Assignment.single (h : Primary inner tokens next tree openings)
    (hnext : next ∈ [TokenKind.rightParen, .endOfInput]) :
    Assignment operand inner tokens next tree openings := by
  have hparen : next ≠ .leftParen := by
    simp only [List.mem_cons, List.not_mem_nil, or_false] at hnext
    rcases hnext with rfl | rfl <;> decide
  exact .alone (.call (.single h hparen)) hnext

/-- An expression is a program. -/
theorem Expression.program (h : Expression tokens .endOfInput tree openings)
    (hprint : kindAhead tokens .endOfInput ≠ .kwPrint) : ∃ first,
      Program tokens [.expression tree]
        (⟨.statement, first, 0⟩ :: openings.map (.deeper .statement)) := by
  obtain ⟨first, rest, rfl, _⟩ := Expression.starts h
  have hstatement : StatementWithin 1 (first :: rest) .endOfInput (.expression tree)
      (⟨.statement, first, 0⟩ :: openings.map (.deeper .statement)) :=
    .intro (.expression (.bare h (by decide)) hprint)
  have hsequence : Program ((first :: rest) ++ []) [.expression tree]
      ((⟨.statement, first, 0⟩ :: openings.map (.deeper .statement)) ++ []) :=
    .step ⟨1, .statement hstatement⟩ .stop
  rw [List.append_nil, List.append_nil] at hsequence
  exact ⟨first, hsequence⟩

end Grammar

namespace Sample

/-- The parenthesis in front of what is wrapped. -/
def wrapLeft : Token := ⟨.leftParen, "(", .unknown⟩

/-- The parenthesis behind it. -/
def wrapRight : Token := ⟨.rightParen, ")", .unknown⟩

/-- The number that is wrapped. -/
def wrappedOne : Token := ⟨.number, "1", .unknown⟩

/-- A number between parentheses. -/
def wrapped : Nat → List Token
  | 0 => [wrappedOne]
  | count + 1 => wrapLeft :: (wrapped count ++ [wrapRight])

/-- The openings around the number, one at each parenthesis. -/
def wrappings (count : Nat) : List Opening :=
  (List.range count).map (⟨.expression, wrapLeft, ·⟩)

/-- The last level is opened at the number. -/
def innermost (count : Nat) : Opening := ⟨.expression, wrappedOne, count⟩

theorem wrappings_succ (count : Nat) :
    wrappings (count + 1) ++ [innermost (count + 1)] = ⟨.expression, wrapLeft, 0⟩ ::
      (wrappings count ++ [innermost count]).map (.deeper .expression) := by
  simp [wrappings, innermost, List.range_succ_eq_map, Opening.deeper]

theorem wrapped_expression (count : Nat) :
    ∀ next ∈ [TokenKind.rightParen, .endOfInput],
      ExpressionWithin (count + 1) (wrapped count) next (.literal (.integer 1))
        (wrappings count ++ [innermost count]) := by
  induction count with
  | zero =>
    intro next hnext
    have hwritten : wrappedOne.literal? = some (.integer 1) := by decide +kernel
    exact @Deeper.intro _ _ _ wrappedOne [] next _ [] (.single (.literal hwritten) hnext)
  | succ count ih =>
    intro next hnext
    rw [wrappings_succ]
    exact .intro (.single (.group rfl (ih .rightParen (by simp)) rfl) hnext)

/-- The statement of which the number is all. -/
abbrev wrappedStmt : Stmt := .expression (.literal (.integer 1))

theorem wrapped_program (count : Nat) : ∃ first, Program (wrapped count) [wrappedStmt]
    (⟨.statement, first, 0⟩ :: (wrappings count ++ [innermost count])) := by
  have hprint : kindAhead (wrapped count) .endOfInput ≠ .kwPrint := by
    cases count with
    | zero => decide
    | succ count =>
      rw [wrapped, kindAhead_cons]
      decide
  have hopenings : (wrappings count ++ [innermost count]).map (.deeper .statement) =
      wrappings count ++ [innermost count] := by
    simp [wrappings, innermost, Opening.deeper]
  have hexpression := wrapped_expression count .endOfInput (by simp)
  obtain ⟨first, hprogram⟩ := Expression.program ⟨count + 1, hexpression⟩ hprint
  rw [hopenings] at hprogram
  exact ⟨first, hprogram⟩

theorem beforeEnd_wrapped (count : Nat) : beforeEnd (wrapped count) = wrapped count := by
  have hkinds : ∀ token ∈ wrapped count, token.kind ≠ .endOfInput := by
    induction count with
    | zero => simp [wrapped, wrappedOne]
    | succ count ih => simpa [wrapped, wrapLeft, wrapRight, or_imp, forall_and] using ih
  have hall := @beforeEnd_append (wrapped count) [] hkinds rfl
  rwa [List.append_nil] at hall

theorem allow_wrappings {first : Token} {count : Nat} (h : count ≤ maxNesting) :
    Limits.program.Allow (⟨.statement, first, 0⟩ :: wrappings count) := by
  intro opening hmem
  rcases List.mem_cons.mp hmem with rfl | hmem
  · exact Nat.not_le.mpr (by decide : 0 < maxStatementNesting)
  · obtain ⟨depth, hdepth, rfl⟩ := List.mem_map.mp hmem
    have hlt : depth < maxNesting := Nat.lt_of_lt_of_le (List.mem_range.mp hdepth) h
    exact Nat.not_le.mpr hlt

/-- With 99 parentheses around it a number is read. With 100 there are 100 levels open in front of
the number, and that is where reading fails. -/
theorem wrapped_limits :
    (∃ openings, Program (beforeEnd (wrapped 99)) [wrappedStmt] openings ∧
      Yields (wrapped 99) [wrappedStmt]) ∧
    ∃ openings, Program (beforeEnd (wrapped 100)) [wrappedStmt] openings ∧
      ∃ stop, Parse.program (.ofTokens (wrapped 100)) = .error ⟨.nestingTooDeep, wrappedOne⟩ stop ∧
        stop.current = wrappedOne := by
  obtain ⟨first, hfirst⟩ := wrapped_program 99
  obtain ⟨second, hsecond⟩ := wrapped_program 100
  rw [← beforeEnd_wrapped] at hfirst hsecond
  refine ⟨⟨_, hfirst, (nesting_exact hfirst).2.2.2 ?_⟩, _, hsecond, ?_⟩
  · have hlast : Limits.program.Allow [innermost 99] := by
      intro opening hmem
      obtain rfl := List.mem_singleton.mp hmem
      decide
    exact Limits.allow_append.mpr ⟨allow_wrappings (by decide), hlast⟩
  · obtain ⟨_, hfails⟩ := (nesting_exact hsecond).2.2.1 (⟨.statement, second, 0⟩ :: wrappings 100)
      (innermost 100) [] rfl (allow_wrappings (by decide)) (by decide)
    exact hfails

end Sample

end Scriptlet
