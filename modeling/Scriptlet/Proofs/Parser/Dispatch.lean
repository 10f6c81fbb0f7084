import Scriptlet.Proofs.Parser.Token
import Scriptlet.Syntax.Parser.Statement

/-!
# The first token decides about the form

Among the expressions that stand alone, and among the statements, the next token alone decides
which form is read. It is looked at before anything is consumed.

## Main results

* `Parse.primary_facing_literal`, `primary_facing_name`, `primary_facing_paren` — what is read
  behind the first token of an expression that stands alone
* `Parse.primary_eq_error` — no other token starts one
* `Parse.primary_eq_ok` — what an expression that stands alone was read from
* `Parse.statementForm_facing_return`, … — what is read behind the first token of a statement
* `Parse.statementForm_eq_expression` — all other statements are expressions
-/

namespace Scriptlet

namespace Parse

/-! ## Expressions that stand alone -/

section Primary

variable (inner : Parse Expr) (parser : Parser) (rest : List Token) {token : Token}

/-- A token that is an expression by itself. -/
theorem advance_pure_facing (h : token.kind ≠ .endOfInput) (tree : Expr) :
    (do let _ ← advance; return tree : Parse Expr) (parser.facing (token :: rest)) =
      .ok tree (parser.facing rest) := by
  rw [bind_of_ok (advance_facing parser rest h)]
  rfl

theorem primary_facing_literal {value : Literal} (h : token.literal? = some value) :
    primary inner (parser.facing (token :: rest)) = .ok (.literal value) (parser.facing rest) := by
  have hkind : token.kind ≠ .endOfInput := by
    intro hend
    simp [Token.literal?, hend] at h
  have hadvance := advance_pure_facing parser rest hkind
  rw [primary, bind_of_ok (current_facing_cons parser rest token)]
  unfold Token.literal? at h
  split at h <;> rename_i hkind
  · cases h; simp only [hkind]; exact hadvance _
  · cases h; simp only [hkind]; exact hadvance _
  · obtain ⟨n, hn, rfl⟩ := Option.map_eq_some_iff.mp h
    simp only [hkind, hn]
    exact hadvance _
  · cases h; simp only [hkind]; exact hadvance _
  · cases h

theorem primary_facing_name (h : token.kind.IsName) :
    primary inner (parser.facing (token :: rest)) = .ok (.var token) (parser.facing rest) := by
  have hkind : token.kind ≠ .endOfInput := by
    rcases h with h | h | h <;> simp [h]
  rw [primary, bind_of_ok (current_facing_cons parser rest token)]
  rcases h with h | h | h <;> simp only [h] <;> exact advance_pure_facing parser rest hkind _

theorem primary_facing_paren (h : token.kind = .leftParen) :
    primary inner (parser.facing (token :: rest)) = (do
      let value ← inner
      let _ ← expect .rightParen .noParenAfterExpression
      return value : Parse Expr) (parser.facing rest) := by
  rw [primary, bind_of_ok (current_facing_cons parser rest token)]
  simp only [h]
  exact bind_of_ok (advance_facing parser rest (by simp [h]))

/-- No expression starts with another token, or with a numeral that is out of range. -/
theorem primary_eq_error (start : Parser) (hliteral : start.current.literal? = none)
    (hname : ¬ start.current.kind.IsName) (hparen : start.current.kind ≠ .leftParen) :
    ∃ error, primary inner start = .error error start := by
  have hcurrent : current start = .ok start.current start := rfl
  rw [primary, bind_of_ok hcurrent]
  unfold Token.literal? at hliteral
  unfold TokenKind.IsName at hname
  cases hkind : start.current.kind <;> simp_all [fail]

variable {inner}

/-- An expression that stands alone was read from a literal, from a name, or from what stands in
parentheses. -/
theorem primary_eq_ok {start stop : Parser} {tree : Expr}
    (h : primary inner start = .ok tree stop) :
    (∃ token value, token.literal? = some value ∧ start = stop.facing (token :: stop.rest) ∧
      tree = .literal value) ∨
    (∃ token, token.kind.IsName ∧ start = stop.facing (token :: stop.rest) ∧ tree = .var token) ∨
    ∃ left right middle, left.kind = .leftParen ∧ right.kind = .rightParen ∧
      start = middle.facing (left :: middle.rest) ∧
      inner middle = .ok tree (stop.facing (right :: stop.rest)) := by
  by_cases hother : start.current.literal? = none ∧ ¬ start.current.kind.IsName ∧
      start.current.kind ≠ .leftParen
  · obtain ⟨error, herror⟩ := primary_eq_error inner start hother.1 hother.2.1 hother.2.2
    rw [herror] at h
    cases h
  -- the first token is consumed whatever form it starts
  have hkind : start.current.kind ≠ .endOfInput := by
    intro hend
    refine hother ⟨?_, ?_, ?_⟩ <;> simp [Token.literal?, TokenKind.IsName, hend]
  have hstart := Parser.eq_facing_current hkind
  rw [hstart] at h
  cases hliteral : start.current.literal? with
  | some value =>
    rw [primary_facing_literal inner start _ hliteral] at h
    cases h
    exact .inl ⟨_, value, hliteral, hstart, rfl⟩
  | none =>
    by_cases hname : start.current.kind.IsName
    · rw [primary_facing_name inner start _ hname] at h
      cases h
      exact .inr (.inl ⟨_, hname, hstart, rfl⟩)
    · have hparen : start.current.kind = .leftParen :=
        Decidable.byContradiction fun hparen => hother ⟨hliteral, hname, hparen⟩
      rw [primary_facing_paren inner start _ hparen] at h
      obtain ⟨value, behind, hvalue, hnext⟩ := ok_of_bind h
      obtain ⟨right, after, hright, hrest⟩ := ok_of_bind hnext
      cases hrest
      obtain ⟨rfl, isRight⟩ := expect_eq_ok hright
      exact .inr (.inr ⟨_, right, _, hparen, isRight, hstart, hvalue⟩)

end Primary

/-! ## Statements -/

section Statement

variable (statement declaration : Parse Stmt) (parser : Parser) (rest : List Token) {token : Token}

theorem statementForm_facing_return (h : token.kind = .kwReturn) :
    statementForm statement declaration (parser.facing (token :: rest)) =
      returnForm token (parser.facing rest) := by
  rw [statementForm, bind_of_ok (current_facing_cons parser rest token)]
  simp only [h]
  exact bind_of_ok (advance_facing parser rest (by simp [h]))

theorem statementForm_facing_print (h : token.kind = .kwPrint) :
    statementForm statement declaration (parser.facing (token :: rest)) =
      (do let value ← expression; optionalSemicolon; return .print value : Parse Stmt)
        (parser.facing rest) := by
  rw [statementForm, bind_of_ok (current_facing_cons parser rest token)]
  simp only [h]
  exact bind_of_ok (advance_facing parser rest (by simp [h]))

theorem statementForm_facing_brace (h : token.kind = .leftBrace) :
    statementForm statement declaration (parser.facing (token :: rest)) =
      (do return .block (← block declaration) : Parse Stmt) (parser.facing rest) := by
  rw [statementForm, bind_of_ok (current_facing_cons parser rest token)]
  simp only [h]
  exact bind_of_ok (advance_facing parser rest (by simp [h]))

theorem statementForm_facing_if (h : token.kind = .kwIf) :
    statementForm statement declaration (parser.facing (token :: rest)) =
      branchForm statement (parser.facing rest) := by
  rw [statementForm, bind_of_ok (current_facing_cons parser rest token)]
  simp only [h]
  exact bind_of_ok (advance_facing parser rest (by simp [h]))

theorem statementForm_facing_while (h : token.kind = .kwWhile) :
    statementForm statement declaration (parser.facing (token :: rest)) =
      loopForm statement (parser.facing rest) := by
  rw [statementForm, bind_of_ok (current_facing_cons parser rest token)]
  simp only [h]
  exact bind_of_ok (advance_facing parser rest (by simp [h]))

/-- Whether the statements that start with a token of a kind have a form of their own. -/
abbrev HasForm (kind : TokenKind) : Prop :=
  kind ∈ [TokenKind.kwReturn, .kwPrint, .leftBrace, .kwIf, .kwWhile]

theorem statementForm_eq_expression (start : Parser) (h : ¬ HasForm start.current.kind) :
    statementForm statement declaration start =
      (do let value ← expression; optionalSemicolon; return .expression value : Parse Stmt)
        start := by
  have hcurrent : current start = .ok start.current start := rfl
  rw [statementForm, bind_of_ok hcurrent]
  cases hkind : start.current.kind <;> simp_all

end Statement

end Parse

end Scriptlet
