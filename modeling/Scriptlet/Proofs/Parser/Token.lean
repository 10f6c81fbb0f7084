import Scriptlet.Proofs.Grammar.Expression
import Scriptlet.Proofs.Outcome

/-!
# Reads of one token

A read of one token is described twice: what it does in front of given tokens, and what stood there
if it did something.

## Main definitions

* `Parser.facing` — a parser in front of other tokens

## Main results

* `Parse.acceptIf_facing`, `Parse.acceptIf_facing_none`, … — what a read of one token does
* `Parse.acceptIf_eq_some`, `Parse.acceptIf_eq_none`, … — what it did
-/

namespace Scriptlet

/-- The parser in front of other tokens. -/
def Parser.facing (parser : Parser) (tokens : List Token) : Parser := { parser with rest := tokens }

namespace Parser

/-- The kind of the next token; behind the last token there is an end. -/
theorem current_kind (parser : Parser) :
    parser.current.kind = kindAhead parser.rest .endOfInput := by
  unfold current
  cases parser.rest <;> rfl

theorem atEnd_iff (parser : Parser) :
    parser.atEnd = true ↔ kindAhead parser.rest .endOfInput = .endOfInput := by
  rw [atEnd, current_kind, decide_eq_true_iff]

@[simp] theorem facing_rest (parser : Parser) (tokens : List Token) :
    (parser.facing tokens).rest = tokens := rfl

theorem current_kind_facing (parser : Parser) (rest : List Token) :
    (parser.facing rest).current.kind = kindAhead rest .endOfInput := current_kind _

/-- A token that is not the end mark is the first of the tokens that are left. -/
theorem eq_facing_current {parser : Parser} (h : parser.current.kind ≠ .endOfInput) :
    parser = parser.facing (parser.current :: parser.rest.tail) := by
  obtain ⟨tokens, diagnostics, depth, statementDepth⟩ := parser
  cases tokens with
  | nil => exact absurd rfl h
  | cons token rest => rfl

variable (parser : Parser) (rest : List Token) {token : Token} (h : token.kind ≠ .endOfInput)

include h in
theorem atEnd_facing : (parser.facing (token :: rest)).atEnd = false := decide_eq_false h

include h in
theorem advanced_facing : (parser.facing (token :: rest)).advanced = parser.facing rest := by
  rw [advanced, atEnd_facing parser rest h]
  rfl

end Parser

namespace Parse

/-! ## What a read of one token does -/

section Facing

variable (parser : Parser) (rest : List Token)

theorem current_facing :
    current (parser.facing rest) = .ok (parser.facing rest).current (parser.facing rest) := rfl

theorem current_facing_cons (token : Token) :
    current (parser.facing (token :: rest)) = .ok token (parser.facing (token :: rest)) := rfl

theorem advance_facing {token : Token} (h : token.kind ≠ .endOfInput) :
    advance (parser.facing (token :: rest)) = .ok token (parser.facing rest) := by
  rw [advance, Parser.advanced_facing parser rest h]
  rfl

theorem acceptIf_facing {wanted : TokenKind → Bool} {token : Token}
    (h : token.kind ≠ .endOfInput) (hwanted : wanted token.kind = true) :
    acceptIf wanted (parser.facing (token :: rest)) = .ok (some token) (parser.facing rest) := by
  have hcurrent : (parser.facing (token :: rest)).current = token := rfl
  rw [acceptIf, Parser.advanced_facing parser rest h, Parser.atEnd_facing parser rest h, hcurrent,
    hwanted]
  rfl

theorem acceptIf_facing_none {wanted : TokenKind → Bool}
    (h : wanted (kindAhead rest .endOfInput) = false) :
    acceptIf wanted (parser.facing rest) = .ok none (parser.facing rest) := by
  rw [acceptIf, Parser.current_kind_facing, h, Bool.and_false]
  rfl

variable {kind : TokenKind} {token : Token}

theorem accept_facing (h : token.kind = kind) (hend : kind ≠ .endOfInput) :
    accept kind (parser.facing (token :: rest)) = .ok (some token) (parser.facing rest) :=
  acceptIf_facing parser rest (by rwa [h]) (by simpa using h)

theorem accept_facing_none (h : kindAhead rest .endOfInput ≠ kind) :
    accept kind (parser.facing rest) = .ok none (parser.facing rest) :=
  acceptIf_facing_none parser rest (by simpa using h)

theorem expect_facing (h : token.kind = kind) (hend : kind ≠ .endOfInput) (cause : ParseCause) :
    expect kind cause (parser.facing (token :: rest)) = .ok token (parser.facing rest) := by
  unfold expect
  rw [bind_of_ok (accept_facing parser rest h hend)]
  rfl

theorem sees_facing :
    sees kind (parser.facing rest) =
      .ok (decide (kindAhead rest .endOfInput = kind)) (parser.facing rest) := by
  rw [sees, bind_of_ok (current_facing parser rest), Parser.current_kind_facing]
  rfl

theorem rounds_facing :
    rounds (parser.facing rest) =
      .ok ((parser.facing rest).current :: rest) (parser.facing rest) := rfl

end Facing

/-! ## What a read of one token did -/

variable {start stop : Parser} {token : Token} {kind : TokenKind}

/-- A token that was accepted stood in front of what is left, and all else is as it was. -/
theorem acceptIf_eq_some {wanted : TokenKind → Bool}
    (h : acceptIf wanted start = .ok (some token) stop) :
    start = stop.facing (token :: stop.rest) ∧ wanted token.kind = true ∧
      token.kind ≠ .endOfInput := by
  obtain ⟨tokens, diagnostics, depth, statementDepth⟩ := start
  rw [acceptIf] at h
  split at h
  · rename_i hwanted
    obtain ⟨hend, hkind⟩ := Bool.and_eq_true_iff.mp hwanted
    cases tokens with
    | nil => cases hend
    | cons first rest =>
      have hfirst : first.kind ≠ .endOfInput :=
        of_decide_eq_false ((Bool.not_eq_true' _).mp hend)
      have hadvanced : Parser.advanced ⟨first :: rest, diagnostics, depth, statementDepth⟩ =
          ⟨rest, diagnostics, depth, statementDepth⟩ := Parser.advanced_facing
        ⟨rest, diagnostics, depth, statementDepth⟩ rest hfirst
      rw [hadvanced] at h
      cases h
      exact ⟨rfl, hkind, hfirst⟩
  · cases h

theorem acceptIf_eq_none {wanted : TokenKind → Bool}
    (h : acceptIf wanted start = .ok none stop) :
    stop = start ∧ (wanted (kindAhead start.rest .endOfInput) = true →
      kindAhead start.rest .endOfInput = .endOfInput) := by
  rw [acceptIf] at h
  split at h
  · cases h
  · rename_i hwanted
    cases h
    refine ⟨rfl, fun hkind => ?_⟩
    rw [Parser.current_kind, hkind, Bool.and_true, Bool.not_eq_true', Bool.not_eq_false,
      Parser.atEnd_iff] at hwanted
    exact hwanted

theorem accept_eq_some (h : accept kind start = .ok (some token) stop) :
    start = stop.facing (token :: stop.rest) ∧ token.kind = kind := by
  obtain ⟨hstart, hkind, _⟩ := acceptIf_eq_some h
  exact ⟨hstart, of_decide_eq_true hkind⟩

theorem accept_eq_none (h : accept kind start = .ok none stop) (hend : kind ≠ .endOfInput) :
    stop = start ∧ kindAhead start.rest .endOfInput ≠ kind := by
  obtain ⟨hstop, hkind⟩ := acceptIf_eq_none h
  refine ⟨hstop, fun hahead => hend ?_⟩
  rw [← hahead]
  exact hkind (decide_eq_true hahead)

theorem expect_eq_ok {cause : ParseCause} (h : expect kind cause start = .ok token stop) :
    start = stop.facing (token :: stop.rest) ∧ token.kind = kind := by
  obtain ⟨token?, middle, haccept, hnext⟩ := ok_of_bind h
  cases token? with
  | none => cases hnext
  | some found =>
    cases hnext
    exact accept_eq_some haccept

end Parse

end Scriptlet
