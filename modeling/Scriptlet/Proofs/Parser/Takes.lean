import Scriptlet.Proofs.Parser.Complete.Statement

/-!
# What reads take

To say what is read also where errors are noted, a read is described by what it takes from every
parser: some tokens in front of a token of some kind, for a tree, with some errors noted. Such
descriptions of reads compose as the reads do.

## Main definitions

* `Parser.noting` — a parser after some errors were noted
* `Parse.Takes` — what a read takes from every parser
* `Parse.Refuses` — a read that fails in front of a token of some kind

## Main results

* `Parse.refuses_expressionWithin` — what no expression starts with
* `Parse.takes_expressionWithin` — calls that are expressions
* `Parse.takes_of_phrase` — expressions of the grammar are taken and nothing is noted
-/

namespace Scriptlet

/-! ## Noting errors -/

namespace Parser

/-- The parser after noting some errors. -/
def noting (parser : Parser) (errors : List ParseError) : Parser :=
  { parser with diagnostics := parser.diagnostics ++ errors.toArray }

@[simp] theorem noting_nil (parser : Parser) : parser.noting [] = parser := by
  simp [noting]

@[simp] theorem noting_noting (parser : Parser) (errors more : List ParseError) :
    (parser.noting errors).noting more = parser.noting (errors ++ more) := by
  simp only [noting, Array.append_assoc, List.append_toArray]

theorem report_eq (parser : Parser) (error : ParseError) :
    parser.report error = parser.noting [error] := by
  rw [report, noting, Array.push_eq_append]

end Parser

namespace Parse

variable {α β : Type}

/-! ## What a read takes -/

/-- A read takes tokens in front of a token of some kind for a tree, and notes errors. -/
def Takes (read : Parse α) (tokens : List Token) (next : TokenKind) (tree : α)
    (errors : List ParseError) : Prop :=
  ∀ (parser : Parser) (rest : List Token), kindAhead rest .endOfInput = next →
    read (parser.facing (tokens ++ rest)) = .ok tree ((parser.noting errors).facing rest)

/-- A read that fails in front of a token of some kind. -/
def Refuses (read : Parse α) (kind : TokenKind) : Prop :=
  ∀ start : Parser, start.current.kind = kind → ∃ error stop, read start = .error error stop

section Takes

variable {read : Parse α} {tokens later : List Token} {next : TokenKind} {tree : α} {result : β}
  {errors more : List ParseError}

theorem Takes.bind {then' : α → Parse β} (h : Takes read tokens (kindAhead later next) tree errors)
    (hthen : Takes (then' tree) later next result more) :
    Takes (read >>= then') (tokens ++ later) next result (errors ++ more) := by
  intro parser rest hrest
  have hahead : kindAhead (later ++ rest) .endOfInput = kindAhead later next := by
    rw [kindAhead_append, hrest]
  rw [List.append_assoc, bind_of_ok (h parser (later ++ rest) hahead), hthen _ rest hrest,
    Parser.noting_noting]

theorem takes_pure (tree : α) (next : TokenKind) : Takes (pure tree) [] next tree [] := by
  intro parser rest _
  rw [Parser.noting_nil]
  rfl

/-- Nothing is taken, and what follows decides. -/
theorem Takes.bind_nil {then' : α → Parse β} (h : Takes read [] (kindAhead tokens next) tree [])
    (hthen : Takes (then' tree) tokens next result errors) :
    Takes (read >>= then') tokens next result errors := by
  have hbind := h.bind hthen
  rwa [List.nil_append, List.nil_append] at hbind

theorem takes_acceptIf_none {wanted : TokenKind → Bool} (h : wanted next = false) :
    Takes (acceptIf wanted) [] next none [] := by
  intro parser rest hrest
  rw [Parser.noting_nil]
  exact acceptIf_facing_none parser rest (by rwa [hrest])

theorem takes_expect {kind : TokenKind} {token : Token} (h : token.kind = kind)
    (hend : kind ≠ .endOfInput) (cause : ParseCause) (next : TokenKind) :
    Takes (expect kind cause) [token] next token [] := by
  intro parser rest _
  rw [Parser.noting_nil]
  exact expect_facing parser rest h hend cause

/-- What a read takes does not start as what it refuses. -/
theorem Takes.kind_ne {kind : TokenKind} (h : Takes read tokens next tree errors)
    (hrefuses : Refuses read kind) : kindAhead tokens next ≠ kind := by
  intro hkind
  let rest : List Token := [⟨next, "", .unknown⟩]
  have hcurrent : (Parser.facing default (tokens ++ rest)).current.kind = kind := by
    rwa [Parser.current_kind_facing, kindAhead_append]
  obtain ⟨error, stop, herror⟩ := hrefuses _ hcurrent
  cases (h default rest rfl).symm.trans herror

theorem Takes.nested (h : Takes read tokens next tree errors) :
    Takes (nested read) tokens next tree errors := by
  intro parser rest hrest
  let start := parser.facing (tokens ++ rest)
  have hread : read { start with depth := start.depth + 1 } = _ :=
    h { parser with depth := parser.depth + 1 } rest hrest
  exact nested_of_ok hread

end Takes

/-! ## What expressions do not start with -/

section Refuses

variable {operand inner : Parse Expr} {kind : TokenKind}

theorem Refuses.bind {read : Parse α} (h : Refuses read kind) (next : α → Parse β) :
    Refuses (read >>= next) kind := by
  intro start hkind
  obtain ⟨error, stop, herror⟩ := h start hkind
  exact ⟨error, stop, bind_of_error herror⟩

theorem Refuses.nested {read : Parse α} (h : Refuses read kind) : Refuses (nested read) kind := by
  intro start hkind
  obtain ⟨error, stop, herror⟩ := h { start with depth := start.depth + 1 } hkind
  exact ⟨error, _, nested_of_error herror⟩

theorem refuses_call (h : ¬ Grammar.startsPrimary kind) : Refuses (call inner) kind := by
  refine Refuses.bind (fun start hkind => ?_) _
  have hstarts : ¬ Grammar.startsPrimary start.current.kind := by rwa [hkind]
  obtain ⟨error, herror⟩ := primary_eq_error inner start
    (by
      cases hliteral : start.current.literal? with
      | none => rfl
      | some value => exact absurd (Grammar.startsPrimary_of_literal? hliteral) hstarts)
    (fun hname => hstarts (Grammar.startsPrimary_of_isName hname))
    (fun hparen => hstarts (by rw [hparen]; decide))
  exact ⟨error, start, herror⟩

theorem refuses_unary (h : ¬ Grammar.startsExpression kind) :
    Refuses (unary operand inner) kind := by
  intro start hkind
  obtain ⟨hprimary, hnot, hminus⟩ :
      ¬ Grammar.startsPrimary kind ∧ kind ≠ .kwNot ∧ kind ≠ .minus := by
    simpa only [Grammar.startsExpression, not_or] using h
  have haccept : acceptIf [TokenKind.kwNot, .minus].contains start = .ok none start :=
    acceptIf_facing_none start start.rest
      (by rw [← start.current_kind, hkind]; simp [hnot, hminus])
  have hcall : Refuses (call inner) kind := refuses_call hprimary
  obtain ⟨error, stop, herror⟩ := hcall start hkind
  exact ⟨error, stop, (bind_of_ok haccept).trans herror⟩

theorem refuses_climb (h : Refuses operand kind) (levels : List Level) :
    Refuses (climb operand levels) kind := by
  induction levels with
  | nil => exact h
  | cons level tighter ih => exact ih.bind _

/-- Expressions start with certain tokens only. -/
theorem refuses_expressionWithin (h : ¬ Grammar.startsExpression kind) (levels : Nat) :
    Refuses (expressionWithin levels) kind := by
  cases levels with
  | zero => exact fun start _ => ⟨_, start, rfl⟩
  | succ levels => exact ((refuses_climb (refuses_unary h) _).bind _).nested

theorem refuses_expect (cause : ParseCause) {wanted : TokenKind} (h : kind ≠ wanted) :
    Refuses (expect wanted cause) kind := by
  intro start hkind
  have haccept : accept wanted start = .ok none start :=
    accept_facing_none start start.rest (by rwa [← start.current_kind, hkind])
  exact ⟨_, start, bind_of_ok haccept⟩

end Refuses

/-! ## Expressions -/

section Expressions

variable {operand inner : Parse Expr} {tokens : List Token} {next : TokenKind} {tree : Expr}
  {errors : List ParseError}

theorem Takes.climb (h : Takes operand tokens next tree errors) {levels : List Level}
    (hnext : ∀ level ∈ levels, next ∉ level.operators) :
    Takes (climb operand levels) tokens next tree errors := by
  induction levels with
  | nil => exact h
  | cons level tighter ih =>
    obtain ⟨hlevel, htighter⟩ := List.forall_mem_cons.mp hnext
    intro parser rest hrest
    rw [Parse.climb, chain, bind_of_ok (ih htighter parser rest hrest),
      bind_of_ok (rounds_facing _ rest), chainFrom,
      bind_of_ok (acceptIf_facing_none _ rest (by simpa [hrest] using hlevel))]
    rfl

/-- An expression that stands alone is a call without argument lists. -/
theorem Takes.call (h : Takes (primary inner) tokens next tree errors) (hnext : next ≠ .leftParen) :
    Takes (call inner) tokens next tree errors := by
  intro parser rest hrest
  rw [Parse.call, bind_of_ok (h parser rest hrest), bind_of_ok (rounds_facing _ rest), callsFrom,
    bind_of_ok (accept_facing_none _ rest (by rwa [hrest]))]
  rfl

/-- What a call takes does not start with an operator. -/
theorem takes_unary (h : Takes (call inner) tokens next tree errors) :
    Takes (unary operand inner) tokens next tree errors := by
  have hfirst (kind : TokenKind) (hkind : ¬ Grammar.startsPrimary kind) :
      kindAhead tokens next ≠ kind := h.kind_ne (refuses_call hkind)
  refine (takes_acceptIf_none ?_).bind_nil h
  simp [hfirst .kwNot (by decide), hfirst .minus (by decide)]

/-- A call that no operator follows is an expression, and so can be an entry of another list. -/
theorem takes_expressionWithin {levels : Nat}
    (h : Takes (call (expressionWithin levels)) tokens next tree errors)
    (hassign : next ≠ .assign) (hnext : ∀ level ∈ Scriptlet.levels, next ∉ level.operators) :
    Takes (expressionWithin (levels + 1)) tokens next tree errors := by
  refine Takes.nested fun parser rest hrest => ?_
  rw [assignment, bind_of_ok ((takes_unary h).climb hnext parser rest hrest),
    bind_of_ok (accept_facing_none _ rest (by rwa [hrest]))]
  rfl

end Expressions

/-- An expression of the grammar is read and nothing is noted, if enough levels are left. -/
theorem takes_of_phrase {inside levels : Nat} {tokens : List Token} {next : TokenKind} {tree : Expr}
    {openings : List Grammar.Opening}
    (h : Grammar.ExpressionWithin inside tokens next tree openings)
    (hallow : (⟨levels, 0⟩ : Grammar.Limits).Allow openings) :
    Takes (expressionWithin levels) tokens next tree [] := by
  intro parser rest hrest
  have hsettles := (follows_within inside levels 0 parser.depth).1 h parser rest rfl hrest
  rwa [Grammar.Limits.firstError_eq_none_iff.mpr hallow, settles_none,
    ← parser.noting_nil] at hsettles

end Parse

end Scriptlet
