import Scriptlet.Proofs.Parser.Accounts
import Scriptlet.Proofs.Parser.Program
import Scriptlet.Proofs.Parser.Takes

/-!
# What can be assigned to

What stands in front of an equals sign is read before the sign is seen, and whether it can be
assigned to is decided on its tree. Parentheses leave no trace in trees. So a name can be assigned
to, and so can a name in parentheses, and nothing else: for any other target an error is noted at
the sign, behind what is noted about the value, and the target alone is kept.

Two things have to be known of reads for this. The first is what they took if the result is a name:
the name and the parentheses around it. The second is what they did with equals signs: each error
about a target was noted at a sign that was passed, and at each sign no more than once. As such an
error is noted behind the value, not in front of it, signs that were passed are counted against
errors that were noted for each read as a whole.

## Main definitions

* `Parse.Wrapped` — a name in a number of pairs of parentheses
* `Parse.Names` — what was taken if the result is a name
* `Expr.Targeted` — an assignment whose target stands in front of an equals sign
* `Parser.Crosses` — signs were passed for the errors about targets that were noted
* `Parse.Answers` — a read that answers for the errors about targets and for its assignments

## Main results

* `Parse.names_expressionWithin`, `Parse.Wrapped.takes` — which tokens are read as names
* `Parse.assignment_facing` — what happens at an equals sign
* `Parse.answers_program` — programs
* `targets_decided` — what can be assigned to
-/

namespace Scriptlet

namespace Parse

variable {α β σ : Type}

/-! ## Names in parentheses -/

/-- A name in a number of pairs of parentheses. -/
inductive Wrapped (name : Token) : Nat → List Token → Prop
  | bare (isName : name.kind.IsName) : Wrapped name 0 [name]
  | paren {count : Nat} {left right : Token} {tokens : List Token} (isLeft : left.kind = .leftParen)
      (inside : Wrapped name count tokens) (isRight : right.kind = .rightParen) :
      Wrapped name (count + 1) (left :: (tokens ++ [right]))

/-- If the result is a name, then that name was taken, in less than so many pairs of parentheses,
and nothing else was done. -/
def Names (bound : Nat) (read : Parse Expr) : Prop :=
  ∀ ⦃start : Parser⦄ ⦃name : Token⦄ ⦃stop : Parser⦄, read start = .ok (.var name) stop →
    ∃ count tokens, count < bound ∧ Wrapped name count tokens ∧
      start = stop.facing (tokens ++ stop.rest)

section Names

variable {bound : Nat} {operand inner : Parse Expr}

/-- If each turn that calls for another comes to a state with a property, then so does the
repetition, unless its first turn was the last. -/
theorem repeated_eq_ok {P : σ → Prop} {turn : σ → Parse (Turn σ)}
    (hagain : ∀ ⦃state start next stop⦄, turn state start = .ok (.again next) stop → P next)
    (hdone : ∀ ⦃state start result stop⦄, turn state start = .ok (.done result) stop →
      result = state ∧ stop = start)
    {state result : σ} {start stop : Parser} (h : repeated turn state start = .ok result stop) :
    P result ∨ result = state ∧ stop = start := by
  have hrepeating (rounds : List Token) : ∀ {state : σ} {start : Parser},
      repeating turn rounds state start = .ok result stop →
      P result ∨ result = state ∧ stop = start := by
    induction rounds with
    | nil =>
      rintro state start ⟨⟩
      exact .inr ⟨rfl, rfl⟩
    | cons round rounds ih =>
      intro state start hread
      obtain ⟨last, middle, hturn, hrest⟩ := ok_of_bind hread
      cases last with
      | done last =>
        cases hrest
        exact .inr (hdone hturn)
      | again next =>
        rcases ih hrest with hresult | ⟨rfl, _⟩
        · exact .inl hresult
        · exact .inl (hagain hturn)
  exact hrepeating _ h

theorem names_primary (h : Names bound inner) : Names (bound + 1) (primary inner) := by
  intro start name stop hread
  rcases primary_eq_ok hread with ⟨_, _, _, _, htree⟩ | ⟨token, hname, hstart, htree⟩ |
    ⟨left, right, middle, isLeft, isRight, hstart, hvalue⟩
  · cases htree
  · obtain rfl := Expr.var.inj htree
    exact ⟨0, [name], Nat.succ_pos _, .bare hname, hstart⟩
  · obtain ⟨count, tokens, hless, hwrapped, hmiddle⟩ := h hvalue
    refine ⟨count + 1, left :: (tokens ++ [right]), Nat.succ_lt_succ hless,
      .paren isLeft hwrapped isRight, ?_⟩
    rw [hstart, hmiddle, List.cons_append, List.append_assoc]
    rfl

theorem callTurn_eq_again {callee next : Expr} {start stop : Parser}
    (h : callTurn inner callee start = .ok (.again next) stop) :
    ∃ paren arguments, next = .call callee paren arguments := by
  obtain ⟨left?, _, _, h⟩ := ok_of_bind h
  cases left? with
  | none => cases h
  | some left =>
    obtain ⟨arguments, _, _, h⟩ := ok_of_bind h
    obtain ⟨paren, _, _, h⟩ := ok_of_bind h
    cases h
    exact ⟨paren, arguments, rfl⟩

theorem callTurn_eq_done {callee result : Expr} {start stop : Parser}
    (h : callTurn inner callee start = .ok (.done result) stop) :
    result = callee ∧ stop = start := by
  obtain ⟨left?, middle, hleft, h⟩ := ok_of_bind h
  cases left? with
  | none =>
    cases h
    exact ⟨rfl, (acceptIf_eq_none hleft).1⟩
  | some left =>
    obtain ⟨_, _, _, h⟩ := ok_of_bind h
    obtain ⟨_, _, _, h⟩ := ok_of_bind h
    cases h

theorem names_call (h : Names bound inner) : Names (bound + 1) (call inner) := by
  intro start name stop hread
  rw [call_eq] at hread
  obtain ⟨callee, middle, hcallee, hcalls⟩ := ok_of_bind hread
  have hagain {callee next : Expr} {start stop : Parser}
      (hturn : callTurn inner callee start = .ok (.again next) stop) : next ≠ .var name := by
    obtain ⟨paren, arguments, rfl⟩ := callTurn_eq_again hturn
    exact Expr.noConfusion
  rcases repeated_eq_ok (fun _ _ _ _ => hagain) (fun _ _ _ _ => callTurn_eq_done) hcalls with
    hne | ⟨rfl, rfl⟩
  · exact absurd rfl hne
  · exact names_primary h hcallee

theorem names_unary (h : Names bound inner) : Names (bound + 1) (unary operand inner) := by
  intro start name stop hread
  obtain ⟨operator?, middle, haccept, hnext⟩ := ok_of_bind hread
  cases operator? with
  | none =>
    obtain ⟨rfl, _⟩ := acceptIf_eq_none haccept
    exact names_call h hnext
  | some operator =>
    obtain ⟨value, _, _, hvalue⟩ := ok_of_bind hnext
    cases hvalue

theorem chainTurn_eq_again {level : Level} {left next : Expr} {start stop : Parser}
    (h : chainTurn level operand left start = .ok (.again next) stop) :
    ∃ operator right, next = level.join left operator right := by
  obtain ⟨operator?, _, _, h⟩ := ok_of_bind h
  cases operator? with
  | none => cases h
  | some operator =>
    obtain ⟨right, _, _, h⟩ := ok_of_bind h
    cases h
    exact ⟨operator, right, rfl⟩

theorem chainTurn_eq_done {level : Level} {left result : Expr} {start stop : Parser}
    (h : chainTurn level operand left start = .ok (.done result) stop) :
    result = left ∧ stop = start := by
  obtain ⟨operator?, middle, haccept, h⟩ := ok_of_bind h
  cases operator? with
  | none =>
    cases h
    exact ⟨rfl, (acceptIf_eq_none haccept).1⟩
  | some operator =>
    obtain ⟨_, _, _, h⟩ := ok_of_bind h
    cases h

theorem names_climb (h : Names bound operand) {some : List Level} (hsome : some ⊆ levels) :
    Names bound (climb operand some) := by
  induction some with
  | nil => exact h
  | cons level tighter ih =>
    intro start name stop hread
    rw [climb, chain_eq] at hread
    obtain ⟨left, middle, hleft, hchain⟩ := ok_of_bind hread
    have hagain {left next : Expr} {start stop : Parser}
        (hturn : chainTurn level (climb operand tighter) left start = .ok (.again next) stop) :
        next ≠ .var name := by
      obtain ⟨operator, right, rfl⟩ := chainTurn_eq_again hturn
      rcases join_cases (hsome (.head _)) with ⟨hjoin, _⟩ | ⟨hjoin, _⟩ <;> rw [hjoin] <;>
        exact Expr.noConfusion
    rcases repeated_eq_ok (fun _ _ _ _ => hagain) (fun _ _ _ _ => chainTurn_eq_done) hchain with
      hne | ⟨rfl, rfl⟩
    · exact absurd rfl hne
    · exact ih (fun other hother => hsome (.tail _ hother)) hleft

theorem assignTo_ne_var {target value : Expr} {equals name : Token} {start stop : Parser} :
    assignTo target equals value start ≠ .ok (.var name) stop := by
  intro h
  cases target <;> cases h

theorem names_assignment (h : Names bound inner) :
    Names (bound + 1) (assignment operand inner) := by
  intro start name stop hread
  obtain ⟨target, middle, htarget, hnext⟩ := ok_of_bind hread
  obtain ⟨equals?, after, hequals, hlast⟩ := ok_of_bind hnext
  cases equals? with
  | none =>
    cases hlast
    obtain ⟨rfl, _⟩ := acceptIf_eq_none hequals
    exact names_climb (names_unary h) (List.Subset.refl levels) htarget
  | some equals =>
    obtain ⟨value, last, _, hassign⟩ := ok_of_bind hlast
    exact absurd hassign assignTo_ne_var

theorem Names.nested {read : Parse Expr} (h : Names bound read) : Names bound (nested read) := by
  intro start name stop hread
  cases hinside : read { start with depth := start.depth + 1 } with
  | error error last =>
    rw [nested_of_error hinside] at hread
    cases hread
  | ok expr last =>
    rw [nested_of_ok hinside] at hread
    cases hread
    obtain ⟨count, tokens, hless, hwrapped, hstart⟩ := h hinside
    exact ⟨count, tokens, hless, hwrapped,
      congrArg (fun parser : Parser => { parser with depth := parser.depth - 1 }) hstart⟩

theorem names_expressionWithin (levels : Nat) : Names levels (expressionWithin levels) := by
  induction levels with
  | zero =>
    rintro start name stop ⟨⟩
  | succ levels ih => exact (names_assignment ih).nested

/-- **What stands in front of an equals sign is read as a name** only if it is that name, in at most
as many pairs of parentheses as levels may be opened. -/
theorem names_target (levels : Nat) :
    Names (levels + 1) (climb (unary (operandWithin levels) (expressionWithin levels))
      Scriptlet.levels) :=
  names_climb (names_unary (names_expressionWithin levels)) (List.Subset.refl _)

end Names

/-- **A name in parentheses is read as the name**, if enough levels may be opened. -/
theorem Wrapped.takes {name : Token} {count : Nat} {tokens : List Token}
    (h : Wrapped name count tokens) {levels : Nat} (hle : count ≤ levels) {next : TokenKind}
    (hnext : next ≠ .leftParen) :
    Takes (call (expressionWithin levels)) tokens next (.var name) [] := by
  refine Takes.call ?_ hnext
  induction h generalizing levels next with
  | bare isName =>
    intro parser rest _
    rw [Parser.noting_nil]
    exact primary_facing_name _ parser rest isName
  | @paren count left right tokens isLeft _ isRight ih =>
    obtain ⟨levels, rfl⟩ := Nat.exists_eq_add_of_lt hle
    intro parser rest _
    have hinside : Takes (expressionWithin (count + levels + 1)) tokens .rightParen (.var name)
        [] :=
      takes_expressionWithin ((ih (Nat.le_add_right _ _) (by decide)).call (by decide)) (by decide)
        (by decide)
    rw [List.cons_append, List.append_assoc, List.singleton_append,
      primary_facing_paren _ parser _ isLeft, bind_of_ok (hinside parser (right :: rest) isRight),
      Parser.noting_nil]
    exact bind_of_ok (expect_facing parser rest isRight (by decide) _)

/-- In front of an equals sign, it is the names in parentheses that are read as names. -/
theorem target_eq_name_iff {levels : Nat} {start stop : Parser} {name : Token}
    (hnext : kindAhead stop.rest .endOfInput = .assign) :
    climb (unary (operandWithin levels) (expressionWithin levels)) Scriptlet.levels start =
        .ok (.var name) stop ↔
      ∃ count tokens, count ≤ levels ∧ Wrapped name count tokens ∧
        start = stop.facing (tokens ++ stop.rest) := by
  constructor
  · intro hread
    obtain ⟨count, tokens, hless, hwrapped, hstart⟩ := names_target levels hread
    exact ⟨count, tokens, Nat.le_of_lt_succ hless, hwrapped, hstart⟩
  · rintro ⟨count, tokens, hle, hwrapped, hstart⟩
    have htakes : Takes (unary (operandWithin levels) (expressionWithin levels)) tokens .assign
        (.var name) [] := takes_unary (hwrapped.takes hle (by decide))
    have hclimb := htakes.climb (by decide : ∀ level ∈ Scriptlet.levels, _) stop stop.rest hnext
    rwa [← hstart, Parser.noting_nil] at hclimb

/-! ## At an equals sign -/

section Assignment

variable {operand inner : Parse Expr} {start behind : Parser} {target : Expr} {equals : Token}

/-- The value is read behind the sign, whatever the target is. -/
theorem assignment_facing
    (h : climb (unary operand inner) levels start =
      .ok target (behind.facing (equals :: behind.rest))) (hequals : equals.kind = .assign) :
    assignment operand inner start = (inner >>= assignTo target equals) behind := by
  rw [assignment, bind_of_ok h, bind_of_ok (accept_facing behind _ hequals (by decide))]
  rfl

/-- **Whatever is not a name cannot be assigned to**: this is noted and the target is kept. -/
theorem assignTo_other (h : ∀ name, target ≠ .var name) (equals : Token) (value : Expr)
    (stop : Parser) :
    assignTo target equals value stop = .ok target (stop.report ⟨.invalidTarget, equals⟩) := by
  cases target with
  | var name => exact absurd rfl (h name)
  | _ => rfl

end Assignment

end Parse

/-! ## Signs that were passed -/

/-- An expression that is not an assignment, or one whose target stands among tokens in front of an
equals sign. -/
def Expr.Targeted (tokens : List Token) (expr : Expr) : Prop :=
  ∀ ⦃name : Token⦄ ⦃value : Expr⦄, expr = .assign name value → ∃ count target equals,
    Parse.Wrapped name count target ∧ equals.kind = .assign ∧ target ++ [equals] <:+: tokens

/-- The equals signs among some tokens. -/
def Token.signs (tokens : List Token) : List Token := tokens.filter (·.kind = .assign)

/-- The tokens at which it was noted that something cannot be assigned to. -/
def ParseError.targets (errors : Array ParseError) : List Token :=
  (errors.toList.filter (·.cause = .invalidTarget)).map ParseError.token

theorem Token.signs_append (tokens more : List Token) :
    signs (tokens ++ more) = signs tokens ++ signs more := List.filter_append _ _

theorem ParseError.targets_append (errors more : Array ParseError) :
    targets (errors ++ more) = targets errors ++ targets more := by
  simp [targets]

/-- On the way from one parser to another, errors about targets were noted at equals signs that
were passed, at each no more often than it was passed. -/
def Parser.Crosses (start stop : Parser) : Prop :=
  ∃ (tokens : List Token) (errors : Array ParseError), start.rest = tokens ++ stop.rest ∧
    stop.diagnostics = start.diagnostics ++ errors ∧
    ∀ sign, (ParseError.targets errors).count sign ≤ (Token.signs tokens).count sign

namespace Parser.Crosses

variable {start middle stop : Parser}

theorem trans (first : start.Crosses middle) (second : middle.Crosses stop) :
    start.Crosses stop := by
  obtain ⟨tokens, errors, hrest, hnoted, hcount⟩ := first
  obtain ⟨later, more, hrest', hnoted', hcount'⟩ := second
  refine ⟨tokens ++ later, errors ++ more, by rw [hrest, hrest', List.append_assoc],
    by rw [hnoted', hnoted, Array.append_assoc], fun sign => ?_⟩
  rw [ParseError.targets_append, Token.signs_append, List.count_append, List.count_append]
  exact Nat.add_le_add (hcount sign) (hcount' sign)

/-- Nothing was noted. -/
theorem of_reaches (h : start.Reaches stop) (hnoted : stop.diagnostics = start.diagnostics) :
    start.Crosses stop := by
  obtain ⟨tokens, hrest, _⟩ := h.consumed
  exact ⟨tokens, #[], hrest, by rw [hnoted, Array.append_empty], fun _ => Nat.zero_le _⟩

theorem refl (parser : Parser) : parser.Crosses parser := of_reaches (.refl parser) rfl

theorem token (token : Token) (parser : Parser) :
    (parser.facing (token :: parser.rest)).Crosses parser :=
  ⟨[token], #[], rfl, (Array.append_empty).symm, fun _ => Nat.zero_le _⟩

theorem report {error : ParseError} (h : error.cause ≠ .invalidTarget) (parser : Parser) :
    parser.Crosses (parser.report error) := by
  refine ⟨[], #[error], rfl, rfl, fun sign => ?_⟩
  have hnone : ParseError.targets #[error] = [] := by simp [ParseError.targets, h]
  rw [hnone]
  exact Nat.zero_le _

/-- The error about a target pays with the sign in front of the value. -/
theorem invalid {equals : Token} (h : middle.Crosses stop) (hequals : equals.kind = .assign) :
    (middle.facing (equals :: middle.rest)).Crosses (stop.report ⟨.invalidTarget, equals⟩) := by
  obtain ⟨tokens, errors, hrest, hnoted, hcount⟩ := h
  refine ⟨equals :: tokens, errors ++ #[⟨.invalidTarget, equals⟩], congrArg (equals :: ·) hrest,
    ?_, fun sign => ?_⟩
  · show stop.diagnostics ++ #[_] = middle.diagnostics ++ (errors ++ #[_])
    rw [hnoted, Array.append_assoc]
  · have hone : ParseError.targets #[⟨.invalidTarget, equals⟩] = [equals] := rfl
    have hsigns : Token.signs (equals :: tokens) = equals :: Token.signs tokens := by
      simp [Token.signs, hequals]
    have hless := hcount sign
    rw [ParseError.targets_append, hone, hsigns, List.count_append, List.count_cons,
      List.count_cons, List.count_nil]
    omega

theorem suffix (h : start.Crosses stop) {tokens : List Token} (hstart : start.rest <:+ tokens) :
    stop.rest <:+ tokens := by
  obtain ⟨passed, _, hrest, _⟩ := h
  exact (hrest ▸ List.suffix_append passed stop.rest).trans hstart

end Parser.Crosses

namespace Parse

variable {α β σ : Type} {P : α → Prop} {Q : β → Prop} {tokens : List Token}

/-- An outcome that answers for the errors about targets, with a result of some kind. -/
inductive Answer (start : Parser) (P : α → Prop) : EStateM.Result ParseError Parser α → Prop
  | ok {result : α} {stop : Parser} : start.Crosses stop → P result →
      Answer start P (.ok result stop)
  | error {error : ParseError} {stop : Parser} : start.Crosses stop →
      error.cause ≠ .invalidTarget → Answer start P (.error error stop)

/-- A read that answers for the errors about targets wherever it starts among some tokens. -/
def Answers (tokens : List Token) (P : α → Prop) (read : Parse α) : Prop :=
  ∀ start : Parser, start.rest <:+ tokens → Answer start P (read start)

/-! ## Reads one behind the other -/

theorem Answer.after {start middle : Parser} {outcome : EStateM.Result ParseError Parser α}
    (h : Answer middle P outcome) (hcrosses : start.Crosses middle) : Answer start P outcome := by
  cases h with
  | ok hstop hresult => exact .ok (hcrosses.trans hstop) hresult
  | error hstop hcause => exact .error (hcrosses.trans hstop) hcause

theorem Answers.of_ok {read : Parse α} (h : Answers tokens P read) {start stop : Parser}
    {result : α} (hread : read start = .ok result stop) (hstart : start.rest <:+ tokens) :
    start.Crosses stop ∧ P result := by
  have hanswer := h start hstart
  rw [hread] at hanswer
  cases hanswer with
  | ok hcrosses hresult => exact ⟨hcrosses, hresult⟩

theorem Answers.of_error {read : Parse α} (h : Answers tokens P read) {start stop : Parser}
    {error : ParseError} (hread : read start = .error error stop)
    (hstart : start.rest <:+ tokens) :
    start.Crosses stop ∧ error.cause ≠ .invalidTarget := by
  have hanswer := h start hstart
  rw [hread] at hanswer
  cases hanswer with
  | error hcrosses hcause => exact ⟨hcrosses, hcause⟩

theorem Answers.crosses {read : Parse α} (h : Answers tokens P read) {start : Parser}
    (hstart : start.rest <:+ tokens) : start.Crosses (stateAfter read start) := by
  unfold stateAfter
  cases hread : read start with
  | ok result stop => exact (h.of_ok hread hstart).1
  | error error stop => exact (h.of_error hread hstart).1

theorem Answers.bind {read : Parse α} {next : α → Parse β} (h : Answers tokens P read)
    (hnext : ∀ result, P result → Answers tokens Q (next result)) :
    Answers tokens Q (read >>= next) := by
  intro start hstart
  cases hread : read start with
  | ok result middle =>
    obtain ⟨hcrosses, hresult⟩ := h.of_ok hread hstart
    rw [bind_of_ok hread]
    exact (hnext result hresult middle (hcrosses.suffix hstart)).after hcrosses
  | error error middle =>
    obtain ⟨hcrosses, hcause⟩ := h.of_error hread hstart
    rw [bind_of_error hread]
    exact .error hcrosses hcause

theorem Answers.nested {read : Parse α} (h : Answers tokens P read) :
    Answers tokens P (nested read) := by
  intro start hstart
  cases hread : read { start with depth := start.depth + 1 } with
  | ok result stop =>
    obtain ⟨hcrosses, hresult⟩ := h.of_ok hread hstart
    rw [nested_of_ok hread]
    exact .ok hcrosses hresult
  | error error stop =>
    obtain ⟨hcrosses, hcause⟩ := h.of_error hread hstart
    rw [nested_of_error hread]
    exact .error hcrosses hcause

theorem crosses_advanced (parser : Parser) : parser.Crosses parser.advanced :=
  .of_reaches parser.reaches_advanced (diagnostics_advanced parser)

/-- What a read answers for is passed on from the reads that it is made of. No error that a read
fails with is about a target, so none is noted a second time by going on. -/
theorem answers_lawful (tokens : List Token) : Judgment.Lawful ⟨Answers tokens⟩ where
  pure h := fun start _ => .ok (.refl start) h
  bind := Answers.bind
  current := fun start _ => .ok (.refl start) trivial
  rounds := fun start _ => .ok (.refl start) trivial
  advance := fun start _ => .ok (crosses_advanced start) trivial
  acceptIf wanted := by
    intro start _
    unfold acceptIf
    split
    · exact .ok (crosses_advanced start) trivial
    · exact .ok (.refl start) trivial
  fail h := fun start _ => .error (.refl start) h
  report h := fun start _ => .ok (.report h start) trivial
  nestedStatement {_ _ read} h := by
    intro start hstart
    cases hread : read { start with statementDepth := start.statementDepth + 1 } with
    | ok result stop =>
      obtain ⟨hcrosses, hresult⟩ := h.of_ok hread hstart
      rw [nestedStatement_of_ok hread]
      exact .ok hcrosses hresult
    | error error stop =>
      obtain ⟨hcrosses, hcause⟩ := h.of_error hread hstart
      rw [nestedStatement_of_error hread]
      exact .error hcrosses hcause
  recovering {_ _ read _} h hsubstitute := by
    intro start hstart
    cases hread : read start with
    | ok result stop =>
      obtain ⟨hcrosses, hresult⟩ := h.of_ok hread hstart
      rw [recovering_of_ok hread]
      exact .ok hcrosses hresult
    | error error stop =>
      obtain ⟨hcrosses, hcause⟩ := h.of_error hread hstart
      cases hfatal : error.isFatal with
      | true =>
        rw [recovering_of_fatal hread hfatal]
        exact .error hcrosses hcause
      | false =>
        rw [recovering_of_mild hread hfatal]
        have hskip : (stop.report error).Crosses
            { stop.report error with rest := skipTokens stop.rest } :=
          .of_reaches (forward_synchronize (stop.report error)) rfl
        exact .ok ((hcrosses.trans (.report hcause stop)).trans hskip) hsubstitute
  within _ h := fun start hstart => h _ start hstart

/-! ## Expressions -/

/-- All assignments in the result have their targets in front of equals signs. -/
abbrev AnswersExpr (tokens : List Token) : Parse Expr → Prop :=
  Answers tokens (Expr.Throughout (Expr.Targeted tokens))

section Expressions

variable {operand inner : Parse Expr}

/-- An expression that is not an assignment itself. -/
theorem throughout_of_parts {expr : Expr} (h : ∀ name value, expr ≠ .assign name value)
    (hparts : ∀ part ∈ expr.parts, part.Throughout (Expr.Targeted tokens)) :
    expr.Throughout (Expr.Targeted tokens) :=
  .intro (fun name value heq => absurd heq (h name value)) hparts

theorem answers_climb {tightest : Parse Expr} (h : AnswersExpr tokens tightest)
    {some : List Level} (hsome : some ⊆ levels) : AnswersExpr tokens (climb tightest some) := by
  have law := answers_lawful tokens
  induction some with
  | nil => exact h
  | cons level tighter ih =>
    have hlevel := hsome (.head _)
    have htighter := ih fun other hother => hsome (.tail _ hother)
    rw [climb, chain_eq]
    refine htighter.bind fun first hfirst => law.repeated (fun left hleft => ?_) hfirst
    refine law.bind (law.acceptIf _) fun operator? _ => ?_
    cases operator? with
    | none => exact law.pure hleft
    | some operator =>
      refine htighter.bind fun right hright => law.pure (throughout_of_parts ?_ ?_)
      · rcases join_cases hlevel with ⟨hjoin, _⟩ | ⟨hjoin, _⟩ <;> rw [hjoin] <;>
          exact fun _ _ => Expr.noConfusion
      · rw [Turn.state, parts_join hlevel]
        exact List.forall_mem_cons.mpr ⟨hleft, List.forall_mem_singleton.mpr hright⟩

theorem answers_primary (h : AnswersExpr tokens inner) : AnswersExpr tokens (primary inner) := by
  have law := answers_lawful tokens
  have hsimple (tree : Expr) (htree : ∀ name value, tree ≠ .assign name value)
      (hparts : tree.parts = []) :
      AnswersExpr tokens (do let _ ← advance; return tree : Parse Expr) :=
    law.bind law.advance fun _ _ =>
      law.pure (throughout_of_parts htree (by rw [hparts]; exact List.forall_mem_nil _))
  refine law.bind law.current fun token _ => ?_
  split
  case h_3 =>
    split
    · exact hsimple _ (fun _ _ => Expr.noConfusion) rfl
    · exact law.fail ParseCause.noConfusion
  case h_8 =>
    exact law.bind law.advance fun _ _ => h.bind fun value hvalue =>
      law.bind (law.expect _ ParseCause.noConfusion) fun _ _ => law.pure hvalue
  case h_9 => exact law.fail ParseCause.noConfusion
  all_goals exact hsimple _ (fun _ _ => Expr.noConfusion) rfl

theorem answers_call (h : AnswersExpr tokens inner) : AnswersExpr tokens (call inner) := by
  have law := answers_lawful tokens
  rw [call_eq]
  refine (answers_primary h).bind fun first hfirst => law.repeated (fun callee hcallee => ?_) hfirst
  refine law.bind (law.acceptIf _) fun left? _ => ?_
  cases left? with
  | none => exact law.pure hcallee
  | some left =>
    exact law.bind (law.entries h ParseCause.noConfusion) fun arguments harguments =>
      law.bind (law.expect _ ParseCause.noConfusion) fun paren _ =>
        law.pure (throughout_of_parts (fun _ _ => Expr.noConfusion)
          (List.forall_mem_cons.mpr ⟨hcallee, harguments⟩))

theorem answers_unary (hoperand : AnswersExpr tokens operand) (h : AnswersExpr tokens inner) :
    AnswersExpr tokens (unary operand inner) := by
  have law := answers_lawful tokens
  refine law.bind (law.acceptIf _) fun operator? _ => ?_
  cases operator? with
  | none => exact answers_call h
  | some operator =>
    exact hoperand.bind fun expr hexpr =>
      law.pure (throughout_of_parts (fun _ _ => Expr.noConfusion)
        (List.forall_mem_singleton.mpr hexpr))

/-- The target of an assignment stands in front of the sign, since it was read as a name. -/
theorem targeted_of_names {bound : Nat} {read : Parse Expr} (h : Names bound read)
    {start stop : Parser} {name equals : Token} (value : Expr)
    (hread : read start = .ok (.var name) (stop.facing (equals :: stop.rest)))
    (hequals : equals.kind = .assign) (hstart : start.rest <:+ tokens) :
    (Expr.assign name value).Targeted tokens := by
  rintro _ _ ⟨⟩
  obtain ⟨count, target, _, hwrapped, rfl⟩ := h hread
  refine ⟨count, target, equals, hwrapped, hequals, List.IsInfix.trans ?_ hstart.isInfix⟩
  rw [Parser.facing_rest, Parser.facing_rest, List.append_cons target equals stop.rest]
  exact (List.prefix_append _ _).isInfix

theorem answers_assignment {bound : Nat} (hnames : Names bound inner)
    (hoperand : AnswersExpr tokens operand) (h : AnswersExpr tokens inner) :
    AnswersExpr tokens (assignment operand inner) := by
  have hclimb := answers_climb (answers_unary hoperand h) (List.Subset.refl levels)
  intro start hstart
  cases htarget : climb (unary operand inner) levels start with
  | error error middle =>
    obtain ⟨hcrosses, hcause⟩ := hclimb.of_error htarget hstart
    rw [assignment, bind_of_error htarget]
    exact .error hcrosses hcause
  | ok target middle =>
    obtain ⟨hcrosses, hthroughout⟩ := hclimb.of_ok htarget hstart
    by_cases hkind : middle.current.kind = .assign
    case neg =>
      have haccept : accept .assign middle = .ok none middle :=
        accept_facing_none middle middle.rest (by rwa [← middle.current_kind])
      rw [assignment, bind_of_ok htarget, bind_of_ok haccept]
      exact .ok hcrosses hthroughout
    obtain ⟨behind, equals, hequals, rfl⟩ : ∃ (behind : Parser) (equals : Token),
        equals.kind = .assign ∧ middle = behind.facing (equals :: behind.rest) :=
      ⟨middle.facing middle.rest.tail, middle.current, hkind,
        Parser.eq_facing_current (by rw [hkind]; decide)⟩
    have hbehind := hcrosses.trans (.token equals behind)
    rw [assignment_facing htarget hequals]
    cases hvalue : inner behind with
    | error error stop =>
      obtain ⟨hstop, hcause⟩ := h.of_error hvalue (hbehind.suffix hstart)
      rw [bind_of_error hvalue]
      exact .error (hbehind.trans hstop) hcause
    | ok value stop =>
      obtain ⟨hstop, hthroughout'⟩ := h.of_ok hvalue (hbehind.suffix hstart)
      rw [bind_of_ok hvalue]
      by_cases hname : ∃ name, target = .var name
      · obtain ⟨name, rfl⟩ := hname
        have htargeted := targeted_of_names
          (names_climb (names_unary hnames) (List.Subset.refl levels)) value htarget hequals hstart
        exact .ok (hbehind.trans hstop)
          (.intro htargeted (List.forall_mem_singleton.mpr hthroughout'))
      · rw [assignTo_other (not_exists.mp hname)]
        exact .ok (hcrosses.trans (hstop.invalid hequals)) hthroughout

theorem answers_within (tokens : List Token) (levels : Nat) :
    AnswersExpr tokens (expressionWithin levels) ∧ AnswersExpr tokens (operandWithin levels) := by
  have law := answers_lawful tokens
  induction levels with
  | zero => exact ⟨law.fail ParseCause.noConfusion, law.fail ParseCause.noConfusion⟩
  | succ levels ih =>
    obtain ⟨hinner, hoperand⟩ := ih
    exact ⟨(answers_assignment (names_expressionWithin levels) hoperand hinner).nested,
      (answers_unary hoperand hinner).nested⟩

theorem answers_expression : AnswersExpr tokens expression :=
  fun start hstart => (answers_within tokens _).1 start hstart

end Expressions

/-- **A program answers for its assignments** and for the errors about targets. -/
theorem answers_program (tokens : List Token) :
    Answers tokens (fun statements : List Stmt =>
      ∀ stmt ∈ statements, stmt.Built (Expr.Throughout (Expr.Targeted tokens))) program :=
  (answers_lawful tokens).program answers_expression
    (.expression (throughout_of_parts (fun _ _ => Expr.noConfusion) (List.forall_mem_nil _)))

end Parse

/-! ## Programs -/

theorem Stmt.Within.exprs {exprs : Expr → Prop} {part whole : Stmt} (h : part.Within whole)
    (hwhole : whole.Built exprs) : ∀ expr ∈ part.exprs, exprs expr := by
  induction h with
  | self => exact fun expr hmem => hwhole.of_mem_exprs hmem
  | part hmem _ ih => exact ih (hwhole.of_mem_parts hmem)

/-- What ends with a sign does not reach into tokens behind that hold none. -/
theorem infix_of_infix_append {target tokens added : List Token} {equals : Token}
    (h : target ++ [equals] <:+: tokens ++ added) (hadded : equals ∉ added) :
    target ++ [equals] <:+: tokens := by
  obtain ⟨before, behind, hsplit⟩ := h
  have hsplit' : (before ++ target) ++ equals :: behind = tokens ++ added := by
    rw [← hsplit]
    simp
  rcases List.append_eq_append_iff.mp hsplit' with
    ⟨middle, hmiddle, hrest⟩ | ⟨middle, hmiddle, hrest⟩
  · cases middle with
    | nil => exact absurd (hrest ▸ List.mem_cons_self : equals ∈ [] ++ added) hadded
    | cons first middle =>
      obtain ⟨rfl, _⟩ := List.cons.inj hrest
      exact ⟨before, middle, by simp [hmiddle]⟩
  · exact absurd (hrest ▸ List.mem_append_right _ List.mem_cons_self) hadded

theorem Expr.Targeted.of_append {tokens added : List Token} {expr : Expr}
    (h : expr.Targeted (tokens ++ added)) (hadded : ∀ token ∈ added, token.kind ≠ .assign) :
    expr.Targeted tokens := by
  intro name value heq
  obtain ⟨count, target, equals, hwrapped, hequals, hinfix⟩ := h heq
  exact ⟨count, target, equals, hwrapped, hequals,
    infix_of_infix_append hinfix fun hmem => hadded equals hmem hequals⟩

/-- A parser over tokens may add end marks, and nothing else. -/
theorem rest_ofTokens_marks (tokens : List Token) :
    ∃ added, (Parser.ofTokens tokens).rest = tokens ++ added ∧
      ∀ token ∈ added, token.kind = .endOfInput := by
  unfold Parser.ofTokens
  split
  · rename_i h
    rw [List.getLast?_eq_none_iff.mp h]
    exact ⟨_, rfl, List.forall_mem_singleton.mpr rfl⟩
  · split
    · exact ⟨[], (List.append_nil tokens).symm, List.forall_mem_nil _⟩
    · exact ⟨_, rfl, List.forall_mem_singleton.mpr rfl⟩

section

open Parse

/-- **A name can be assigned to, and so can a name in parentheses, and nothing else.** In a program
that is read from any tokens, each assignment has a target that is the name in some number of pairs
of parentheses, possibly none, directly in front of an equals sign. Errors about targets are noted
at equals signs, at each no more often than it stands among the tokens, whether the program can be
read or not. Wherever what was read of an expression ends in front of an equals sign, the value
behind the sign is read. If there is none, reading fails as the value does. Otherwise the result is
the assignment if the target is a name; if it is anything else, one error is noted at the sign,
behind those noted in the value, and the result is the target. And the target is a name exactly if
that name was read, in at most as many pairs of parentheses as levels were left. -/
theorem targets_decided (tokens : List Token) :
    (∀ {statements : List Stmt} {stop : Parser},
      program (.ofTokens tokens) = .ok statements stop →
      ∀ stmt ∈ statements, ∀ part : Stmt, part.Within stmt →
        ∀ expr ∈ part.exprs, expr.Throughout (Expr.Targeted tokens)) ∧
    (∀ sign, (ParseError.targets (stateAfter program (.ofTokens tokens)).diagnostics).count sign ≤
      (Token.signs tokens).count sign) ∧
    (ParseCause.invalidTarget.message = "Invalid assignment target." ∧
      ParseCause.invalidTarget.isFatal = false) ∧
    ∀ (levels : Nat) {start behind : Parser} {target : Expr} {equals : Token},
      climb (unary (operandWithin levels) (expressionWithin levels)) Scriptlet.levels start =
        .ok target (behind.facing (equals :: behind.rest)) → equals.kind = .assign →
      (∀ {value : Expr} {stop : Parser}, expressionWithin levels behind = .ok value stop →
        (∀ name, target = .var name →
          assignment (operandWithin levels) (expressionWithin levels) start =
            .ok (.assign name value) stop) ∧
        ((∀ name, target ≠ .var name) →
          assignment (operandWithin levels) (expressionWithin levels) start =
            .ok target (stop.report ⟨.invalidTarget, equals⟩))) ∧
      (∀ {error : ParseError} {stop : Parser}, expressionWithin levels behind = .error error stop →
        assignment (operandWithin levels) (expressionWithin levels) start = .error error stop) ∧
      ∀ name, target = .var name ↔ ∃ count wrapped, count ≤ levels ∧ Wrapped name count wrapped ∧
        start = behind.facing (wrapped ++ equals :: behind.rest) := by
  obtain ⟨added, hadded, hmarks⟩ := rest_ofTokens_marks tokens
  have hnone (token : Token) (hmem : token ∈ added) : token.kind ≠ .assign := by
    rw [hmarks token hmem]
    decide
  have hstart : (Parser.ofTokens tokens).rest <:+ tokens ++ added :=
    ⟨[], by rw [List.nil_append, hadded]⟩
  have hprogram := answers_program (tokens ++ added)
  refine ⟨?_, ?_, ⟨rfl, rfl⟩, ?_⟩
  · intro statements stop hread stmt hstmt part hpart expr hexpr
    obtain ⟨_, hbuilt⟩ := hprogram.of_ok hread hstart
    exact (hpart.exprs (hbuilt stmt hstmt) expr hexpr).imp fun _ htargeted =>
      htargeted.of_append hnone
  · intro sign
    obtain ⟨passed, errors, hrest, hnoted, hcount⟩ := hprogram.crosses hstart
    have hsigns : Token.signs added = [] :=
      List.filter_eq_nil_iff.mpr fun token hmem => by simpa using hnone token hmem
    have hall : Token.signs tokens = Token.signs passed ++
        Token.signs (stateAfter program (.ofTokens tokens)).rest := by
      rw [← Token.signs_append, ← hrest, hadded, Token.signs_append, hsigns, List.append_nil]
    have hempty : (Parser.ofTokens tokens).diagnostics = #[] := rfl
    rw [hnoted, hempty, Array.empty_append, hall, List.count_append]
    exact Nat.le_trans (hcount sign) (Nat.le_add_right _ _)
  · intro levels start behind target equals htarget hequals
    have hassignment := assignment_facing htarget hequals
    refine ⟨fun hvalue => ⟨?_, fun hother => ?_⟩, fun hvalue => ?_, fun name => ?_⟩
    · rintro name rfl
      rw [hassignment, bind_of_ok hvalue]
      rfl
    · rw [hassignment, bind_of_ok hvalue, assignTo_other hother]
    · rw [hassignment, bind_of_error hvalue]
    · have hiff := @target_eq_name_iff levels start (behind.facing (equals :: behind.rest)) name
        hequals
      rw [htarget] at hiff
      refine Iff.trans ⟨fun heq => by rw [heq], fun heq => ?_⟩ hiff
      exact (EStateM.Result.ok.inj heq).1

end

namespace Sample

/-- The name in `(a) = 1`. -/
def targetName : Token := ⟨.identifier, "a", ⟨1, 2⟩⟩

/-- The sign in `(a) = 1`. -/
def targetSign : Token := ⟨.assign, "=", ⟨1, 5⟩⟩

/-- The tokens of `(a) = 1`. -/
def wrappedTarget : List Token :=
  [⟨.leftParen, "(", ⟨1, 1⟩⟩, targetName, ⟨.rightParen, ")", ⟨1, 3⟩⟩, targetSign,
    ⟨.number, "1", ⟨1, 7⟩⟩, .endMark ⟨1, 8⟩]

/-- **A name in parentheses is assigned to**, and nothing is noted, although the name does not stand
directly in front of an equals sign. -/
theorem wrapped_target_assigned :
    (∃ stop, Parse.program (.ofTokens wrappedTarget) =
        .ok [.expression (.assign targetName (.literal (.integer 1)))] stop ∧
      stop.diagnostics = #[]) ∧
    ∀ equals : Token, equals.kind = .assign → ¬ [targetName, equals] <:+: wrappedTarget := by
  refine ⟨⟨_, by rfl, rfl⟩, ?_⟩
  intro equals hequals hinfix
  -- the only token behind the name is the closing parenthesis
  have hparen : equals = ⟨.rightParen, ")", ⟨1, 3⟩⟩ := by
    simpa [wrappedTarget, targetName, targetSign, Token.endMark, List.infix_cons_iff,
      List.cons_prefix_cons] using hinfix
  rw [hparen] at hequals
  exact TokenKind.noConfusion hequals

end Sample

end Scriptlet
