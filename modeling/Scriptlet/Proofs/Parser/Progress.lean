import Scriptlet.Proofs.Parser.Program

/-!
# Reading moves on

A read that gives a result has consumed a token, and so has one that fails fatally, unless it had no
level left to begin with. A declaration that is read in front of a token consumes it even if it is
spoiled, because recovery skips a token at least. Only where all levels for statements are open does
it stay: then it fails in front of its first token, unless that is `function`. Nothing of this
depends on the tokens being those of a script.

## Main definitions

* `Parser.ahead` — how many tokens are left in front of the end
* `Parser.Moved`, `Parse.Moves`, `Parse.MovesAt` — an outcome for which a token was consumed, and a
  read that has only such outcomes, anywhere or in front of a token
* `Barred` — no declaration can be read in front of a token
* `Parser.Proceeds` — what declarations come to

## Main results

* `Parse.moves_expression`, `Parse.moves_statementWithin` — expressions and statements consume
* `Parse.proceeds_declaration` — so do declarations, fatal errors included, with one exception
-/

namespace Scriptlet

/-- All levels for statements are open, and the next token does not start a function, which is
consumed before the levels are counted. -/
def Barred (statements : Nat) (token : Token) : Prop :=
  maxStatementNesting ≤ statements ∧ token.kind ≠ .kwFunction

namespace Parser

/-- How many tokens are left in front of the end. -/
def ahead (parser : Parser) : Nat := (beforeEnd parser.rest).length

theorem ahead_eq_zero_iff (parser : Parser) :
    parser.ahead = 0 ↔ kindAhead parser.rest .endOfInput = .endOfInput := by
  unfold ahead
  cases parser.rest with
  | nil => simp [beforeEnd]
  | cons token rest =>
    by_cases h : token.kind = .endOfInput
    · simp [beforeEnd_cons_end h, h]
    · simp [beforeEnd_cons h, h]

theorem ahead_pos_iff (parser : Parser) : 0 < parser.ahead ↔ parser.atEnd = false := by
  rw [Nat.pos_iff_ne_zero, Ne, ahead_eq_zero_iff, ← atEnd_iff, Bool.not_eq_true]

/-- The tokens that were consumed are missing from those in front of the end. -/
theorem Reaches.ahead_eq {start stop : Parser} (h : start.Reaches stop) :
    ∃ consumed, start.rest = consumed ++ stop.rest ∧
      start.ahead = consumed.length + stop.ahead := by
  obtain ⟨consumed, hrest, hkinds⟩ := h.consumed
  refine ⟨consumed, hrest, ?_⟩
  have hbefore : beforeEnd start.rest = consumed ++ beforeEnd stop.rest := by
    rw [hrest]
    exact List.takeWhile_append_of_pos (by simpa using hkinds)
  rw [ahead, hbefore, List.length_append, ahead]

theorem Reaches.ahead_le {start stop : Parser} (h : start.Reaches stop) :
    stop.ahead ≤ start.ahead := by
  obtain ⟨consumed, _, hahead⟩ := h.ahead_eq
  omega

theorem ahead_advanced {parser : Parser} (h : parser.atEnd = false) :
    parser.advanced.ahead + 1 = parser.ahead := by
  have hkind : parser.current.kind ≠ .endOfInput := of_decide_eq_false h
  rw [eq_facing_current hkind, advanced_facing _ _ hkind, ahead, ahead, facing_rest, facing_rest,
    beforeEnd_cons hkind, List.length_cons]

/-- An outcome for which a token was consumed, fatal errors included if the read was ready. -/
def Moved {α : Type} (start : Parser) (ready : Prop) : EStateM.Result ParseError Parser α → Prop
  | .ok _ stop => stop.ahead < start.ahead
  | .error error stop => error.isFatal = true → ready → stop.ahead < start.ahead

theorem Moved.imp {α : Type} {start : Parser} {ready other : Prop}
    {outcome : EStateM.Result ParseError Parser α} (h : start.Moved ready outcome)
    (himp : other → ready) : start.Moved other outcome := by
  cases outcome with
  | ok result stop => exact h
  | error error stop => exact fun hfatal hother => h hfatal (himp hother)

/-- What a declaration in front of a token comes to, with a number of statements open: a token is
consumed, unless the declaration is barred, and then it fails in place. -/
structure Proceeds {α : Type} (start : Parser) (statements : Nat)
    (outcome : EStateM.Result ParseError Parser α) : Prop where
  moved : start.Moved (start.depth < maxNesting ∧ ¬ Barred statements start.current) outcome
  stays : Barred statements start.current →
    outcome = .error ⟨.statementNestingTooDeep, start.current⟩ start

end Parser

namespace Parse

variable {α β : Type} {ready : Parser → Prop} {start : Parser}

/-- A read that consumes a token if it gives a result, and also if it was ready and fails
fatally. -/
def Moves (ready : Parser → Prop) (read : Parse α) : Prop :=
  ∀ start : Parser, start.Moved (ready start) (read start)

/-- A read in front of a token with these properties. -/
def MovesAt (ready : Parser → Prop) (token : Token) (read : Parse α) : Prop :=
  ∀ start : Parser, start.current = token → start.Moved (ready start) (read start)

/-! ## Reads one behind the other -/

/-- What follows behind a token that was consumed does not matter. -/
theorem moved_of_forward {read : Parse α} {middle : Parser} (h : middle.ahead < start.ahead)
    (hread : Forward read) (prop : Prop) : start.Moved prop (read middle) := by
  cases hlast : read middle with
  | ok result stop => exact Nat.lt_of_le_of_lt (hread.of_ok hlast).ahead_le h
  | error error stop => exact fun _ _ => Nat.lt_of_le_of_lt (hread.of_error hlast).ahead_le h

theorem moved_bind {read : Parse α} {next : α → Parse β} {prop : Prop}
    (h : start.Moved prop (read start)) (hnext : ∀ result, Forward (next result)) :
    start.Moved prop ((read >>= next) start) := by
  cases hread : read start with
  | error error middle =>
    rw [hread] at h
    rw [bind_of_error hread]
    exact h
  | ok result middle =>
    rw [hread] at h
    rw [bind_of_ok hread]
    exact moved_of_forward h (hnext result) prop

theorem Moves.bind {read : Parse α} {next : α → Parse β} (h : Moves ready read)
    (hnext : ∀ result, Forward (next result)) : Moves ready (read >>= next) :=
  fun start => moved_bind (h start) hnext

theorem Moves.current {next : Token → Parse α} (h : ∀ token, MovesAt ready token (next token)) :
    Moves ready (Parse.current >>= next) :=
  fun start => h start.current start rfl

theorem movesAt_advance {token : Token} (hkind : token.kind ≠ .endOfInput)
    {next : Token → Parse α} (hnext : ∀ token, Forward (next token)) :
    MovesAt ready token (advance >>= next) := by
  rintro start rfl
  refine moved_bind ?_ hnext
  have hadvanced := start.ahead_advanced (decide_eq_false hkind)
  show start.advanced.ahead < start.ahead
  omega

theorem movesAt_fail {cause : ParseCause} (h : cause.isFatal = false) (token : Token) :
    MovesAt ready token (fail cause : Parse α) := by
  intro start _ hfatal
  exact absurd (h.symm.trans hfatal) Bool.false_ne_true

theorem ahead_of_acceptIf {wanted : TokenKind → Bool} {token : Token} {stop : Parser}
    (h : acceptIf wanted start = .ok (some token) stop) : stop.ahead < start.ahead := by
  obtain ⟨hstart, _, hkind⟩ := acceptIf_eq_some h
  rw [hstart, Parser.ahead, Parser.ahead, Parser.facing_rest, beforeEnd_cons hkind]
  exact Nat.lt_succ_self _

/-- A token was accepted, or another read moves on. -/
theorem Moves.acceptIf {wanted : TokenKind → Bool} {next : Token → Parse α} {other : Parse α}
    (hnext : ∀ token, Forward (next token)) (hother : Moves ready other) :
    Moves ready (do
      match ← Parse.acceptIf wanted with
      | some token => next token
      | none => other) := by
  intro start
  cases haccept : Parse.acceptIf wanted start with
  | error error stop =>
    unfold Parse.acceptIf at haccept
    split at haccept <;> cases haccept
  | ok token? middle =>
    rw [bind_of_ok haccept]
    cases token? with
    | none =>
      obtain ⟨rfl, _⟩ := acceptIf_eq_none haccept
      exact hother middle
    | some token => exact moved_of_forward (ahead_of_acceptIf haccept) (hnext token) _

/-! ## Expressions -/

variable {operand inner : Parse Expr}

theorem moves_primary (h : Forward inner) : Moves ready (primary inner) := by
  refine .current fun token => ?_
  split
  case h_3 hkind =>
    split
    · exact movesAt_advance (by simp [hkind]) fun _ => forward_pure _
    · exact movesAt_fail rfl token
  case h_8 hkind =>
    exact movesAt_advance (by simp [hkind]) fun _ => h.bind fun value =>
      (forward_expect _ _).bind fun _ => forward_pure value
  case h_9 => exact movesAt_fail rfl token
  all_goals
    rename_i hkind
    exact movesAt_advance (by simp [hkind]) fun _ => forward_pure _

theorem moves_call (h : Forward inner) : Moves ready (call inner) :=
  (moves_primary h).bind fun callee => forward_rounds.bind fun rounds =>
    forward_callsFrom h rounds callee

theorem moves_unary (hoperand : Forward operand) (h : Forward inner) :
    Moves ready (unary operand inner) :=
  .acceptIf (fun _ => hoperand.bind fun _ => forward_pure _) (moves_call h)

theorem moves_climb (h : Moves ready operand) (hoperand : Forward operand) (levels : List Level) :
    Moves ready (climb operand levels) := by
  induction levels with
  | nil => exact h
  | cons level tighter ih =>
    exact ih.bind fun left => forward_rounds.bind fun rounds =>
      forward_chainFrom (forward_climb hoperand tighter) level rounds left

theorem moves_assignment (hoperand : Forward operand) (h : Forward inner) :
    Moves ready (assignment operand inner) := by
  have hunary := forward_unary hoperand h
  refine (moves_climb (moves_unary hoperand h) hunary levels).bind fun target =>
    (forward_accept .assign).bind fun equals? => ?_
  cases equals? with
  | some equals => exact h.bind fun value => forward_assignTo target equals value
  | none => exact forward_pure target

theorem moves_nested {read : Parse α} (h : Moves (fun _ => True) read) :
    Moves ready (nested read) := by
  intro start
  have hinside := h { start with depth := start.depth + 1 }
  unfold nested
  cases hread : read { start with depth := start.depth + 1 } with
  | ok result stop =>
    rw [hread] at hinside
    exact hinside
  | error error stop =>
    rw [hread] at hinside
    exact fun hfatal _ => hinside hfatal trivial

theorem moves_expressionWithin (levels : Nat) :
    Moves (fun _ => 0 < levels) (expressionWithin levels) := by
  cases levels with
  | zero => exact fun start _ hready => absurd hready (Nat.lt_irrefl 0)
  | succ levels =>
    obtain ⟨hinner, hoperand⟩ := forward_within levels
    exact moves_nested (moves_assignment hoperand hinner)

/-- **An expression consumes a token**, unless it is spoiled or no level is left for it. -/
theorem moves_expression : Moves (fun start => start.depth < maxNesting) expression := by
  intro start
  have hlevels := moves_expressionWithin (maxNesting - start.depth) start
  unfold expression
  cases hread : expressionWithin (maxNesting - start.depth) start with
  | ok result stop =>
    rw [hread] at hlevels
    exact hlevels
  | error error stop =>
    rw [hread] at hlevels
    exact fun hfatal hready => hlevels hfatal (Nat.sub_pos_of_lt hready)

/-! ## Statements -/

variable {function statement declaration : Parse Stmt}

theorem moves_statementForm (h : Forward statement) (hdeclaration : Forward declaration) :
    Moves (fun start => start.depth < maxNesting) (statementForm statement declaration) := by
  refine .current fun token => ?_
  split <;> rename_i hkind
  · exact movesAt_advance (by simp [hkind]) forward_returnForm
  · exact movesAt_advance (by simp [hkind]) fun _ => forward_expression.bind fun _ =>
      forward_optionalSemicolon.bind fun _ => forward_pure _
  · exact movesAt_advance (by simp [hkind]) fun _ => (forward_block hdeclaration).bind fun _ =>
      forward_pure _
  · exact movesAt_advance (by simp [hkind]) fun _ => forward_branchForm h
  · exact movesAt_advance (by simp [hkind]) fun _ => forward_loopForm h
  · exact fun start _ => moved_bind (moves_expression start) fun _ =>
      forward_optionalSemicolon.bind fun _ => forward_pure _

/-- **A statement consumes a token**, unless it is spoiled or no level is left for it. -/
theorem moves_statementWithin (levels : Nat) :
    Moves (fun start => 0 < levels ∧ start.depth < maxNesting) (statementWithin levels) := by
  intro start
  cases levels with
  | zero => exact fun _ hready => absurd hready.1 (Nat.lt_irrefl 0)
  | succ levels =>
    obtain ⟨hstatement, hfunction⟩ := forward_statementWithin levels
    have hinside := moves_statementForm hstatement (forward_declarationForm hfunction hstatement)
      { start with statementDepth := start.statementDepth + 1 }
    unfold statementWithin nestedStatement
    cases hread : statementForm (statementWithin levels)
        (declarationForm (functionWithin levels) (statementWithin levels))
        { start with statementDepth := start.statementDepth + 1 } with
    | ok result stop =>
      rw [hread] at hinside
      exact hinside
    | error error stop =>
      rw [hread] at hinside
      exact fun hfatal hready => hinside hfatal hready.2

/-! ## Declarations -/

/-- Skipping looks at a token and at the next one. -/
theorem skipTokens_cons_cons {token : Token} (h : token.kind ≠ .endOfInput) (next : Token)
    (rest : List Token) :
    skipTokens (token :: next :: rest) =
      if token.kind = .semicolon then next :: rest
      else if next.kind.startsStatement then next :: rest else skipTokens (next :: rest) := by
  rw [skipTokens.eq_def]
  simp only [if_neg h]

/-- The first token is skipped, and others may be. -/
theorem skipTokens_cons {token : Token} (h : token.kind ≠ .endOfInput) (rest : List Token) :
    skipTokens (token :: rest) = rest ∨ skipTokens (token :: rest) = skipTokens rest := by
  cases rest with
  | nil => exact .inl (by simp [skipTokens, h])
  | cons next rest =>
    rw [skipTokens_cons_cons h]
    split
    · exact .inl rfl
    · split
      · exact .inl rfl
      · exact .inr rfl

/-- Recovery skips a token if there is one in front of the end. -/
theorem ahead_synchronize (h : start.atEnd = false) :
    (stateAfter synchronize start).ahead < start.ahead := by
  have hkind : start.current.kind ≠ .endOfInput := of_decide_eq_false h
  have hle : (beforeEnd (skipTokens start.rest.tail)).length ≤
      (beforeEnd start.rest.tail).length := (forward_synchronize (start.facing _)).ahead_le
  have hahead := start.ahead_advanced h
  rw [Parser.eq_facing_current hkind, Parser.advanced_facing _ _ hkind] at hahead
  show (beforeEnd (skipTokens start.rest)).length < start.ahead
  rw [Parser.eq_facing_current hkind, Parser.facing_rest, ← hahead]
  show _ < (beforeEnd start.rest.tail).length + 1
  rcases skipTokens_cons hkind start.rest.tail with hskip | hskip <;> rw [hskip] <;> omega

/-- What is wrong behind recovery is fatal. -/
theorem isFatal_of_recovering {read : Parse α} {substitute : α} {error : ParseError} {stop : Parser}
    (h : recovering substitute read start = .error error stop) : error.isFatal = true := by
  unfold recovering at h
  split at h
  · cases h
  · split at h
    · cases h
      assumption
    · cases h

/-- After recovery a token is consumed, if there is one in front of the end. -/
theorem moved_recovering {read : Parse α} {prop : Prop} (hread : Forward read)
    (h : start.Moved prop (read start)) (hend : start.atEnd = false) (substitute : α) :
    start.Moved prop (recovering substitute read start) := by
  unfold recovering
  cases hresult : read start with
  | ok result stop =>
    rw [hresult] at h
    exact h
  | error error stop =>
    rw [hresult] at h
    by_cases hfatal : error.isFatal = true
    · simp only [hfatal, if_true]
      exact h
    · simp only [hfatal]
      change (stateAfter synchronize (stop.report error)).ahead < start.ahead
      have hle := (hread.of_error hresult).ahead_le
      by_cases hstop : stop.atEnd = true
      · have hzero : stop.ahead = 0 := (stop.ahead_eq_zero_iff).mpr (stop.atEnd_iff.mp hstop)
        have hpos := start.ahead_pos_iff.mpr hend
        have hskip := (forward_synchronize (stop.report error)).ahead_le
        have hsame : (stop.report error).ahead = stop.ahead := rfl
        omega
      · have hskip := @ahead_synchronize (stop.report error) ((Bool.not_eq_true _).mp hstop)
        have hsame : (stop.report error).ahead = stop.ahead := rfl
        omega

/-- A function is read behind its keyword, so it makes no difference whether a statement could be
read in its place. -/
theorem moved_declarationForm (hfunction : Forward function) (hforward : Forward statement)
    (h : Moves ready statement) (hend : start.atEnd = false) :
    start.Moved (start.current.kind = .kwFunction ∨ ready start)
      (declarationForm function statement start) := by
  refine moved_recovering ?_ ?_ hend _
  · refine (forward_accept .kwFunction).bind fun keyword? => ?_
    cases keyword? with
    | some keyword => exact hfunction
    | none => exact hforward
  · by_cases hkind : start.current.kind = .kwFunction
    · have haccept : accept .kwFunction start = .ok (some start.current) start.advanced := by
        rw [accept, acceptIf, if_pos (by simp [hend, hkind])]
      rw [bind_of_ok haccept]
      exact moved_of_forward (ahead_of_acceptIf haccept) hfunction _
    · exact (Moves.acceptIf (fun _ => hfunction) h start).imp fun hready =>
        hready.resolve_left hkind

/-- Where no level is left, a declaration fails in front of its first token, unless that token is
`function`, which is consumed before the levels are counted. -/
theorem declarationForm_full (hkind : start.current.kind ≠ .kwFunction) :
    declarationForm (functionWithin 0) (statementWithin 0) start =
      .error ⟨.statementNestingTooDeep, start.current⟩ start := by
  have hnone : accept .kwFunction start = .ok none start :=
    accept_facing_none start start.rest (by rwa [← Parser.current_kind])
  rw [declarationForm, recovering, bind_of_ok hnone]
  rfl

/-- **A declaration consumes a token** if there is one in front of the end, also if it is spoiled,
and also if it fails fatally. Only one that is barred fails in front of its first token. -/
theorem proceeds_declarationWithin {levels statements : Nat}
    (hlevels : maxStatementNesting - statements = levels) (hend : start.atEnd = false) :
    start.Proceeds statements
      (declarationForm (functionWithin levels) (statementWithin levels) start) := by
  obtain ⟨hstatement, hfunction⟩ := forward_statementWithin levels
  have hmoved : start.Moved
      (start.current.kind = .kwFunction ∨ 0 < levels ∧ start.depth < maxNesting)
      (declarationForm (functionWithin levels) (statementWithin levels) start) :=
    moved_declarationForm hfunction hstatement (moves_statementWithin levels) hend
  refine ⟨hmoved.imp fun ⟨hdepth, hopen⟩ => ?_, fun ⟨hfull, hkind⟩ => ?_⟩
  · by_cases hkind : start.current.kind = .kwFunction
    · exact .inl hkind
    · have hless : statements < maxStatementNesting := Nat.not_le.mp fun hfull =>
        hopen ⟨hfull, hkind⟩
      exact .inr ⟨by omega, hdepth⟩
  · obtain rfl : levels = 0 := hlevels.symm.trans (Nat.sub_eq_zero_of_le hfull)
    exact declarationForm_full hkind

theorem proceeds_declaration (hend : start.atEnd = false) :
    start.Proceeds start.statementDepth (Parse.declaration start) := by
  rw [declaration_apply]
  exact proceeds_declarationWithin rfl hend

end Parse

end Scriptlet
