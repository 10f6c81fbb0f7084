import Scriptlet.Proofs.Parser.Progress

/-!
# Repetitions end by themselves

A repetition is counted out on a list of rounds. This module shows that the count is never what ends
it: each turn that calls for another has consumed a token, so a repetition that has more rounds than
there are tokens in front of the end stops of its own accord, and any other such number of rounds
would have done.

All repetitions of the language are brought into one form for this purpose, in which a turn says
whether there is to be another.

## Main definitions

* `Turn`, `Parse.goOn`, `Parse.repeating`, `Parse.repeated` — a turn, and turns up to one that is the
  last
* `Parse.Steady` — each turn that calls for another consumes a token
* `Parse.chainTurn`, `callTurn`, `entryTurn`, `declarationTurn` — the turns of the language

## Main results

* `Parse.chain_eq`, `call_eq`, `entries_eq`, `block_eq`, `program_eq` — the repetitions of the
  language have this form
* `Parse.Steady.repeating_eq` — the number of rounds does not matter
* `Parse.program_eq_ok` — a program that is read ends in front of an end mark
-/

namespace Scriptlet

/-- What a turn of a repetition comes to. -/
inductive Turn (σ : Type) where
  /-- There is to be another turn. -/
  | again (state : σ)
  /-- This was the last turn. -/
  | done (state : σ)

namespace Parse

variable {α σ : Type}

/-- Goes on behind a turn that calls for it. -/
def goOn (next : σ → Parse σ) : Turn σ → Parse σ
  | .again state => next state
  | .done state => pure state

/-- Takes turns up to one that is the last, or until the rounds are used up. -/
def repeating (turn : σ → Parse (Turn σ)) : List Token → σ → Parse σ
  | [], state => pure state
  | _ :: rounds, state => turn state >>= goOn (repeating turn rounds)

/-- Takes turns up to one that is the last. -/
def repeated (turn : σ → Parse (Turn σ)) (state : σ) : Parse σ := do
  repeating turn (← rounds) state

/-! ## The repetitions of the language -/

/-- An operator of a level and the operand behind it. -/
def chainTurn (level : Level) (operand : Parse Expr) (left : Expr) : Parse (Turn Expr) := do
  match ← acceptIf level.operators.contains with
  | some operator =>
    let right ← operand
    return .again (level.join left operator right)
  | none => return .done left

/-- An argument list. -/
def callTurn (inner : Parse Expr) (callee : Expr) : Parse (Turn Expr) := do
  match ← accept .leftParen with
  | some _ =>
    let arguments ← entries .tooManyArguments inner
    let paren ← expect .rightParen .noParenAfterArguments
    return .again (.call callee paren arguments)
  | none => return .done callee

/-- Notes an error if a list is full. -/
def checkRoom (tooMany : ParseCause) (done : Array α) : Parse Unit := do
  if done.size = maxEntries then
    report ⟨tooMany, ← current⟩

/-- An entry, and whether a comma follows it. -/
def entryAndComma (entry : Parse α) (done : Array α) : Parse (Turn (Array α)) := do
  let last ← entry
  match ← accept .comma with
  | some _ => return .again (done.push last)
  | none => return .done (done.push last)

/-- An entry of a list that may be full. -/
def entryTurn (tooMany : ParseCause) (entry : Parse α) (done : Array α) :
    Parse (Turn (Array α)) := do
  checkRoom tooMany done
  entryAndComma entry done

/-- A declaration, unless a token is next that ends them. -/
def declarationTurn (ends : TokenKind → Prop) [DecidablePred ends] (declaration : Parse Stmt)
    (done : Array Stmt) : Parse (Turn (Array Stmt)) := do
  if ends (← current).kind then return .done done
  let stmt ← declaration
  return .again (done.push stmt)

/-- The turns by which a program is read. -/
abbrev programTurn : Array Stmt → Parse (Turn (Array Stmt)) :=
  declarationTurn (· = .endOfInput) declaration

theorem programTurn_of_atEnd {start : Parser} (h : start.atEnd = true) (done : Array Stmt) :
    programTurn done start = .ok (.done done) start := by
  have hcurrent : current start = .ok start.current start := rfl
  rw [programTurn, declarationTurn, bind_of_ok hcurrent, if_pos (of_decide_eq_true h)]
  rfl

theorem programTurn_of_not_atEnd {start : Parser} (h : start.atEnd = false) (done : Array Stmt) :
    programTurn done start = (do return Turn.again (done.push (← declaration))) start := by
  have hcurrent : current start = .ok start.current start := rfl
  rw [programTurn, declarationTurn, bind_of_ok hcurrent, if_neg (of_decide_eq_false h)]

theorem chainFrom_eq (level : Level) (operand : Parse Expr) (rounds : List Token) (left : Expr) :
    chainFrom level operand rounds left = repeating (chainTurn level operand) rounds left := by
  induction rounds generalizing left with
  | nil => rfl
  | cons round rounds ih =>
    simp only [chainFrom, repeating, chainTurn, bind_assoc]
    congr 1
    funext operator?
    cases operator? with
    | none => rfl
    | some operator => simp only [bind_assoc, pure_bind, goOn, ih]

theorem callsFrom_eq (inner : Parse Expr) (rounds : List Token) (callee : Expr) :
    callsFrom inner rounds callee = repeating (callTurn inner) rounds callee := by
  induction rounds generalizing callee with
  | nil => rfl
  | cons round rounds ih =>
    simp only [callsFrom, repeating, callTurn, bind_assoc]
    congr 1
    funext left?
    cases left? with
    | none => rfl
    | some left => simp only [bind_assoc, pure_bind, goOn, ih]

theorem entriesFrom_eq (tooMany : ParseCause) (entry : Parse α) (rounds : List Token)
    (done : Array α) :
    entriesFrom tooMany entry rounds done = repeating (entryTurn tooMany entry) rounds done := by
  induction rounds generalizing done with
  | nil => rfl
  | cons round rounds ih =>
    have hround : entriesRound tooMany entry rounds done =
        entryAndComma entry done >>= goOn (repeating (entryTurn tooMany entry) rounds) := by
      simp only [entriesRound, entryAndComma, bind_assoc]
      congr 1
      funext last
      congr 1
      funext comma?
      cases comma? with
      | none => rfl
      | some comma => simp only [pure_bind, goOn, ih]
    by_cases hdone : done.size = maxEntries
    · simp only [entriesFrom_cons_full hdone, hround, repeating, entryTurn, checkRoom,
        if_pos hdone, bind_assoc]
    · simp only [entriesFrom_cons hdone, hround, repeating, entryTurn, checkRoom, if_neg hdone,
        pure_bind]

theorem declarationsUntil_eq {ends : TokenKind → Prop} [DecidablePred ends]
    (declaration : Parse Stmt) (rounds : List Token) (done : Array Stmt) :
    declarationsUntil ends declaration rounds done =
      repeating (declarationTurn ends declaration) rounds done := by
  induction rounds generalizing done with
  | nil => rfl
  | cons round rounds ih =>
    simp only [declarationsUntil, repeating, declarationTurn, bind_assoc]
    congr 1
    funext next
    by_cases h : ends next.kind
    · simp only [h, if_true]
      rfl
    · simp only [h, if_false, bind_assoc, pure_bind, goOn, ih]

theorem chain_eq (level : Level) (operand : Parse Expr) :
    chain level operand = operand >>= repeated (chainTurn level operand) := by
  unfold chain repeated
  simp only [chainFrom_eq]

theorem call_eq (inner : Parse Expr) : call inner = primary inner >>= repeated (callTurn inner) := by
  unfold call repeated
  simp only [callsFrom_eq]

theorem entries_eq (tooMany : ParseCause) (entry : Parse α) :
    entries tooMany entry = (do
      if ← sees .rightParen then return []
      let all ← repeated (entryTurn tooMany entry) #[]
      return all.toList) := by
  simp only [entries, repeated, entriesFrom_eq, bind_assoc]

theorem block_eq (declaration : Parse Stmt) :
    block declaration = (do
      let body ← repeated (declarationTurn EndsSequence declaration) #[]
      let _ ← expect .rightBrace .noBraceAfterBlock
      return body.toList) := by
  simp only [block, repeated, declarationsFrom_eq, declarationsUntil_eq, bind_assoc]

theorem program_eq :
    program = (do
      let body ← repeated programTurn #[]
      return body.toList) := by
  simp only [program, repeated, programFrom_eq, declarationsUntil_eq, bind_assoc]

/-! ## The number of rounds -/

/-- Each turn that calls for another consumes a token. -/
def Steady (turn : σ → Parse (Turn σ)) : Prop :=
  ∀ ⦃state : σ⦄ ⦃start : Parser⦄ ⦃next : σ⦄ ⦃stop : Parser⦄,
    turn state start = .ok (.again next) stop → stop.ahead < start.ahead

/-- **The number of rounds does not matter** if it exceeds that of the tokens in front of the
end. -/
theorem Steady.repeating_eq {turn : σ → Parse (Turn σ)} (h : Steady turn) {start : Parser}
    {rounds others : List Token} (hrounds : start.ahead < rounds.length)
    (hothers : start.ahead < others.length) (state : σ) :
    repeating turn rounds state start = repeating turn others state start := by
  induction rounds generalizing others state start with
  | nil => exact absurd hrounds (Nat.not_lt_zero _)
  | cons round rounds ih =>
    obtain ⟨other, others, rfl⟩ := List.exists_cons_of_length_pos (Nat.zero_lt_of_lt hothers)
    rw [repeating, repeating]
    cases hturn : turn state start with
    | error error stop => rw [bind_of_error hturn, bind_of_error hturn]
    | ok last stop =>
      rw [bind_of_ok hturn, bind_of_ok hturn]
      cases last with
      | done state => rfl
      | again state =>
        have hless := h hturn
        simp only [List.length_cons] at hrounds hothers
        exact ih (by omega) (by omega) state

/-- There are always enough rounds. -/
theorem ahead_lt_rounds (start : Parser) : start.ahead < (start.current :: start.rest).length := by
  have hle : (beforeEnd start.rest).length ≤ start.rest.length :=
    (List.takeWhile_prefix _).length_le
  exact Nat.lt_succ_of_le hle

/-! ## Each turn consumes a token -/

theorem steady_chainTurn {operand : Parse Expr} (hoperand : Forward operand) (level : Level) :
    Steady (chainTurn level operand) := by
  intro left start next stop h
  obtain ⟨operator?, middle, haccept, hnext⟩ := ok_of_bind h
  cases operator? with
  | none => cases hnext
  | some operator =>
    have hmiddle := ahead_of_acceptIf haccept
    obtain ⟨right, last, hright, hlast⟩ := ok_of_bind hnext
    cases hlast
    exact Nat.lt_of_le_of_lt (hoperand.of_ok hright).ahead_le hmiddle

theorem steady_callTurn {inner : Parse Expr} (hinner : Forward inner) :
    Steady (callTurn inner) := by
  intro callee start next stop h
  obtain ⟨left?, middle, haccept, hnext⟩ := ok_of_bind h
  cases left? with
  | none => cases hnext
  | some left =>
    have hrest : Forward (do
        let arguments ← entries .tooManyArguments inner
        let paren ← expect .rightParen .noParenAfterArguments
        return Turn.again (Expr.call callee paren arguments)) :=
      (forward_entries hinner _).bind fun _ => (forward_expect _ _).bind fun _ => forward_pure _
    exact Nat.lt_of_le_of_lt (hrest.of_ok hnext).ahead_le (ahead_of_acceptIf haccept)

theorem forward_checkRoom (tooMany : ParseCause) (done : Array α) :
    Forward (checkRoom tooMany done) :=
  .ite (forward_current.bind fun _ => forward_report _) (forward_pure _)

theorem steady_entryTurn {entry : Parse α} (hentry : Forward entry) (tooMany : ParseCause) :
    Steady (entryTurn tooMany entry) := by
  intro done start next stop h
  obtain ⟨_, checked, hcheck, hchecked⟩ := ok_of_bind h
  obtain ⟨last, middle, hlast, hmiddle⟩ := ok_of_bind hchecked
  obtain ⟨comma?, behind, haccept, hnext⟩ := ok_of_bind hmiddle
  cases comma? with
  | none => cases hnext
  | some comma =>
    cases hnext
    have hcomma := ahead_of_acceptIf haccept
    have hfirst := ((forward_checkRoom tooMany done).of_ok hcheck).ahead_le
    have hsecond := (hentry.of_ok hlast).ahead_le
    omega

/-- A read that gives a result in front of a token has consumed one. -/
def Consumes (read : Parse α) : Prop :=
  ∀ ⦃start : Parser⦄ ⦃result : α⦄ ⦃stop : Parser⦄, start.atEnd = false →
    read start = .ok result stop → stop.ahead < start.ahead

theorem consumes_declarationForm (levels : Nat) :
    Consumes (declarationForm (functionWithin levels) (statementWithin levels)) := by
  intro start result stop hend h
  obtain ⟨hstatement, hfunction⟩ := forward_statementWithin levels
  have hmoved := moved_declarationForm hfunction hstatement (moves_statementWithin levels) hend
  rw [h] at hmoved
  exact hmoved

theorem consumes_declaration : Consumes declaration := by
  intro start result stop hend h
  have hmoved := (proceeds_declaration hend).moved
  rw [h] at hmoved
  exact hmoved

theorem steady_declarationTurn {ends : TokenKind → Prop} [DecidablePred ends]
    (hends : ends .endOfInput) {declaration : Parse Stmt} (h : Consumes declaration) :
    Steady (declarationTurn ends declaration) := by
  intro done start next stop hturn
  have hcurrent : current start = .ok start.current start := rfl
  rw [declarationTurn, bind_of_ok hcurrent] at hturn
  by_cases hkind : ends start.current.kind
  · rw [if_pos hkind] at hturn
    cases hturn
  · rw [if_neg hkind] at hturn
    obtain ⟨stmt, last, hstmt, hlast⟩ := ok_of_bind hturn
    cases hlast
    refine h (decide_eq_false ?_) hstmt
    intro hend
    exact hkind (hend ▸ hends)

theorem steady_programTurn : Steady programTurn :=
  @steady_declarationTurn (· = .endOfInput) _ rfl _ consumes_declaration

/-! ## Programs -/

/-- Turns that are enough end with one that is the last. -/
theorem Steady.exists_last {turn : σ → Parse (Turn σ)} (h : Steady turn) {start stop : Parser}
    {rounds : List Token} (hrounds : start.ahead < rounds.length) {state result : σ}
    (hresult : repeating turn rounds state start = .ok result stop) :
    ∃ before middle, turn before middle = .ok (.done result) stop := by
  induction rounds generalizing state start with
  | nil => exact absurd hrounds (Nat.not_lt_zero _)
  | cons round rounds ih =>
    obtain ⟨last, middle, hturn, hlast⟩ := ok_of_bind hresult
    cases last with
    | done last =>
      cases hlast
      exact ⟨state, start, hturn⟩
    | again next =>
      have hless := h hturn
      simp only [List.length_cons] at hrounds
      exact ih (by omega) hlast

/-- **A program that is read ends in front of an end mark**, or where there is no token. -/
theorem program_eq_ok {start stop : Parser} {statements : List Stmt}
    (h : program start = .ok statements stop) : stop.ahead = 0 := by
  rw [program_eq] at h
  obtain ⟨body, last, hbody, hlast⟩ := ok_of_bind h
  cases hlast
  obtain ⟨before, middle, hturn⟩ :=
    steady_programTurn.exists_last (ahead_lt_rounds start) hbody
  cases hend : middle.atEnd with
  | true =>
    rw [programTurn_of_atEnd hend] at hturn
    cases hturn
    exact (Parser.ahead_eq_zero_iff _).mpr ((Parser.atEnd_iff _).mp hend)
  | false =>
    rw [programTurn_of_not_atEnd hend] at hturn
    obtain ⟨stmt, behind, _, hbehind⟩ := ok_of_bind hturn
    cases hbehind

end Parse

end Scriptlet
