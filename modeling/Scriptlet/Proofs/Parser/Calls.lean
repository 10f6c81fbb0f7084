import Scriptlet.Proofs.Parser.Position
import Mathlib.Data.Nat.Find

/-!
# One call after the other

A program is read call by call: a call that fails fatally leaves the parser where it failed, and
another call goes on there. Whatever the tokens are, the calls stay in the vector and in front of its
first end mark, each of them moves on, and one of them gives a result.

## Main definitions

* `afterCalls` — the state after a number of calls
* `IsMark` — the place of the first end mark
* `Cursor.Proceeds` — what one call does

## Main results

* `Cursor.calls_progress` — calls stay in bounds, move on, and come to an end
* `Cursor.Stands.declared_full` — a declaration at the limit of nesting fails without moving on
-/

namespace Scriptlet

/-- The state after a number of calls. -/
def afterCalls {ε σ α : Type} (call : EStateM ε σ α) (start : σ) : Nat → σ
  | 0 => start
  | count + 1 => stateAfter call (afterCalls call start count)

/-- The place of the first end mark. -/
def IsMark (tokens : Array Token) (mark : Nat) : Prop :=
  (∃ token, tokens[mark]? = some token ∧ token.kind = .endOfInput) ∧
    ∀ index < mark, ∀ token, tokens[index]? = some token → token.kind ≠ .endOfInput

namespace Parse

variable {τ : Type}

/-! ## Programs -/

theorem forward_repeating {turn : τ → Parse (Turn τ)} (h : ∀ done, Forward (turn done))
    (rounds : List Token) (done : τ) : Forward (repeating turn rounds done) := by
  induction rounds generalizing done with
  | nil => exact forward_pure done
  | cons round rounds ih =>
    refine (h done).bind fun last => ?_
    cases last with
    | again next => exact ih next
    | done result => exact forward_pure result

theorem isFatal_of_repeating {turn : τ → Parse (Turn τ)}
    (h : ∀ {done start error stop}, turn done start = .error error stop → error.isFatal = true)
    {rounds : List Token} {done : τ} {start stop : Parser} {error : ParseError}
    (hread : repeating turn rounds done start = .error error stop) : error.isFatal = true := by
  induction rounds generalizing done start with
  | nil => cases hread
  | cons round rounds ih =>
    rw [repeating] at hread
    cases hturn : turn done start with
    | error first middle =>
      rw [bind_of_error hturn] at hread
      cases hread
      exact h hturn
    | ok last middle =>
      rw [bind_of_ok hturn] at hread
      cases last with
      | again next => exact ih hread
      | done result => cases hread

theorem isFatal_of_programTurn {done : Array Stmt} {start stop : Parser} {error : ParseError}
    (h : programTurn done start = .error error stop) : error.isFatal = true := by
  cases hend : start.atEnd with
  | true =>
    rw [programTurn_of_atEnd hend] at h
    cases h
  | false =>
    rw [programTurn_of_not_atEnd hend] at h
    cases hread : declaration start with
    | ok result middle =>
      rw [bind_of_ok hread] at h
      cases h
    | error first middle =>
      rw [bind_of_error hread] at h
      cases h
      exact isFatal_of_recovering hread

/-- **A program fails fatally or not at all.** -/
theorem isFatal_of_program {start stop : Parser} {error : ParseError}
    (h : program start = .error error stop) : error.isFatal = true := by
  rw [program_eq] at h
  cases hbody : repeated programTurn #[] start with
  | ok body middle =>
    rw [bind_of_ok hbody] at h
    cases h
  | error first middle =>
    rw [bind_of_error hbody] at h
    cases h
    exact isFatal_of_repeating isFatal_of_programTurn hbody

theorem ahead_stateAfter_bind {α β : Type} {read : Parse α} {next : α → Parse β}
    (hnext : ∀ result, Forward (next result)) (start : Parser) :
    (stateAfter (read >>= next) start).ahead ≤ (stateAfter read start).ahead := by
  unfold stateAfter
  cases hread : read start with
  | ok result middle =>
    rw [bind_of_ok hread]
    exact (hnext result middle).ahead_le
  | error error middle =>
    rw [bind_of_error hread]

/-- With no level open, a declaration consumes a token if there is one in front of the end. -/
theorem ahead_declaration {start : Parser} (hend : start.atEnd = false) (hdepth : start.depth = 0)
    (hstatements : start.statementDepth = 0) :
    (stateAfter declaration start).ahead < start.ahead := by
  have hmoved := (proceeds_declaration hend).moved
  unfold stateAfter
  cases hread : declaration start with
  | ok result stop =>
    rw [hread] at hmoved
    exact hmoved
  | error error stop =>
    rw [hread] at hmoved
    refine hmoved (isFatal_of_recovering hread) ⟨by rw [hdepth]; decide, ?_⟩
    rintro ⟨hfull, _⟩
    rw [hstatements] at hfull
    exact absurd hfull (by decide)

/-- **With no level open, a program consumes a token** if there is one in front of the end. -/
theorem ahead_program {start : Parser} (hend : start.atEnd = false) (hdepth : start.depth = 0)
    (hstatements : start.statementDepth = 0) :
    (stateAfter program start).ahead < start.ahead := by
  have hturns (done : Array Stmt) : Forward (programTurn done) :=
    forward_current.bind fun _ => .ite (forward_pure _)
      (forward_declaration.bind fun _ => forward_pure _)
  have hrepeated : repeated programTurn #[] start =
      (programTurn #[] >>= goOn (repeating programTurn start.rest)) start := rfl
  rw [program_eq]
  calc (stateAfter (repeated programTurn #[] >>= fun body => pure body.toList) start).ahead
    _ ≤ (stateAfter (repeated programTurn #[]) start).ahead :=
        ahead_stateAfter_bind (fun _ => forward_pure _) start
    _ ≤ (stateAfter (programTurn #[]) start).ahead := by
        rw [stateAfter, hrepeated]
        refine ahead_stateAfter_bind (fun last => ?_) start
        cases last with
        | again next => exact forward_repeating hturns _ next
        | done result => exact forward_pure result
    _ ≤ (stateAfter declaration start).ahead := by
        rw [stateAfter, programTurn_of_not_atEnd hend]
        exact ahead_stateAfter_bind (fun _ => forward_pure _) start
    _ < start.ahead := ahead_declaration hend hdepth hstatements

/-- In front of an end mark there is nothing to read. -/
theorem program_of_atEnd {start : Parser} (hend : start.atEnd = true) :
    program start = .ok [] start := by
  have hbody : repeated programTurn #[] start = .ok #[] start :=
    bind_of_ok (programTurn_of_atEnd hend #[])
  rw [program_eq, bind_of_ok hbody]
  rfl

end Parse

/-! ## The first end mark -/

theorem exists_portion {tokens : List Token} (h : ∃ token ∈ tokens, token.kind = .endOfInput) :
    ∃ portion behind, Portion portion ∧ tokens = portion ++ behind := by
  induction tokens with
  | nil =>
    obtain ⟨token, hmem, _⟩ := h
    cases hmem
  | cons first rest ih =>
    by_cases hfirst : first.kind = .endOfInput
    · exact ⟨[first], rest, .mark hfirst, rfl⟩
    · obtain ⟨token, hmem, hkind⟩ := h
      have hrest : token ∈ rest := by
        rcases List.mem_cons.mp hmem with rfl | hmem
        · exact absurd hkind hfirst
        · exact hmem
      obtain ⟨portion, behind, hportion, heq⟩ := ih ⟨token, hrest, hkind⟩
      exact ⟨first :: portion, behind, .cons hfirst hportion, by rw [heq, List.cons_append]⟩

theorem Portion.isMark {portion : List Token} (h : Portion portion) (behind : List Token) :
    IsMark (portion ++ behind).toArray (portion.length - 1) := by
  unfold IsMark
  simp only [List.getElem?_toArray]
  induction h with
  | @mark token h =>
    refine ⟨⟨token, rfl, h⟩, fun index hindex => ?_⟩
    exact absurd hindex (Nat.not_lt_zero index)
  | @cons token rest h hrest ih =>
    obtain ⟨⟨ending, hending, hkind⟩, hbefore⟩ := ih
    have hlength := hrest.length_eq []
    obtain ⟨last, hlast⟩ : ∃ last, rest.length = last + 1 := ⟨_, hlength⟩
    rw [hlast, Nat.add_sub_cancel] at hending hbefore
    rw [List.length_cons, hlast, Nat.add_sub_cancel]
    refine ⟨⟨ending, hending, hkind⟩, fun index hindex other hother => ?_⟩
    cases index with
    | zero =>
      cases hother
      exact h
    | succ index => exact hbefore index (by omega) other hother

namespace Cursor

theorem upcoming_ofTokens (tokens : List Token) : ∃ portion, (ofTokens tokens).Upcoming portion := by
  have hmark : ∃ token ∈ (Parser.ofTokens tokens).rest, token.kind = .endOfInput := by
    unfold Parser.ofTokens
    split
    · exact ⟨_, .head _, rfl⟩
    · rename_i last hlast
      split
      · rename_i hkind
        exact ⟨last, List.mem_of_getLast? hlast, hkind⟩
      · exact ⟨_, List.mem_append_right _ (.head _), rfl⟩
  obtain ⟨portion, behind, hportion, hrest⟩ := exists_portion hmark
  exact ⟨portion, hportion, behind, hrest⟩

/-! ## One call after the other -/

/-- What a call from a cursor does: it ends as on the parser that holds the tokens that are left, it
stays in the vector and in front of the mark, it moves on if it can, and if it gives a result then it
has come to the mark. -/
structure Proceeds (tokens : Array Token) (mark : Nat) (before after : Cursor) : Prop where
  ends : ∃ result, machine.program before = endingIn .error result after ∧
    Parse.program before.parser = endingIn id result after.parser
  tokens_eq : after.tokens = tokens
  fine : ∀ record ∈ after.log, record.Fine tokens mark
  forward : before.position ≤ after.position
  position_le : after.position ≤ mark
  moves : before.position < mark → before.position < after.position
  stops : ∀ statements, machine.program before = .ok statements after → after.position = mark

/-- What is known of a cursor between calls. -/
abbrev Between (tokens : Array Token) (mark : Nat) (cursor : Cursor) : Prop :=
  (simulation ⟨tokens, mark, #[], [], 0⟩).At 0 0 cursor.parser cursor

/-- A call leaves what is left to the parser. -/
theorem Between.parser_stateAfter {tokens : Array Token} {mark : Nat} {cursor : Cursor}
    (h : Between tokens mark cursor) :
    (stateAfter machine.program cursor).parser = stateAfter Parse.program cursor.parser :=
  Stands.parser_eq rfl h.stands (simulates_program _ h).stateAfter.stands
    (Parse.forward_program cursor.parser)

theorem Between.stateAfter {tokens : Array Token} {mark : Nat} {cursor : Cursor}
    (h : Between tokens mark cursor) : Between tokens mark (stateAfter machine.program cursor) := by
  have hafter := (simulates_program _ h).stateAfter
  rwa [← h.parser_stateAfter] at hafter

/-- **One call**. -/
theorem Between.proceeds {tokens : Array Token} {mark : Nat} {cursor : Cursor}
    (h : Between tokens mark cursor) :
    Proceeds tokens mark cursor (Scriptlet.stateAfter machine.program cursor) := by
  obtain ⟨result, stop, hread⟩ := exists_endingIn (Parse.program cursor.parser)
  obtain ⟨last, hanswer, hlast⟩ := exists_answer (simulates_program _ h) hread
  have hstart : cursor.position + cursor.parser.ahead = mark := Stands.ahead_eq h.stands
  have hstop : last.position + stop.ahead = mark := Stands.ahead_eq hlast.stands
  have hbehind := h.parser_stateAfter
  rw [stateAfter_of_endingIn hanswer, stateAfter_of_endingIn hread] at hbehind
  rw [stateAfter_of_endingIn hanswer]
  refine ⟨⟨result, hanswer, by rw [hread, hbehind]⟩, Stands.tokens_eq hlast.stands, ?_,
    ?_, Stands.position_le hlast.stands, ?_, ?_⟩
  · intro record hrecord
    rcases Stands.fine hlast.stands record hrecord with hnone | hfine
    · cases hnone
    · exact hfine (show 0 < maxNesting by decide)
  · have hle := (Parse.forward_program cursor.parser).ahead_le
    rw [stateAfter_of_endingIn hread] at hle
    omega
  · intro hmark
    have hless := Parse.ahead_program (cursor.parser.ahead_pos_iff.mp (by omega)) h.depth_eq
      h.statements_eq
    rw [stateAfter_of_endingIn hread] at hless
    omega
  · intro statements hok
    rw [hanswer] at hok
    cases result with
    | error error => cases hok
    | ok value =>
      have hzero := Parse.program_eq_ok hread
      omega

section Calls

variable {tokens : Array Token} {mark : Nat} {start : Cursor}

/-- The cursors between the calls, and the parsers between them. -/
theorem Between.afterCalls (h : Between tokens mark start) (count : Nat) :
    Between tokens mark (afterCalls machine.program start count) ∧
      (afterCalls machine.program start count).parser =
        afterCalls Parse.program start.parser count := by
  induction count with
  | zero => exact ⟨h, rfl⟩
  | succ count ih =>
    obtain ⟨hbetween, hparser⟩ := ih
    refine ⟨hbetween.stateAfter, hbetween.parser_stateAfter.trans ?_⟩
    rw [hparser]
    rfl

/-- Each call before the mark moves on by a token at least. -/
theorem Between.le_position (h : Between tokens mark start) (count : Nat) :
    min count mark ≤ (Scriptlet.afterCalls machine.program start count).position := by
  induction count with
  | zero => omega
  | succ count ih =>
    have hproceeds := (h.afterCalls count).1.proceeds
    have hforward := hproceeds.forward
    have hmoves := hproceeds.moves
    show min (count + 1) mark ≤ (Scriptlet.stateAfter machine.program _).position
    omega

/-- At the mark there is nothing to read. -/
theorem Between.program_of_mark (h : Between tokens mark start) (hmark : start.position = mark) :
    ∃ stop, machine.program start = .ok [] stop := by
  have hahead : start.position + start.parser.ahead = mark := Stands.ahead_eq h.stands
  have hend : start.parser.atEnd = true := by
    rw [Parser.atEnd_iff, ← Parser.ahead_eq_zero_iff]
    omega
  have hread : Parse.program start.parser = endingIn id (.ok []) start.parser :=
    Parse.program_of_atEnd hend
  obtain ⟨stop, hanswer, _⟩ := exists_answer (simulates_program _ h) hread
  exact ⟨stop, hanswer⟩

/-- Calls that fail fatally are followed by one that gives a result. -/
theorem Between.exists_ok (h : Between tokens mark start) :
    ∃ count ≤ mark,
      (∃ statements stop,
        machine.program (Scriptlet.afterCalls machine.program start count) = .ok statements stop) ∧
      ∀ earlier < count, ∃ error stop,
        machine.program (Scriptlet.afterCalls machine.program start earlier) =
          .error (.error error) stop ∧ error.isFatal = true := by
  classical
  have hsome : ∃ statements stop,
      machine.program (Scriptlet.afterCalls machine.program start mark) = .ok statements stop := by
    obtain ⟨hbetween, _⟩ := h.afterCalls mark
    have hle := h.le_position mark
    have hge : (Scriptlet.afterCalls machine.program start mark).position ≤ mark :=
      Stands.position_le hbetween.stands
    obtain ⟨stop, hread⟩ := hbetween.program_of_mark (by omega)
    exact ⟨[], stop, hread⟩
  have hexists : ∃ count, ∃ statements stop,
      machine.program (Scriptlet.afterCalls machine.program start count) = .ok statements stop :=
    ⟨mark, hsome⟩
  refine ⟨Nat.find hexists, Nat.find_min' hexists hsome, Nat.find_spec hexists, ?_⟩
  intro earlier hearlier
  obtain ⟨result, hanswer, hread⟩ := (h.afterCalls earlier).1.proceeds.ends
  cases result with
  | ok statements => exact absurd ⟨statements, _, hanswer⟩ (Nat.find_min hexists hearlier)
  | error error => exact ⟨error, _, hanswer, Parse.isFatal_of_program hread⟩

end Calls

/-- **Calls stay in bounds, move on, and come to an end.** For any tokens there is a first end mark.
Calls one after the other are those on a parser; each of them looks up tokens in the vector only and
never passes the mark; it moves on if it starts in front of the mark, and so does each declaration in
it, whether it gives a result or fails fatally. The exception are declarations with all levels for
statements open in front of a token that is not `function`: each of them fails in place with the
error that statements are nested too deeply. A call that gives a result has come to the mark. Some
call gives a result, and those before it fail fatally. -/
theorem calls_progress (tokens : List Token) :
    ∃ mark, IsMark (ofTokens tokens).tokens mark ∧
      (∀ count,
        (afterCalls machine.program (ofTokens tokens) count).parser =
            afterCalls Parse.program (.ofTokens tokens) count ∧
          Proceeds (ofTokens tokens).tokens mark
            (afterCalls machine.program (ofTokens tokens) count)
            (afterCalls machine.program (ofTokens tokens) (count + 1))) ∧
      ∃ count ≤ mark,
        (∃ statements stop, machine.program (afterCalls machine.program (ofTokens tokens) count) =
          .ok statements stop) ∧
        ∀ earlier < count, ∃ error stop,
          machine.program (afterCalls machine.program (ofTokens tokens) earlier) =
            .error (.error error) stop ∧ error.isFatal = true := by
  obtain ⟨portion, hupcoming⟩ := upcoming_ofTokens tokens
  obtain ⟨behind, hbehind⟩ := hupcoming.2
  have hbetween : Between (ofTokens tokens).tokens (0 + portion.length - 1) (ofTokens tokens) :=
    hupcoming.stands hbehind rfl rfl rfl
  rw [Nat.zero_add] at hbetween
  have hmark := hupcoming.1.isMark behind
  rw [← hbehind] at hmark
  refine ⟨portion.length - 1, hmark, fun count => ?_, hbetween.exists_ok⟩
  obtain ⟨hcount, hparser⟩ := hbetween.afterCalls count
  exact ⟨hparser, hcount.proceeds⟩

/-! ## Declarations at the limit -/

/-- The record of a declaration that failed in front of a token because all levels for statements
were open. -/
abbrev stuckAt (position : Nat) (token : Token) : Declared :=
  ⟨position, position, maxStatementNesting, some (.error ⟨.statementNestingTooDeep, token⟩)⟩

section Limit

variable {setting : Setting} {parser : Parser} {cursor after : Cursor} {record : Record}

/-- A fatal error passes through a declaration, which is recorded. -/
theorem declarationForm_of_fatal {function statement : Indexed Stmt} {middle : Cursor}
    {error : ParseError} (hnone : machine.accept .kwFunction cursor = .ok none middle)
    (h : statement middle = .error (.error error) after) (hfatal : error.isFatal = true) :
    machine.declarationForm function statement cursor = .error (.error error)
      (after.declaring cursor (some (.error error))) := by
  show recovering _ _ cursor = _
  rw [recovering, orElse, (bind_of_ok hnone).trans h]
  simp only [if_pos hfatal]

theorem nestedStatement_of_error {α : Type} {read : Indexed α} {halt : Halt}
    (hlevel : cursor.statementDepth < maxStatementNesting)
    (h : read { cursor with statementDepth := cursor.statementDepth + 1 } = .error halt after) :
    machine.nestedStatement read cursor =
      .error halt { after with statementDepth := after.statementDepth - 1 } :=
  (Counts.nestedStatement_of_lt hlevel).trans
    (congrArg (onState (counts.changeStatementDepth (· - 1))) h)

/-- An error in the first of some declarations is what reading them comes to. -/
theorem Stands.declarations_of_error (h : Stands setting parser cursor)
    {declaration : Indexed Stmt} {halt : Halt} {ends : TokenKind → Prop} [DecidablePred ends]
    (hkind : ¬ ends parser.current.kind)
    (hdeclaration : ∀ middle, Stands setting parser middle →
      ∃ after, declaration middle = .error halt after ∧ record ∈ after.log) :
    ∃ after, machine.repeated (machine.declarationTurn declaration ends) #[] cursor =
      .error halt after ∧ record ∈ after.log := by
  obtain ⟨middle, hpeek, hmiddle, _⟩ := h.peek
  obtain ⟨after, hread, hrecord⟩ := hdeclaration middle hmiddle
  have hturn : machine.declarationTurn declaration ends #[] cursor = .error halt after := by
    refine (bind_of_ok hpeek).trans ?_
    rw [if_neg hkind]
    exact bind_of_error hread
  obtain ⟨rounds, hrounds⟩ : ∃ rounds, machine.rounds cursor = rounds + 1 :=
    Nat.exists_eq_succ_of_ne_zero (Nat.ne_zero_of_lt h.ahead_lt)
  refine ⟨after, ?_, hrecord⟩
  rw [Machine.repeated, hrounds]
  exact bind_of_error hturn

/-- An error in the first declaration of a block passes through the statement. -/
theorem Stands.statementForm_of_error (h : Stands setting parser cursor)
    {statement declaration : Indexed Stmt} {halt : Halt}
    (hbrace : parser.current.kind = .leftBrace)
    (hkind : ¬ Parse.EndsSequence parser.advanced.current.kind)
    (hdeclaration : ∀ middle, Stands setting parser.advanced middle →
      ∃ after, declaration middle = .error halt after ∧ record ∈ after.log) :
    ∃ after, machine.statementForm statement declaration cursor = .error halt after ∧
      record ∈ after.log := by
  have hend : parser.atEnd = false := by rw [Parser.atEnd, hbrace]; rfl
  obtain ⟨first, hpeek, hfirst, _⟩ := h.peek
  obtain ⟨second, hadvance, hsecond, _⟩ := hfirst.advance hend
  obtain ⟨after, hbody, hrecord⟩ := hsecond.declarations_of_error hkind hdeclaration
  refine ⟨after, (bind_of_ok hpeek).trans ?_, hrecord⟩
  rw [hbrace]
  exact (bind_of_ok hadvance).trans (bind_of_error (bind_of_error hbody))

/-- A token of another kind is not accepted. -/
theorem Stands.accept_none (h : Stands setting parser cursor) {kind : TokenKind}
    (hkind : parser.current.kind ≠ kind) :
    ∃ after, machine.accept kind cursor = .ok none after ∧ Stands setting parser after := by
  rcases h.matchAny [kind] with ⟨middle, hwanted, _⟩ | ⟨middle, _, hmatch, hmiddle⟩
  · simp [hkind] at hwanted
  · exact ⟨middle, bind_of_ok hmatch, hmiddle⟩

/-- **Where all levels for statements are open**, a declaration fails in front of a token without
moving on. -/
theorem Stands.declared_full (h : Stands setting parser cursor) {front behind : List Token}
    {token : Token} (hrest : parser.rest = front ++ token :: behind)
    (hfront : ∀ brace ∈ front, brace.kind = .leftBrace) (htoken : token.kind = .identifier)
    (hlevels : parser.statementDepth + front.length = maxStatementNesting) {count : Nat}
    (hcount : front.length < count) :
    ∃ after, machine.declarationForm (machine.functionWithin count)
        (machine.statementWithin count) cursor =
          .error (.error ⟨.statementNestingTooDeep, token⟩) after ∧
      .declared (stuckAt (cursor.position + front.length) token) ∈ after.log := by
  induction front generalizing parser cursor count with
  | nil =>
    obtain ⟨count, rfl⟩ := Nat.exists_eq_succ_of_ne_zero (Nat.ne_zero_of_lt hcount)
    have hcurrent : parser.current = token := by rw [Parser.current, hrest]; rfl
    have hkind : parser.current.kind ≠ .kwFunction := by rw [hcurrent, htoken]; decide
    obtain ⟨middle, hnone, hmiddle⟩ := h.accept_none hkind
    obtain ⟨last, hfail, hlast⟩ := @Stands.fail _ _ _ Stmt hmiddle .statementNestingTooDeep
    have hfull : cursor.statementDepth = maxStatementNesting :=
      h.statementDepth_eq.trans hlevels
    have hstill : middle.statementDepth = maxStatementNesting :=
      hmiddle.statementDepth_eq.trans hlevels
    have hread : machine.statementWithin (count + 1) middle =
        .error (.error ⟨.statementNestingTooDeep, token⟩) last := by
      rw [hcurrent] at hfail
      exact (Counts.nestedStatement_of_le (Nat.le_of_eq hstill.symm)).trans hfail
    refine ⟨_, declarationForm_of_fatal hnone hread rfl, ?_⟩
    have hplace : last.position = cursor.position := by
      have hstart := h.ahead_eq
      have hstop := hlast.ahead_eq
      omega
    rw [declaring, hplace, hfull]
    exact .head _
  | cons brace front ih =>
    obtain ⟨count, rfl⟩ := Nat.exists_eq_succ_of_ne_zero (Nat.ne_zero_of_lt hcount)
    have hcurrent : parser.current = brace := by rw [Parser.current, hrest]; rfl
    have hbrace : parser.current.kind = .leftBrace := hcurrent ▸ hfront brace (.head _)
    have hkind : parser.current.kind ≠ .kwFunction := by rw [hbrace]; decide
    rw [List.length_cons] at hlevels hcount ⊢
    obtain ⟨first, hnone, hfirst⟩ := h.accept_none hkind
    have hdeeper : Stands setting { parser with statementDepth := parser.statementDepth + 1 }
        { first with statementDepth := first.statementDepth + 1 } :=
      (counts_agree setting).changeStatementDepth hfirst (· + 1)
    generalize hopened : ({ parser with statementDepth := parser.statementDepth + 1 } : Parser) =
      opened at hdeeper
    have hstill : opened.current.kind = .leftBrace := by
      rw [← hopened]
      exact hbrace
    have hend : opened.atEnd = false := by rw [Parser.atEnd, hstill]; rfl
    have hadvanced : opened.advanced.rest = front ++ token :: behind := by
      rw [Parser.advanced_of_not_atEnd hend, ← hopened, hrest]
      rfl
    have hinside : ¬ Parse.EndsSequence opened.advanced.current.kind := by
      rw [Parser.current, hadvanced]
      cases front with
      | nil => exact htoken ▸ by decide
      | cons other front => exact hfront other (.tail _ (.head _)) ▸ by decide
    -- The declaration inside stands one token behind, and one level deeper.
    have hdeclaration (middle : Cursor) (hmiddle : Stands setting opened.advanced middle) :
        ∃ after, machine.declarationForm (machine.functionWithin count)
            (machine.statementWithin count) middle =
              .error (.error ⟨.statementNestingTooDeep, token⟩) after ∧
          .declared (stuckAt (cursor.position + (front.length + 1)) token) ∈ after.log := by
      have hplace : cursor.position + (front.length + 1) = middle.position + front.length := by
        have hstart := h.ahead_eq
        have hstop := hmiddle.ahead_eq
        have hahead := Parser.ahead_advanced hend
        have hsame : opened.ahead = parser.ahead := by rw [← hopened]; rfl
        omega
      have hlevel : opened.advanced.statementDepth + front.length = maxStatementNesting := by
        rw [opened.reaches_advanced.statementDepth, ← hopened]
        show parser.statementDepth + 1 + front.length = maxStatementNesting
        omega
      rw [hplace]
      exact ih hmiddle hadvanced (fun other hother => hfront other (.tail _ hother)) hlevel
        (by omega)
    obtain ⟨last, hform, hrecord⟩ := hdeeper.statementForm_of_error hstill hinside hdeclaration
    have hlevel : first.statementDepth < maxStatementNesting := by
      rw [hfirst.statementDepth_eq]
      omega
    refine ⟨_, declarationForm_of_fatal hnone (nestedStatement_of_error hlevel hform) rfl, ?_⟩
    exact .tail _ hrecord

theorem Stands.program_full (h : Stands setting parser cursor) {front behind : List Token}
    {token : Token} (hrest : parser.rest = front ++ token :: behind)
    (hfront : ∀ brace ∈ front, brace.kind = .leftBrace) (htoken : token.kind = .identifier)
    (hlevels : parser.statementDepth + front.length = maxStatementNesting) :
    .declared (stuckAt (cursor.position + front.length) token) ∈
      (stateAfter machine.program cursor).log := by
  have hkind : parser.current.kind ≠ .endOfInput := by
    rw [Parser.current, hrest]
    cases front with
    | nil => exact htoken ▸ by decide
    | cons brace front => exact hfront brace (.head _) ▸ by decide
  have hdeclaration (middle : Cursor) (hmiddle : Stands setting parser middle) :
      ∃ after, machine.declaration middle =
          .error (.error ⟨.statementNestingTooDeep, token⟩) after ∧
        .declared (stuckAt (cursor.position + front.length) token) ∈ after.log := by
    have hplace : cursor.position = middle.position := by
      have hstart := h.ahead_eq
      have hstop := hmiddle.ahead_eq
      omega
    rw [hplace]
    exact hmiddle.declared_full hrest hfront htoken hlevels (by omega)
  obtain ⟨after, hbody, hrecord⟩ := @declarations_of_error _ _ _ _ h _ _ (· = .endOfInput) _ hkind
    hdeclaration
  rw [Scriptlet.stateAfter, Machine.program, bind_of_error hbody]
  exact hrecord

/-- A call that starts with as many opening braces as there are levels for statements, and a name
behind them, reads a declaration that does not move on. -/
theorem declared_of_braces {front : List Token} (hfront : ∀ brace ∈ front, brace.kind = .leftBrace)
    (hlength : front.length = maxStatementNesting) {token : Token}
    (htoken : token.kind = .identifier) :
    .declared (stuckAt maxStatementNesting token) ∈
      (stateAfter machine.program (ofTokens (front ++ [token]))).log := by
  obtain ⟨portion, hupcoming⟩ := upcoming_ofTokens (front ++ [token])
  obtain ⟨behind, hbehind⟩ := hupcoming.2
  obtain ⟨added, hadded, _⟩ := rest_ofTokens (front ++ [token])
  rw [List.append_assoc] at hadded
  have hat := @Upcoming.stands _ _ hupcoming (.ofTokens (front ++ [token])) behind #[] hbehind rfl
    rfl rfl
  have hrecord := Stands.program_full hat.stands hadded hfront htoken (by rw [hlength]; rfl)
  rw [hlength] at hrecord
  exact hrecord

end Limit

end Cursor

namespace Sample

/-- An opening brace. -/
def brace : Token := ⟨.leftBrace, "\x7b", ⟨1, 1⟩⟩

/-- A name. -/
def name : Token := ⟨.identifier, "x", ⟨1, 2⟩⟩

/-- As many opening braces as there are levels for statements, and a name. -/
def braced : List Token := List.replicate maxStatementNesting brace ++ [name]

/-- **Not each declaration moves on**: the innermost starts in front of the name, which stands before
the end mark, and fails there. -/
theorem declaration_stays : IsMark (Cursor.ofTokens braced).tokens 513 ∧
    Record.declared ⟨512, 512, 512, some (.error ⟨.statementNestingTooDeep, name⟩)⟩ ∈
      (stateAfter Cursor.machine.program (Cursor.ofTokens braced)).log := by
  have hbraces (token : Token) (h : token ∈ List.replicate maxStatementNesting brace) :
      token.kind = .leftBrace := by
    rw [List.eq_of_mem_replicate h]
    rfl
  have hlength : (List.replicate maxStatementNesting brace).length = maxStatementNesting :=
    List.length_replicate
  refine ⟨?_, Cursor.declared_of_braces hbraces hlength rfl⟩
  have hportion : Portion
      (List.replicate maxStatementNesting brace ++ [name, .endMark name.location]) :=
    .behind (fun token h => by rw [hbraces token h]; decide) (.cons (by decide) (.mark rfl))
  have hrest : (Parser.ofTokens braced).rest =
      List.replicate maxStatementNesting brace ++ [name, .endMark name.location] := by
    simp [Parser.ofTokens, braced, name]
  have hmark := hportion.isMark []
  rw [List.append_nil, List.length_append, hlength] at hmark
  rw [Cursor.ofTokens, hrest]
  exact hmark

end Sample

end Scriptlet
