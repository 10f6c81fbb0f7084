import Scriptlet.Proofs.Parser.Counting
import Scriptlet.Proofs.Parser.Cursor

/-!
# Cursors stand for parsers

A cursor stands for a parser if the same tokens are in front of both, up to the next end mark and
with it. What the cursor has behind it and what follows that mark is left open, and so is what stands
behind the mark in the parser. Every move of a cursor does what the same move does on a parser for
which it stands, looks up tokens inside the vector only, and leaves the end mark where it is.

## Main definitions

* `Portion`, `Cursor.Upcoming` — tokens up to an end mark, and those in front of a cursor
* `Declared.Fine`, `Record.Fine` — what is recorded lies in the vector and in front of the mark, and
  a declaration has moved on, unless it was barred and failed in place
* `Cursor.Stands` — a cursor that stands for a parser

## Main results

* `Cursor.simulation_lawful` — the moves on cursors agree with those on parsers
-/

namespace Scriptlet

/-- Tokens of which the last is an end mark, and no other is. -/
inductive Portion : List Token → Prop
  | mark {token : Token} (h : token.kind = .endOfInput) : Portion [token]
  | cons {token : Token} {rest : List Token} (h : token.kind ≠ .endOfInput)
      (hrest : Portion rest) : Portion (token :: rest)

theorem Portion.length_eq {portion : List Token} (h : Portion portion) (behind : List Token) :
    portion.length = (beforeEnd (portion ++ behind)).length + 1 := by
  induction h with
  | mark h => rw [List.cons_append, beforeEnd_cons_end h]; rfl
  | cons h _ ih => rw [List.cons_append, beforeEnd_cons h, List.length_cons, List.length_cons, ih]

theorem Portion.behind {front portion : List Token}
    (h : ∀ token ∈ front, token.kind ≠ .endOfInput) (hportion : Portion portion) :
    Portion (front ++ portion) := by
  induction front with
  | nil => exact hportion
  | cons token front ih =>
    exact .cons (h token (.head _)) (ih fun other hother => h other (.tail _ hother))

/-- What is known of a declaration that was read in a vector of tokens with a mark. -/
structure Declared.Fine (tokens : Array Token) (mark : Nat) (declared : Declared) : Prop where
  /-- It has not passed the mark. -/
  stop_le : declared.stop ≤ mark
  /-- If it failed, then fatally. -/
  fatal : ∀ halt, declared.halt? = some halt → ∃ error, halt = .error error ∧ error.isFatal = true
  /-- In front of the mark it has moved on, whether it gave a result or failed, unless it was
  barred. -/
  moves : declared.start < mark → ∀ token, tokens[declared.start]? = some token →
    ¬ Barred declared.statementDepth token → declared.start < declared.stop
  /-- If it was barred, then it failed in front of its first token. -/
  stays : declared.start < mark → ∀ token, tokens[declared.start]? = some token →
    Barred declared.statementDepth token → declared.stop = declared.start ∧
      declared.halt? = some (.error ⟨.statementNestingTooDeep, token⟩)

/-- What is recorded lies in a vector of tokens, and not behind a mark. -/
def Record.Fine (tokens : Array Token) (mark : Nat) : Record → Prop
  | looked position index => position ≤ mark ∧ index < tokens.size
  | declared declaration => declaration.Fine tokens mark

theorem Parser.advanced_of_not_atEnd {parser : Parser} (h : parser.atEnd = false) :
    parser.advanced = { parser with rest := parser.rest.tail } := by
  rw [advanced, h]
  rfl

namespace Cursor

/-- The tokens in front of a cursor, up to the next end mark and with it. -/
def Upcoming (cursor : Cursor) (portion : List Token) : Prop :=
  Portion portion ∧ ∃ behind, cursor.tokens.toList.drop cursor.position = portion ++ behind

/-- The cursor behind the next token. -/
def forth (cursor : Cursor) : Cursor := { cursor with position := cursor.position + 1 }

theorem Upcoming.getElem? {cursor : Cursor} {token : Token} {rest : List Token}
    (h : cursor.Upcoming (token :: rest)) : cursor.tokens[cursor.position]? = some token := by
  obtain ⟨_, behind, hdrop⟩ := h
  rw [← Array.getElem?_toList]
  simpa using congrArg List.head? hdrop

theorem Upcoming.forth {cursor : Cursor} {token : Token} {rest : List Token}
    (h : cursor.Upcoming (token :: rest)) (hrest : Portion rest) : cursor.forth.Upcoming rest := by
  obtain ⟨_, behind, hdrop⟩ := h
  refine ⟨hrest, behind, ?_⟩
  show cursor.tokens.toList.drop (cursor.position + 1) = rest ++ behind
  rw [← List.tail_drop, hdrop]
  rfl

/-- The tokens of a cursor, the place of the next end mark, what was noted and recorded before, and
how many expressions are open outside. -/
structure Setting where
  tokens : Array Token
  mark : Nat
  noted : Array ParseError
  recorded : List Record
  outer : Nat

/-- A cursor that stands for a parser. -/
structure Stands (setting : Setting) (parser : Parser) (cursor : Cursor) : Prop where
  /-- The vector is the given one. -/
  tokens_eq : cursor.tokens = setting.tokens
  /-- The same tokens are in front, up to the end mark at the given place. -/
  rest_eq : ∃ portion behind, cursor.Upcoming portion ∧ parser.rest = portion ++ behind ∧
    cursor.position + portion.length = setting.mark + 1
  /-- The same errors were noted behind those that were noted before. -/
  diagnostics_eq : cursor.diagnostics = setting.noted ++ parser.diagnostics
  /-- As many expressions are open. -/
  depth_eq : cursor.depth = parser.depth
  /-- As many statements are open. -/
  statementDepth_eq : cursor.statementDepth = parser.statementDepth
  /-- What was recorded since is fine. -/
  fine : ∀ record ∈ cursor.log, record ∈ setting.recorded ∨
    (setting.outer < maxNesting → record.Fine setting.tokens setting.mark)

namespace Stands

variable {setting : Setting} {parser : Parser} {cursor : Cursor}

theorem ahead_eq (h : Stands setting parser cursor) :
    cursor.position + parser.ahead = setting.mark := by
  obtain ⟨portion, behind, ⟨hportion, _⟩, hrest, hmark⟩ := h.rest_eq
  have hlength := hportion.length_eq behind
  rw [← hrest] at hlength
  show cursor.position + (beforeEnd parser.rest).length = setting.mark
  omega

theorem position_le (h : Stands setting parser cursor) : cursor.position ≤ setting.mark := by
  have hahead := h.ahead_eq
  omega

theorem mark_lt (h : Stands setting parser cursor) : setting.mark < setting.tokens.size := by
  obtain ⟨portion, behind, ⟨hportion, others, hdrop⟩, _, hmark⟩ := h.rest_eq
  have hlength := congrArg List.length hdrop
  rw [List.length_drop, List.length_append, h.tokens_eq, Array.length_toList] at hlength
  have hpositive := hportion.length_eq []
  omega

theorem ahead_lt (h : Stands setting parser cursor) : parser.ahead < cursor.tokens.size := by
  have hahead := h.ahead_eq
  have hmark := h.mark_lt
  rw [h.tokens_eq]
  omega

theorem getElem? (h : Stands setting parser cursor) :
    cursor.tokens[cursor.position]? = some parser.current := by
  obtain ⟨portion, behind, hupcoming, hrest, _⟩ := h.rest_eq
  cases hupcoming.1 with
  | mark => rw [hupcoming.getElem?, Parser.current, hrest]; rfl
  | cons => rw [hupcoming.getElem?, Parser.current, hrest]; rfl

theorem exists_rest (h : Stands setting parser cursor) :
    ∃ rest, parser.rest = parser.current :: rest := by
  obtain ⟨portion, behind, hupcoming, hrest, _⟩ := h.rest_eq
  rw [Parser.current, hrest]
  cases hupcoming.1 with
  | mark => exact ⟨behind, rfl⟩
  | @cons _ rest => exact ⟨rest ++ behind, rfl⟩

theorem noting (h : Stands setting parser cursor) {record : Record}
    (hrecord : setting.outer < maxNesting → record.Fine setting.tokens setting.mark) :
    Stands setting parser (cursor.noting record) where
  tokens_eq := h.tokens_eq
  rest_eq := h.rest_eq
  diagnostics_eq := h.diagnostics_eq
  depth_eq := h.depth_eq
  statementDepth_eq := h.statementDepth_eq
  fine := List.forall_mem_cons.mpr ⟨.inr hrecord, h.fine⟩

theorem forth (h : Stands setting parser cursor) (hend : parser.atEnd = false) :
    Stands setting parser.advanced cursor.forth := by
  obtain ⟨portion, behind, hupcoming, hrest, hmark⟩ := h.rest_eq
  rw [Parser.advanced_of_not_atEnd hend]
  refine ⟨h.tokens_eq, ?_, h.diagnostics_eq, h.depth_eq, h.statementDepth_eq, h.fine⟩
  cases hupcoming.1 with
  | @mark token hkind =>
    have htrue : parser.atEnd = true := by
      rw [Parser.atEnd_iff, hrest]
      exact hkind
    exact absurd (htrue.symm.trans hend) (by decide)
  | @cons token rest hkind hportion =>
    refine ⟨rest, behind, hupcoming.forth hportion, by rw [hrest]; rfl, ?_⟩
    show cursor.position + 1 + rest.length = setting.mark + 1
    rw [List.length_cons] at hmark
    omega

/-! ## Single tokens -/

/-- A token is looked up inside the vector. -/
theorem look (h : Stands setting parser cursor) {index : Nat} {token : Token}
    (htoken : cursor.tokens[index]? = some token) :
    ∃ after, Cursor.look index cursor = .ok token after ∧ Stands setting parser after ∧
      after.position = cursor.position := by
  have hindex : index < setting.tokens.size := by
    rw [h.tokens_eq] at htoken
    exact (Array.getElem?_eq_some_iff.mp htoken).choose
  refine ⟨cursor.noting (.looked cursor.position index), ?_,
    h.noting fun _ => ⟨h.position_le, hindex⟩, rfl⟩
  rw [Cursor.look, htoken]

theorem peek (h : Stands setting parser cursor) :
    ∃ after, Cursor.peek cursor = .ok parser.current after ∧ Stands setting parser after ∧
      after.position = cursor.position := h.look h.getElem?

theorem previous (h : Stands setting parser cursor) {token : Token}
    (htoken : cursor.tokens[cursor.position - 1]? = some token) :
    ∃ after, Cursor.previous cursor = .ok token after ∧ Stands setting parser after ∧
      after.position = cursor.position := h.look htoken

theorem atEnd (h : Stands setting parser cursor) :
    ∃ after, Cursor.atEnd cursor = .ok parser.atEnd after ∧ Stands setting parser after ∧
      after.position = cursor.position := by
  obtain ⟨after, hpeek, hafter⟩ := h.peek
  exact ⟨after, bind_of_ok hpeek, hafter⟩

/-- In front of an end mark nothing is consumed. -/
theorem advance_of_atEnd (h : Stands setting parser cursor) (hend : parser.atEnd = true) :
    ∃ token after, Cursor.advance cursor = .ok token after ∧ Stands setting parser after := by
  obtain ⟨middle, hmiddle, hstands, _⟩ := h.atEnd
  have hindex : middle.position - 1 < middle.tokens.size := by
    have hposition := hstands.position_le
    have hmark := hstands.mark_lt
    rw [hstands.tokens_eq]
    omega
  obtain ⟨token, htoken⟩ : ∃ token, middle.tokens[middle.position - 1]? = some token :=
    ⟨_, Array.getElem?_eq_getElem hindex⟩
  obtain ⟨after, hprevious, hafter, _⟩ := hstands.previous htoken
  refine ⟨token, after, ?_, hafter⟩
  rw [Cursor.advance, bind_of_ok hmiddle, hend]
  exact hprevious

/-- The token that is consumed is then in front of the position. -/
theorem advance (h : Stands setting parser cursor) (hend : parser.atEnd = false) :
    ∃ after, Cursor.advance cursor = .ok parser.current after ∧
      Stands setting parser.advanced after ∧ after.position = cursor.position + 1 := by
  obtain ⟨middle, hmiddle, hstands, hposition⟩ := h.atEnd
  obtain ⟨after, hprevious, hafter, hbehind⟩ := (hstands.forth hend).previous hstands.getElem?
  refine ⟨after, ?_, hafter, by rw [hbehind, ← hposition]; rfl⟩
  rw [Cursor.advance, bind_of_ok hmiddle, hend]
  exact hprevious

theorem check (h : Stands setting parser cursor) (kind : TokenKind) :
    ∃ after, Cursor.check kind cursor = .ok (!parser.atEnd && parser.current.kind = kind) after ∧
      Stands setting parser after ∧ after.position = cursor.position := by
  obtain ⟨middle, hmiddle, hstands, hposition⟩ := h.atEnd
  rw [Cursor.check, bind_of_ok hmiddle]
  cases hend : parser.atEnd with
  | true => exact ⟨middle, rfl, hstands, hposition⟩
  | false =>
    obtain ⟨after, hpeek, hafter, hbehind⟩ := hstands.peek
    refine ⟨after, ?_, hafter, hbehind.trans hposition⟩
    rw [if_neg Bool.false_ne_true, bind_of_ok hpeek]
    rfl

/-- Trying some kinds in order consumes the next token if it is of one of them. -/
theorem matchAny (h : Stands setting parser cursor) (kinds : List TokenKind) :
    (∃ after, (!parser.atEnd && kinds.contains parser.current.kind) = true ∧
      Cursor.matchAny kinds cursor = .ok true after ∧ Stands setting parser.advanced after ∧
        after.position = cursor.position + 1) ∨
    ∃ after, (!parser.atEnd && kinds.contains parser.current.kind) = false ∧
      Cursor.matchAny kinds cursor = .ok false after ∧ Stands setting parser after := by
  induction kinds generalizing cursor with
  | nil => exact .inr ⟨cursor, by simp, rfl, h⟩
  | cons kind kinds ih =>
    obtain ⟨middle, hcheck, hstands, hposition⟩ := h.check kind
    rw [Cursor.matchAny, bind_of_ok hcheck]
    by_cases hkind : (!parser.atEnd && decide (parser.current.kind = kind)) = true
    · rw [if_pos hkind]
      obtain ⟨hend, hsame⟩ := Bool.and_eq_true_iff.mp hkind
      rw [Bool.not_eq_true'] at hend
      obtain ⟨after, hadvance, hafter, hbehind⟩ := hstands.advance hend
      refine .inl ⟨after, ?_, bind_of_ok hadvance, hafter, hposition ▸ hbehind⟩
      rw [of_decide_eq_true hsame, hend]
      simp
    · rw [if_neg hkind]
      have hcontains : (!parser.atEnd && (kind :: kinds).contains parser.current.kind) =
          (!parser.atEnd && kinds.contains parser.current.kind) := by
        cases hend : parser.atEnd with
        | true => rfl
        | false =>
          rw [hend] at hkind
          simp only [Bool.not_false, Bool.true_and, decide_eq_true_eq] at hkind
          simp [hkind]
      rw [hcontains, ← hposition]
      exact ih hstands

theorem fail {α : Type} (h : Stands setting parser cursor) (cause : ParseCause) :
    ∃ after, (Cursor.fail cause : Indexed α) cursor = .error (.error ⟨cause, parser.current⟩) after ∧
      Stands setting parser after := by
  obtain ⟨after, hpeek, hafter, _⟩ := h.peek
  exact ⟨after, bind_of_ok hpeek, hafter⟩

theorem report (h : Stands setting parser cursor) (error : ParseError) :
    ∃ after, Cursor.report error cursor = .ok () after ∧
      Stands setting (parser.report error) after :=
  ⟨_, rfl, h.tokens_eq, h.rest_eq, by
    show cursor.diagnostics.push error = setting.noted ++ parser.diagnostics.push error
    rw [h.diagnostics_eq, Array.append_push], h.depth_eq, h.statementDepth_eq, h.fine⟩

/-! ## Going on after an error -/

theorem skip_of_atEnd (h : Stands setting parser cursor) (hend : parser.atEnd = true)
    {count : Nat} (hcount : parser.ahead < count) :
    ∃ after, Cursor.skip count cursor = .ok () after ∧ Stands setting parser after := by
  obtain ⟨count, rfl⟩ := Nat.exists_eq_succ_of_ne_zero (Nat.ne_zero_of_lt hcount)
  obtain ⟨after, hatEnd, hafter, _⟩ := h.atEnd
  refine ⟨after, ?_, hafter⟩
  rw [Cursor.skip, bind_of_ok hatEnd, hend]
  rfl

theorem skipTokens_of_atEnd (h : Stands setting parser cursor) (hend : parser.atEnd = true) :
    Parse.skipTokens parser.rest = parser.rest := by
  obtain ⟨rest, hrest⟩ := h.exists_rest
  rw [hrest, Parse.skipTokens.eq_def]
  exact if_pos (of_decide_eq_true hend)

/-- Skipping looks at the token in front of the position, which was consumed just before. -/
theorem skip {token : Token} {count : Nat} (h : Stands setting parser cursor)
    (htoken : cursor.tokens[cursor.position - 1]? = some token)
    (hkind : token.kind ≠ .endOfInput) (hcount : parser.ahead < count) :
    ∃ after, Cursor.skip count cursor = .ok () after ∧
      Stands setting { parser with rest := Parse.skipTokens (token :: parser.rest) } after := by
  induction count generalizing parser cursor token with
  | zero => exact absurd hcount (Nat.not_lt_zero _)
  | succ count ih =>
    obtain ⟨rest, hrest⟩ := h.exists_rest
    have hskip := Parse.skipTokens_cons_cons hkind parser.current rest
    rw [← hrest] at hskip
    rw [hskip]
    cases hend : parser.atEnd with
    | true =>
      rw [h.skipTokens_of_atEnd hend, ite_self, ite_self]
      exact h.skip_of_atEnd hend hcount
    | false =>
      obtain ⟨first, hfirst, hstands, hposition⟩ := h.atEnd
      have hbehind : first.tokens[first.position - 1]? = some token := by
        rw [hstands.tokens_eq, ← h.tokens_eq, hposition]
        exact htoken
      obtain ⟨second, hsecond, hstands, _⟩ := hstands.previous hbehind
      rw [Cursor.skip, bind_of_ok hfirst, hend, if_neg Bool.false_ne_true, bind_of_ok hsecond]
      by_cases hsemicolon : token.kind = .semicolon
      · rw [if_pos hsemicolon, if_pos hsemicolon]
        exact ⟨second, rfl, hstands⟩
      · rw [if_neg hsemicolon, if_neg hsemicolon]
        obtain ⟨third, hthird, hstands, _⟩ := hstands.peek
        rw [bind_of_ok hthird]
        by_cases hstarts : parser.current.kind.startsStatement = true
        · rw [if_pos hstarts, if_pos hstarts]
          exact ⟨third, rfl, hstands⟩
        · rw [if_neg hstarts, if_neg hstarts]
          obtain ⟨last, hlast, hmoved, hnext⟩ := hstands.advance hend
          have hconsumed : last.tokens[last.position - 1]? = some parser.current := by
            rw [hmoved.tokens_eq, ← hstands.tokens_eq, hnext]
            exact hstands.getElem?
          have hahead := parser.ahead_advanced hend
          obtain ⟨after, hafter, hdone⟩ :=
            ih hmoved hconsumed (of_decide_eq_false hend) (by omega)
          refine ⟨after, (bind_of_ok hlast).trans hafter, ?_⟩
          rw [Parser.advanced_of_not_atEnd hend, hrest] at hdone
          rwa [hrest]

theorem synchronize (h : Stands setting parser cursor) :
    ∃ after, Cursor.synchronize cursor = .ok () after ∧
      Stands setting { parser with rest := Parse.skipTokens parser.rest } after := by
  cases hend : parser.atEnd with
  | true =>
    obtain ⟨token, middle, hadvance, hstands⟩ := h.advance_of_atEnd hend
    obtain ⟨after, hskip, hafter⟩ := hstands.skip_of_atEnd hend hstands.ahead_lt
    refine ⟨after, (bind_of_ok hadvance).trans hskip, ?_⟩
    rwa [h.skipTokens_of_atEnd hend]
  | false =>
    obtain ⟨middle, hadvance, hstands, hposition⟩ := h.advance hend
    have hconsumed : middle.tokens[middle.position - 1]? = some parser.current := by
      rw [hstands.tokens_eq, ← h.tokens_eq, hposition]
      exact h.getElem?
    obtain ⟨after, hskip, hafter⟩ :=
      hstands.skip hconsumed (of_decide_eq_false hend) hstands.ahead_lt
    refine ⟨after, (bind_of_ok hadvance).trans hskip, ?_⟩
    obtain ⟨rest, hrest⟩ := h.exists_rest
    rw [Parser.advanced_of_not_atEnd hend, hrest] at hafter
    rwa [hrest]

end Stands

/-! ## The simulation -/

/-- Cursors that stand for parsers. -/
def simulation (setting : Setting) : Simulation Cursor Halt where
  token := id
  State := Stands setting
  error := .error

section Simulation

variable {α β : Type} {setting : Setting} {depth statements : Nat} {change : α → β}
variable {read : Parse α} {other : Indexed β}

theorem simulates_acceptAny (kinds : List TokenKind) :
    (simulation setting).Simulates depth statements (Option.map id)
      (Parse.acceptIf kinds.contains) (Cursor.acceptAny kinds) := by
  rintro parser cursor ⟨hstands, hdepth, hstatements⟩
  unfold Simulation.SimulatesAt Parse.acceptIf Cursor.acceptAny
  rcases hstands.matchAny kinds with ⟨middle, hwanted, hmatch, hmiddle, hposition⟩ |
    ⟨middle, hwanted, hmatch, hmiddle⟩
  · have hconsumed : middle.tokens[middle.position - 1]? = some parser.current := by
      rw [hmiddle.tokens_eq, ← hstands.tokens_eq, hposition]
      exact hstands.getElem?
    obtain ⟨after, hprevious, hafter, _⟩ := hmiddle.previous hconsumed
    rw [if_pos hwanted, bind_of_ok hmatch, if_pos rfl, bind_of_ok hprevious]
    have hreaches := parser.reaches_advanced
    exact .ok ⟨hafter, hreaches.depth.trans hdepth, hreaches.statementDepth.trans hstatements⟩
  · rw [hwanted, bind_of_ok hmatch]
    exact .ok ⟨hmiddle, hdepth, hstatements⟩

theorem simulates_fail (cause : ParseCause) :
    (simulation setting).Simulates depth statements change (Parse.fail cause)
      (Cursor.fail cause) := by
  rintro parser cursor ⟨hstands, hdepth, hstatements⟩
  obtain ⟨after, hfail, hafter⟩ := @Stands.fail _ _ _ β hstands cause
  unfold Simulation.SimulatesAt
  rw [hfail]
  exact .error ⟨hafter, hdepth, hstatements⟩

/-- The levels that are open on a cursor are those that are open on the parser. -/
theorem counts_agree (setting : Setting) : counts.Agree (simulation setting) where
  depth _ _ h := h.depth_eq
  statementDepth _ _ h := h.statementDepth_eq
  changeDepth _ _ h change := { h with depth_eq := congrArg change h.depth_eq }
  changeStatementDepth _ _ h change :=
    { h with statementDepth_eq := congrArg change h.statementDepth_eq }

/-- Going on after an error. -/
theorem simulates_orElse (substitute : α)
    (h : (simulation setting).Simulates depth statements change read other) :
    (simulation setting).Simulates depth statements change (Parse.recovering substitute read)
      (Cursor.orElse (change substitute) other) := by
  intro parser cursor hat
  have hread := h hat
  unfold Simulation.SimulatesAt Parse.recovering Cursor.orElse at *
  generalize read parser = outcome, other cursor = answer at hread
  cases hread with
  | ok hafter => exact .ok hafter
  | @error error stop after hafter =>
    show (simulation setting).Matches depth statements change _ (ite _ _ _)
    by_cases hfatal : error.isFatal = true
    · rw [if_pos hfatal]
      simp only [if_pos hfatal]
      exact .error hafter
    · simp only [if_neg hfatal]
      obtain ⟨middle, hreport, hmiddle⟩ := Stands.report hafter.stands error
      obtain ⟨last, hskip, hlast⟩ := hmiddle.synchronize
      rw [bind_of_ok hreport, bind_of_ok hskip]
      exact .ok ⟨hlast, hafter.depth_eq, hafter.statements_eq⟩

/-- What is recorded of a declaration is fine. -/
theorem simulates_recovering (substitute : α)
    (hproceeds : ∀ start : Parser, start.atEnd = false →
      start.Proceeds statements (Parse.recovering substitute read start))
    (h : (simulation setting).Simulates setting.outer statements change read other) :
    (simulation setting).Simulates setting.outer statements change
      (Parse.recovering substitute read) (Cursor.recovering (change substitute) other) := by
  intro parser cursor hat
  have hread := simulates_orElse substitute h hat
  have hstart := Stands.ahead_eq hat.stands
  have hstatements : cursor.statementDepth = statements :=
    (Stands.statementDepth_eq hat.stands).trans hat.statements_eq
  have hcurrent : setting.tokens[cursor.position]? = some parser.current :=
    Stands.tokens_eq hat.stands ▸ Stands.getElem? hat.stands
  have hahead (hmark : cursor.position < setting.mark) :
      parser.Proceeds statements (Parse.recovering substitute read parser) :=
    hproceeds parser (parser.ahead_pos_iff.mp (by omega))
  unfold Simulation.SimulatesAt Cursor.recovering at *
  generalize hrecover : Parse.recovering substitute read parser = outcome,
    Cursor.orElse (change substitute) other cursor = answer at hread
  rw [hrecover] at hahead
  -- The tokens that are left in front of the mark say where the position is.
  cases hread with
  | @ok result stop after hafter =>
    have hstop := Stands.ahead_eq hafter.stands
    refine .ok ⟨Stands.noting hafter.stands fun _ => ?_, hafter.depth_eq, hafter.statements_eq⟩
    refine ⟨Stands.position_le hafter.stands, by rintro _ ⟨⟩, fun hmark _ _ _ => ?_,
      fun hmark token htoken hbarred => ?_⟩
    · have hless : stop.ahead < parser.ahead := (hahead hmark).moved
      show cursor.position < after.position
      omega
    · rw [hcurrent] at htoken
      cases htoken
      cases (hahead hmark).stays (hstatements ▸ hbarred)
  | @error error stop after hafter =>
    have hstop := Stands.ahead_eq hafter.stands
    have hfatal : error.isFatal = true := Parse.isFatal_of_recovering hrecover
    refine .error ⟨Stands.noting hafter.stands fun houter => ?_, hafter.depth_eq,
      hafter.statements_eq⟩
    refine ⟨Stands.position_le hafter.stands, ?_, fun hmark token htoken hopen => ?_,
      fun hmark token htoken hbarred => ?_⟩
    · rintro halt ⟨⟩
      exact ⟨error, rfl, hfatal⟩
    · rw [hcurrent] at htoken
      cases htoken
      have hless : stop.ahead < parser.ahead :=
        (hahead hmark).moved hfatal ⟨hat.depth_eq ▸ houter, hstatements ▸ hopen⟩
      show cursor.position < after.position
      omega
    · rw [hcurrent] at htoken
      cases htoken
      cases (hahead hmark).stays (hstatements ▸ hbarred)
      refine ⟨?_, rfl⟩
      show after.position = cursor.position
      omega

/-- **Each move on cursors does what it does on the parsers for which they stand.** -/
theorem simulation_lawful (setting : Setting) :
    (simulation setting).Lawful machine setting.outer where
  kind _ := rfl
  lexeme _ := rfl
  peek := by
    rintro depth statements parser cursor ⟨hstands, hdepth, hstatements⟩
    obtain ⟨after, hpeek, hafter, _⟩ := Stands.peek hstands
    show (simulation setting).Matches depth statements id _ (Cursor.peek cursor)
    rw [hpeek]
    exact .ok ⟨hafter, hdepth, hstatements⟩
  advance := by
    rintro depth statements parser cursor ⟨hstands, hdepth, hstatements⟩ hend
    obtain ⟨after, hadvance, hafter, _⟩ := Stands.advance hstands hend
    have hreaches := parser.reaches_advanced
    show (simulation setting).Matches depth statements id _ (Cursor.advance cursor)
    rw [hadvance]
    exact .ok ⟨hafter, hreaches.depth.trans hdepth, hreaches.statementDepth.trans hstatements⟩
  acceptAny := simulates_acceptAny
  fail _ := simulates_fail
  report error := by
    rintro parser cursor ⟨hstands, hdepth, hstatements⟩
    obtain ⟨after, hreport, hafter⟩ := Stands.report hstands error
    show (simulation setting).Matches _ _ id _ (Cursor.report error cursor)
    rw [hreport]
    exact .ok ⟨hafter, hdepth, hstatements⟩
  nested := (counts_agree setting).nested
  nested_full _ _ hfull := (counts_agree setting).nested_full hfull (simulates_fail _)
  nestedStatement := (counts_agree setting).nestedStatement
  nestedStatement_full _ _ hfull :=
    (counts_agree setting).nestedStatement_full hfull (simulates_fail _)
  recovering := simulates_recovering
  rounds hat := Stands.ahead_lt hat.stands

theorem simulates_declaration (setting : Setting) :
    (simulation setting).Simulates setting.outer statements id Parse.declaration
      machine.declaration := by
  have hsame : (simulation setting).stmt = id := funext Stmt.relabel_id
  have hread := @(simulation_lawful setting).declaration _ _ _ _ statements
  rwa [hsame] at hread

theorem simulates_program (setting : Setting) :
    (simulation setting).Simulates setting.outer statements id Parse.program machine.program := by
  have hsame : (simulation setting).stmt = id := funext Stmt.relabel_id
  have hread := @(simulation_lawful setting).program _ _ _ _ statements
  rwa [hsame, List.map_id_fun] at hread

end Simulation

end Cursor

end Scriptlet
