import Scriptlet.Proofs.Parser.Bounds

/-!
# Reading by position is reading

Reading by position and reading on a parser give the same, and what they give is decided by the
tokens in front of the position up to the next end mark. To see this, both are compared with a parser
that holds nothing but those tokens and has noted nothing.

## Main definitions

* `endingIn` — an outcome made of a result and a state
* `Cursor.Reads` — what reading from a cursor comes to, by position and on a parser

## Main results

* `Cursor.reads_of_portion` — reading from a cursor comes to what it does on the tokens in front of it
-/

namespace Scriptlet

/-- The outcome with a result, or with an error that is passed on in another form, in a state. -/
def endingIn {ε δ σ α : Type} (raise : ε → δ) (result : Except ε α) (state : σ) :
    EStateM.Result δ σ α :=
  match result with
  | .ok value => .ok value state
  | .error error => .error (raise error) state

theorem exists_endingIn {ε σ α : Type} (outcome : EStateM.Result ε σ α) :
    ∃ result state, outcome = endingIn id result state := by
  cases outcome with
  | ok value state => exact ⟨.ok value, state, rfl⟩
  | error error state => exact ⟨.error error, state, rfl⟩

theorem stateAfter_of_endingIn {ε δ σ α : Type} {action : EStateM δ σ α} {before after : σ}
    {raise : ε → δ} {result : Except ε α} (h : action before = endingIn raise result after) :
    stateAfter action before = after := by
  rw [stateAfter, h]
  cases result <;> rfl

namespace Cursor

theorem endingIn_injective {α : Type} {result result' : Except ParseError α}
    {after after' : Cursor} (h : endingIn Halt.error result after = endingIn .error result' after') :
    result = result' ∧ after = after' := by
  cases result <;> cases result' <;> cases h <;> exact ⟨rfl, rfl⟩

variable {α : Type} {read : Parse α} {other : Indexed α} {cursor : Cursor} {portion : List Token}

/-- From a cursor, reading by position gives a result, notes errors and moves on by a number of tokens,
and reading on the parser that holds the tokens that are left gives the same result and leaves what
is then left. -/
def Reads (read : Parse α) (other : Indexed α) (cursor : Cursor) (result : Except ParseError α)
    (noted : Array ParseError) (consumed : Nat) : Prop :=
  ∃ after : Cursor, other cursor = endingIn .error result after ∧
    read cursor.parser = endingIn id result after.parser ∧ after.tokens = cursor.tokens ∧
    after.position = cursor.position + consumed ∧ after.diagnostics = cursor.diagnostics ++ noted ∧
    after.depth = cursor.depth ∧ after.statementDepth = cursor.statementDepth

/-- The parser that holds the tokens in front of a cursor and has noted nothing. -/
def facing (cursor : Cursor) (portion : List Token) : Parser :=
  ⟨portion, #[], cursor.depth, cursor.statementDepth⟩

/-- The setting in which a cursor is found. -/
def setting (cursor : Cursor) (portion : List Token) (noted : Array ParseError) : Setting :=
  ⟨cursor.tokens, cursor.position + portion.length - 1, noted, cursor.log, cursor.depth⟩

theorem Upcoming.stands (h : cursor.Upcoming portion) {parser : Parser} {behind : List Token}
    {noted : Array ParseError} (hrest : parser.rest = portion ++ behind)
    (hnoted : cursor.diagnostics = noted ++ parser.diagnostics) (hdepth : parser.depth = cursor.depth)
    (hstatements : parser.statementDepth = cursor.statementDepth) :
    (simulation (cursor.setting portion noted)).At cursor.depth cursor.statementDepth parser
      cursor := by
  have hlength := h.1.length_eq []
  refine ⟨⟨rfl, ⟨portion, behind, h, hrest, ?_⟩, hnoted, hdepth.symm, hstatements.symm,
    fun record hrecord => .inl hrecord⟩, hdepth, hstatements⟩
  show cursor.position + portion.length = cursor.position + portion.length - 1 + 1
  omega

/-- A parser that was reached has what is left in front of the cursor that stands for it. -/
theorem Stands.parser_eq {setting : Setting} {stop : Parser} {after : Cursor}
    (hnoted : setting.noted = #[]) (h : Stands setting cursor.parser cursor)
    (hstop : Stands setting stop after) (hreaches : cursor.parser.Reaches stop) :
    after.parser = stop := by
  obtain ⟨consumed, hrest, hahead⟩ := hreaches.ahead_eq
  have hposition : after.position = cursor.position + consumed.length := by
    have hstart := h.ahead_eq
    have hafter := hstop.ahead_eq
    omega
  have hleft : after.tokens.toList.drop after.position = stop.rest := by
    rw [hstop.tokens_eq, ← h.tokens_eq, hposition, ← List.drop_drop]
    show cursor.parser.rest.drop consumed.length = stop.rest
    rw [hrest, List.drop_left]
  have hdiagnostics : after.diagnostics = stop.diagnostics := by
    rw [hstop.diagnostics_eq, hnoted, Array.empty_append]
  rw [parser, hleft, hdiagnostics, hstop.depth_eq, hstop.statementDepth_eq]

/-- What a read by position gives if it agrees with a read. -/
theorem exists_answer {setting : Setting} {depth statements : Nat} {parser stop : Parser}
    {result : Except ParseError α}
    (h : (simulation setting).SimulatesAt depth statements parser cursor id read other)
    (hread : read parser = endingIn id result stop) :
    ∃ after, other cursor = endingIn .error result after ∧
      (simulation setting).At depth statements stop after := by
  unfold Simulation.SimulatesAt at h
  rw [hread] at h
  generalize other cursor = answer at h ⊢
  cases result with
  | ok value =>
    cases h with
    | ok hafter => exact ⟨_, rfl, hafter⟩
  | error error =>
    cases h with
    | error hafter => exact ⟨_, rfl, hafter⟩

/-- **Reading from a cursor comes to what it does on the tokens in front of it.** -/
theorem reads_of_portion (hforward : Parse.Forward read)
    (hsimulates : ∀ setting : Setting, (simulation setting).Simulates setting.outer
      cursor.statementDepth id read other)
    (h : cursor.Upcoming portion) {result : Except ParseError α} {stop : Parser}
    (hread : read (cursor.facing portion) = endingIn id result stop) :
    Reads read other cursor result stop.diagnostics (portion.length - stop.rest.length) := by
  have halone : (simulation (cursor.setting portion cursor.diagnostics)).At cursor.depth
      cursor.statementDepth (cursor.facing portion) cursor :=
    h.stands (List.append_nil portion).symm Array.append_empty.symm rfl rfl
  obtain ⟨behind, hbehind⟩ := h.2
  have hwhole : (simulation (cursor.setting portion #[])).At cursor.depth cursor.statementDepth
      cursor.parser cursor :=
    h.stands hbehind Array.empty_append.symm rfl rfl
  obtain ⟨after, hother, hafter⟩ := exists_answer (hsimulates _ halone) hread
  obtain ⟨result', stop', hread'⟩ := exists_endingIn (read cursor.parser)
  obtain ⟨after', hother', hafter'⟩ := exists_answer (hsimulates _ hwhole) hread'
  obtain ⟨rfl, rfl⟩ := endingIn_injective (hother.symm.trans hother')
  have hparser : after.parser = stop' := by
    refine Stands.parser_eq rfl hwhole.stands hafter'.stands ?_
    rw [← stateAfter_of_endingIn hread']
    exact hforward cursor.parser
  refine ⟨after, hother, by rw [hread', hparser], Stands.tokens_eq hafter.stands, ?_,
    Stands.diagnostics_eq hafter.stands, ?_, ?_⟩
  · have hreaches := hforward (cursor.facing portion)
    rw [stateAfter_of_endingIn hread] at hreaches
    obtain ⟨consumed, hrest, hahead⟩ := hreaches.ahead_eq
    have hlength : portion.length = consumed.length + stop.rest.length := by
      rw [← List.length_append, ← hrest]
      rfl
    have hstart := Stands.ahead_eq halone.stands
    have hstop := Stands.ahead_eq hafter.stands
    omega
  · exact (Stands.depth_eq hafter.stands).trans hafter.depth_eq
  · exact (Stands.statementDepth_eq hafter.stands).trans hafter.statements_eq

end Cursor

end Scriptlet
