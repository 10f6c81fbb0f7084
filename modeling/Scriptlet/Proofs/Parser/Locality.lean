import Scriptlet.Proofs.Parser.Position

/-!
# Reading is local

What is read from a position is decided by the tokens in front of it up to the next end mark, and by
how many levels are open. The tokens behind the position do not matter, although reading looks at the
last of them, and those behind the end mark do not matter either.

## Main definitions

* `Cursor.remaining` — the tokens that are left

## Main results

* `Cursor.exists_reads` — tokens up to an end mark are read in one way
* `Cursor.reads_alike` — from two places with the same tokens in front, the same is read
-/

namespace Scriptlet

namespace Cursor

/-- The tokens that are left. -/
def remaining (cursor : Cursor) : List Token := cursor.tokens.toList.drop cursor.position

/-- A new cursor over the tokens that are left has the same tokens in front of it. -/
theorem Upcoming.ofTokens_remaining {cursor : Cursor} {portion : List Token}
    (h : cursor.Upcoming portion) : (ofTokens cursor.remaining).Upcoming portion := by
  obtain ⟨hportion, behind, hbehind⟩ := h
  obtain ⟨added, hadded, _⟩ := rest_ofTokens cursor.remaining
  refine ⟨hportion, behind ++ added, hadded.trans ?_⟩
  rw [remaining, hbehind, List.append_assoc]

/-- **Tokens up to an end mark are read in one way**, wherever they stand. -/
theorem exists_reads {α : Type} {read : Parse α} {other : Indexed α}
    (hforward : Parse.Forward read) {depth statements : Nat}
    (hsimulates : ∀ setting : Setting, (simulation setting).Simulates setting.outer statements id
      read other) (portion : List Token) :
    ∃ result noted consumed, ∀ cursor : Cursor, cursor.Upcoming portion → cursor.depth = depth →
      cursor.statementDepth = statements → Reads read other cursor result noted consumed := by
  obtain ⟨result, stop, hread⟩ := exists_endingIn (read ⟨portion, #[], depth, statements⟩)
  refine ⟨result, stop.diagnostics, portion.length - stop.rest.length, ?_⟩
  rintro cursor hupcoming rfl rfl
  exact reads_of_portion hforward hsimulates hupcoming hread

/-- Where reading a declaration stops, tokens are left up to an end mark, and as many levels are open
as before. -/
theorem Upcoming.after_declaration {cursor : Cursor} {portion : List Token}
    (h : cursor.Upcoming portion) :
    (∃ rest, (stateAfter machine.declaration cursor).Upcoming rest) ∧
      (stateAfter machine.declaration cursor).depth = cursor.depth ∧
      (stateAfter machine.declaration cursor).statementDepth = cursor.statementDepth := by
  obtain ⟨behind, hbehind⟩ := h.2
  have hat := @Upcoming.stands _ _ h cursor.parser behind #[] hbehind Array.empty_append.symm rfl rfl
  have hafter := (simulates_declaration _ hat).stateAfter
  obtain ⟨rest, _, hrest, _⟩ := Stands.rest_eq hafter.stands
  exact ⟨⟨rest, hrest⟩, (Stands.depth_eq hafter.stands).trans hafter.depth_eq,
    (Stands.statementDepth_eq hafter.stands).trans hafter.statements_eq⟩

/-- **From two places with the same tokens in front, the same is read.** Let as many levels be open on
two cursors, and let the tokens in front of them be the same up to the next end mark and with it. Then
reading a program, and also reading a declaration, gives the same result on both, notes the same
errors and moves both on by the same number of tokens. With no level open, what is left where a
declaration stopped, for instance to go on after an error, is read as by a new parser. -/
theorem reads_alike {first second : Cursor} {portion : List Token}
    (hfirst : first.Upcoming portion) (hsecond : second.Upcoming portion)
    (hdepth : second.depth = first.depth)
    (hstatements : second.statementDepth = first.statementDepth) :
    (∃ result noted consumed,
      Reads Parse.program machine.program first result noted consumed ∧
        Reads Parse.program machine.program second result noted consumed) ∧
    (∃ result noted consumed,
      Reads Parse.declaration machine.declaration first result noted consumed ∧
        Reads Parse.declaration machine.declaration second result noted consumed) ∧
    (first.depth = 0 → first.statementDepth = 0 →
      let stop := stateAfter machine.declaration first
      ∃ result noted consumed,
        Reads Parse.program machine.program stop result noted consumed ∧
          Reads Parse.program machine.program (ofTokens stop.remaining) result noted consumed) := by
  refine ⟨?_, ?_, fun hnone hno => ?_⟩
  · obtain ⟨result, noted, consumed, hreads⟩ :=
      exists_reads Parse.forward_program simulates_program portion
    exact ⟨result, noted, consumed, hreads first hfirst rfl rfl,
      hreads second hsecond hdepth hstatements⟩
  · obtain ⟨result, noted, consumed, hreads⟩ :=
      exists_reads Parse.forward_declaration simulates_declaration portion
    exact ⟨result, noted, consumed, hreads first hfirst rfl rfl,
      hreads second hsecond hdepth hstatements⟩
  · obtain ⟨⟨rest, hrest⟩, hsame, halso⟩ := hfirst.after_declaration
    obtain ⟨result, noted, consumed, hreads⟩ :=
      exists_reads Parse.forward_program simulates_program rest
    exact ⟨result, noted, consumed, hreads _ hrest (hsame.trans hnone) (halso.trans hno),
      hreads _ hrest.ofTokens_remaining rfl rfl⟩

end Cursor

namespace Sample

/-- `) y end` -/
def shared : List Token :=
  [⟨.rightParen, ")", ⟨1, 3⟩⟩, ⟨.identifier, "y", ⟨1, 5⟩⟩, ⟨.endOfInput, "", ⟨1, 6⟩⟩]

/-- A cursor behind a semicolon, with a number behind the end mark. -/
def behindSemicolon : Cursor :=
  let tokens : List Token := ⟨.semicolon, ";", ⟨1, 1⟩⟩ :: (shared ++ [⟨.number, "1", ⟨2, 1⟩⟩])
  ⟨tokens.toArray, 1, #[], 0, 0, []⟩

/-- A cursor in front of all tokens. -/
def atStart : Cursor :=
  ⟨shared.toArray, 0, #[⟨.noExpression, ⟨.comma, ",", ⟨1, 1⟩⟩⟩], 0, 0, []⟩

/-- The same is read behind the semicolon and at the start. -/
theorem reads_shared :
    behindSemicolon.Upcoming shared ∧ atStart.Upcoming shared ∧
      ∃ result noted consumed,
        Cursor.Reads Parse.program Cursor.machine.program behindSemicolon result noted consumed ∧
          Cursor.Reads Parse.program Cursor.machine.program atStart result noted consumed := by
  have hshared : Portion shared := .cons (by decide) (.cons (by decide) (.mark rfl))
  have hbehind : behindSemicolon.Upcoming shared := ⟨hshared, [⟨.number, "1", ⟨2, 1⟩⟩], rfl⟩
  have hstart : atStart.Upcoming shared := ⟨hshared, [], rfl⟩
  exact ⟨hbehind, hstart, (Cursor.reads_alike hbehind hstart rfl rfl).1⟩

end Sample

end Scriptlet
