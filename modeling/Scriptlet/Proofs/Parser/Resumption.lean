import Mathlib.Order.Bounds.Basic
import Scriptlet.Proofs.Parser.Position

/-!
# Where reading goes on after an error

After an error tokens are skipped up to a place where a statement may start. A loop that stops one
token too early reads part of the broken statement again, and one that stops too late loses a
statement, and neither shows in the errors. So here the place is given without the loop: it is the
first one behind the error that follows a semicolon, is in front of a keyword that starts a
statement, or is in front of the next end mark.

Positions are counted in all the tokens of a script. A parser that holds what is left of them is at
the position behind which these are.

## Main definitions

* `NextMark` — where the next end mark is
* `Boundary` — where reading may go on
* `Resumption` — where it does

## Main results

* `NextMark.exists_resumption` — there is exactly one such place
* `Parse.synchronize_eq` — skipping ends there
* `Cursor.synchronize_eq` — and so it does if tokens are looked up by position
-/

namespace Scriptlet

/-- The next end mark, seen from a position. -/
structure NextMark (tokens : List Token) (position mark : Nat) : Prop where
  /-- The mark is at the position or behind it. -/
  le : position ≤ mark
  /-- It is an end mark. -/
  isEnd : ∃ token, tokens[mark]? = some token ∧ token.kind = .endOfInput
  /-- There is no other in between. -/
  before : ∀ index, position ≤ index → index < mark → ∀ token, tokens[index]? = some token →
    token.kind ≠ .endOfInput

/-- A place at which reading may go on after an error: the next end mark, a place behind a
semicolon, or one in front of a keyword that starts a statement. -/
def Boundary (tokens : List Token) (mark place : Nat) : Prop :=
  place = mark ∨ (∃ token, tokens[place - 1]? = some token ∧ token.kind = .semicolon) ∨
    ∃ token, tokens[place]? = some token ∧
      token.kind ∈ [TokenKind.kwFunction, .kwIf, .kwWhile, .kwPrint]

/-- The place at which reading goes on after an error at a position. It is the first boundary behind
the position, and the position itself if an end mark is next. -/
structure Resumption (tokens : List Token) (position mark place : Nat) : Prop where
  le : position ≤ mark
  least : position < mark →
    IsLeast {place | position < place ∧ place ≤ mark ∧ Boundary tokens mark place} place
  stays : position = mark → place = position

theorem startsStatement_iff (kind : TokenKind) :
    kind.startsStatement = true ↔ kind ∈ [TokenKind.kwFunction, .kwIf, .kwWhile, .kwPrint] := by
  cases kind <;> decide

namespace NextMark

variable {tokens : List Token} {position mark : Nat}

theorem lt_length (h : NextMark tokens position mark) : mark < tokens.length := by
  obtain ⟨_, htoken, _⟩ := h.isEnd
  exact (List.getElem?_eq_some_iff.mp htoken).1

/-- On the way to the mark it stays the next. -/
theorem of_le (h : NextMark tokens position mark) {place : Nat} (hplace : position ≤ place)
    (hle : place ≤ mark) : NextMark tokens place mark :=
  ⟨hle, h.isEnd, fun index hindex => h.before index (Nat.le_trans hplace hindex)⟩

/-- The token at the position is the first of those that are left, and an end mark only at the
mark. -/
theorem exists_token (h : NextMark tokens position mark) :
    ∃ token, tokens[position]? = some token ∧
      tokens.drop position = token :: tokens.drop (position + 1) ∧
      (token.kind = .endOfInput ↔ position = mark) := by
  have hlt : position < tokens.length := Nat.lt_of_le_of_lt h.le h.lt_length
  have htoken : tokens[position]? = some tokens[position] := List.getElem?_eq_getElem hlt
  refine ⟨tokens[position], htoken, List.drop_eq_getElem_cons hlt, fun hend => ?_, ?_⟩
  · by_contra hne
    exact h.before position (Nat.le_refl _) (Nat.lt_of_le_of_ne h.le hne) _ htoken hend
  · rintro rfl
    obtain ⟨token, hmark, hkind⟩ := h.isEnd
    exact Option.some.inj (htoken.symm.trans hmark) ▸ hkind

end NextMark

namespace Resumption

variable {tokens : List Token} {position mark place : Nat}

theorem place_le (h : Resumption tokens position mark place) : place ≤ mark := by
  rcases Nat.lt_or_eq_of_le h.le with hlt | heq
  · exact (h.least hlt).1.2.1
  · exact Nat.le_of_eq ((h.stays heq).trans heq)

theorem le_place (h : Resumption tokens position mark place) : position ≤ place := by
  rcases Nat.lt_or_eq_of_le h.le with hlt | heq
  · exact Nat.le_of_lt (h.least hlt).1.1
  · exact Nat.le_of_eq (h.stays heq).symm

/-- **No boundary is skipped.** -/
theorem not_boundary (h : Resumption tokens position mark place) {between : Nat}
    (hbehind : position < between) (hbefore : between < place) :
    ¬ Boundary tokens mark between := by
  intro hboundary
  have hmark : between ≤ mark := Nat.le_trans (Nat.le_of_lt hbefore) h.place_le
  rcases Nat.lt_or_eq_of_le h.le with hlt | heq
  · exact absurd ((h.least hlt).2 ⟨hbehind, hmark, hboundary⟩) (Nat.not_le.mpr hbefore)
  · omega

/-- There is only one such place. -/
theorem unique (h : Resumption tokens position mark place) {other : Nat}
    (hother : Resumption tokens position mark other) : place = other := by
  rcases Nat.lt_or_eq_of_le h.le with hlt | heq
  · exact (h.least hlt).unique (hother.least hlt)
  · rw [h.stays heq, hother.stays heq]

/-- In front of the mark, a boundary that is next is the place. -/
theorem next (hlt : position < mark) (h : Boundary tokens mark (position + 1)) :
    Resumption tokens position mark (position + 1) where
  le := Nat.le_of_lt hlt
  least _ := ⟨⟨Nat.lt_succ_self _, hlt, h⟩, fun _ hother => hother.1⟩
  stays heq := absurd heq (Nat.ne_of_lt hlt)

/-- Where the next place is no boundary, reading goes on where it does from there. -/
theorem skip (hlt : position < mark) (h : ¬ Boundary tokens mark (position + 1))
    (hplace : Resumption tokens (position + 1) mark place) :
    Resumption tokens position mark place where
  le := Nat.le_of_lt hlt
  least _ := by
    have hnext : position + 1 < mark := Nat.lt_of_le_of_ne hlt fun heq => h (.inl heq)
    obtain ⟨⟨hbehind, hmark, hboundary⟩, hlower⟩ := hplace.least hnext
    refine ⟨⟨Nat.lt_of_succ_lt hbehind, hmark, hboundary⟩, ?_⟩
    rintro other ⟨hother, hle, hother_boundary⟩
    -- The next place is left out, so what is behind the position is behind that one.
    have hne : position + 1 ≠ other := fun heq => h (heq ▸ hother_boundary)
    exact hlower ⟨Nat.lt_of_le_of_ne hother hne, hle, hother_boundary⟩
  stays heq := absurd heq (Nat.ne_of_lt hlt)

/-- In front of an end mark reading stays. -/
theorem atMark : Resumption tokens mark mark mark :=
  ⟨Nat.le_refl _, fun hlt => absurd hlt (Nat.lt_irrefl _), fun _ => rfl⟩

end Resumption

/-! ## Skipping -/

variable {tokens : List Token} {position mark place : Nat}

/-- What one token in front of the mark does to skipping: it ends behind it, or goes on. -/
theorem NextMark.skipTokens_eq (h : NextMark tokens position mark) (hlt : position < mark) :
    Boundary tokens mark (position + 1) ∧
        Parse.skipTokens (tokens.drop position) = tokens.drop (position + 1) ∨
      ¬ Boundary tokens mark (position + 1) ∧
        Parse.skipTokens (tokens.drop position) = Parse.skipTokens (tokens.drop (position + 1)) := by
  obtain ⟨token, htoken, hdrop, hend⟩ := h.exists_token
  obtain ⟨next, hnext, hrest, hlast⟩ := (h.of_le (Nat.le_succ _) hlt).exists_token
  have hkind : token.kind ≠ .endOfInput := fun heq => absurd (hend.mp heq) (Nat.ne_of_lt hlt)
  rw [hdrop, hrest, Parse.skipTokens_cons_cons hkind]
  by_cases hsemicolon : token.kind = .semicolon
  · exact .inl ⟨.inr (.inl ⟨token, htoken, hsemicolon⟩), if_pos hsemicolon⟩
  rw [if_neg hsemicolon]
  by_cases hstarts : next.kind.startsStatement = true
  · exact .inl ⟨.inr (.inr ⟨next, hnext, (startsStatement_iff _).mp hstarts⟩), if_pos hstarts⟩
  rw [if_neg hstarts]
  by_cases hmark : position + 1 = mark
  · refine .inl ⟨.inl hmark, ?_⟩
    rw [Parse.skipTokens.eq_def]
    exact if_pos (hlast.mpr hmark)
  · refine .inr ⟨?_, rfl⟩
    rintro (heq | ⟨other, hother, hother_kind⟩ | ⟨other, hother, hother_kind⟩)
    · exact hmark heq
    · rw [Nat.add_sub_cancel, htoken] at hother
      exact hsemicolon (Option.some.inj hother ▸ hother_kind)
    · rw [hnext] at hother
      exact hstarts ((startsStatement_iff _).mpr (Option.some.inj hother ▸ hother_kind))

/-- Skipping from a position ends at the place where reading is to go on. -/
theorem NextMark.exists_resumption (h : NextMark tokens position mark) :
    ∃ place, Resumption tokens position mark place ∧
      Parse.skipTokens (tokens.drop position) = tokens.drop place := by
  obtain ⟨count, hcount⟩ := Nat.exists_eq_add_of_le h.le
  induction count generalizing position with
  | zero =>
    obtain ⟨token, _, hdrop, hend⟩ := h.exists_token
    refine ⟨position, hcount ▸ .atMark, ?_⟩
    rw [hdrop, Parse.skipTokens.eq_def]
    exact if_pos (hend.mpr hcount.symm)
  | succ count ih =>
    have hlt : position < mark := by omega
    rcases h.skipTokens_eq hlt with ⟨hboundary, hskip⟩ | ⟨hinside, hskip⟩
    · exact ⟨position + 1, .next hlt hboundary, hskip⟩
    · obtain ⟨place, hplace, hdrop⟩ := ih (h.of_le (Nat.le_succ _) hlt) (by omega)
      exact ⟨place, .skip hlt hinside hplace, hskip.trans hdrop⟩

theorem Resumption.skipTokens_eq (h : Resumption tokens position mark place)
    (hmark : NextMark tokens position mark) :
    Parse.skipTokens (tokens.drop position) = tokens.drop place := by
  obtain ⟨other, hother, hskip⟩ := hmark.exists_resumption
  rw [hskip, h.unique hother]

/-- **Skipping ends at the place where reading is to go on**, and changes nothing else. -/
theorem Parse.synchronize_eq (h : Resumption tokens position mark place)
    (hmark : NextMark tokens position mark) {parser : Parser}
    (hrest : parser.rest = tokens.drop position) :
    synchronize parser = .ok () (parser.facing (tokens.drop place)) := by
  rw [synchronize, hrest, h.skipTokens_eq hmark]
  rfl

/-! ## Skipping by position -/

/-- The tokens up to the mark and with it. -/
theorem NextMark.exists_portion (h : NextMark tokens position mark) :
    ∃ portion behind, Portion portion ∧ tokens.drop position = portion ++ behind ∧
      position + portion.length = mark + 1 := by
  obtain ⟨count, hcount⟩ := Nat.exists_eq_add_of_le h.le
  induction count generalizing position with
  | zero =>
    obtain ⟨token, _, hdrop, hend⟩ := h.exists_token
    exact ⟨[token], tokens.drop (position + 1), .mark (hend.mpr hcount.symm), hdrop,
      congrArg (· + 1) hcount.symm⟩
  | succ count ih =>
    have hlt : position < mark := by omega
    obtain ⟨token, _, hdrop, hend⟩ := h.exists_token
    obtain ⟨portion, behind, hportion, hrest, hlength⟩ := ih (h.of_le (Nat.le_succ _) hlt) (by omega)
    refine ⟨token :: portion, behind, .cons ?_ hportion, by rw [hdrop, hrest]; rfl, ?_⟩
    · exact fun heq => absurd (hend.mp heq) (Nat.ne_of_lt hlt)
    · rw [List.length_cons]
      omega

/-- How many tokens are in front of the mark. -/
theorem NextMark.length_beforeEnd (h : NextMark tokens position mark) :
    position + (beforeEnd (tokens.drop position)).length = mark := by
  obtain ⟨portion, behind, hportion, hdrop, hlength⟩ := h.exists_portion
  have hbefore := hportion.length_eq behind
  rw [← hdrop] at hbefore
  omega

/-- **Skipping by position ends at the same place.** All that changes apart from the position is the
record of what was looked up. -/
theorem Cursor.synchronize_eq {cursor : Cursor}
    (h : Resumption cursor.tokens.toList cursor.position mark place)
    (hmark : NextMark cursor.tokens.toList cursor.position mark) :
    ∃ log, synchronize cursor = .ok () { cursor with position := place, log } := by
  obtain ⟨portion, behind, hportion, hdrop, hlength⟩ := hmark.exists_portion
  have hstands : (simulation (cursor.setting portion #[])).At cursor.depth cursor.statementDepth
      cursor.parser cursor :=
    Upcoming.stands ⟨hportion, behind, hdrop⟩ hdrop Array.empty_append.symm rfl rfl
  obtain ⟨after, hskip, hafter⟩ := Stands.synchronize hstands.stands
  have hposition : after.position = place := by
    have hahead : after.position +
        (beforeEnd (Parse.skipTokens (cursor.tokens.toList.drop cursor.position))).length =
          cursor.position + portion.length - 1 := hafter.ahead_eq
    rw [h.skipTokens_eq hmark] at hahead
    have hplace := (hmark.of_le h.le_place h.place_le).length_beforeEnd
    omega
  refine ⟨after.log, hskip.trans ?_⟩
  obtain ⟨tokens, position, diagnostics, depth, statementDepth, log⟩ := after
  have htokens : tokens = cursor.tokens := hafter.tokens_eq
  have hdiagnostics : diagnostics = #[] ++ cursor.diagnostics := hafter.diagnostics_eq
  have hdepth : depth = cursor.depth := hafter.depth_eq
  have hstatements : statementDepth = cursor.statementDepth := hafter.statementDepth_eq
  rw [htokens, hdiagnostics, hdepth, hstatements, Array.empty_append]
  exact congrArg (fun place => EStateM.Result.ok () { cursor with position := place, log }) hposition

end Scriptlet
