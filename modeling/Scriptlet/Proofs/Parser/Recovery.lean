import Scriptlet.Proofs.Parser.Accounts
import Scriptlet.Proofs.Parser.Calls
import Scriptlet.Proofs.Parser.Observed
import Scriptlet.Proofs.Parser.Resumption

/-!
# Every error that is raised is recovered from at the right place

An error is raised deep inside the forms of a statement and caught by the declaration around them.
Nothing is consumed in between, so it is caught where it was raised, and reading goes on at the first
boundary behind that place. This is to hold of all errors of a script, those inside blocks and
function bodies included, and none of them can be seen from the outside once reading has gone on. So
a parser is observed while it reads: each error that is raised is written down, and each place at
which reading goes on. What is written down is orderly if every error but a fatal one is followed at
once by the place that belongs to it.

## Main definitions

* `Incident`, `Followed` — what is written down, and a parser with it
* `Followed.follower`, `Followed.machine` — who writes it down, and the moves on such a parser
* `Incident.Orderly` — what was written down of errors that reading went on after
* `Followed.Accounted` — a read of which all errors are accounted for

## Main results

* `Followed.follower_honours_contract` — what is written down is orderly
* `Followed.accounted_program` — all errors of a program are accounted for
* `resumption_exact` — where reading goes on after each error of a program
-/

namespace Scriptlet

/-- What is written down of the errors of a script. -/
inductive Incident where
  /-- An error is raised at a position. -/
  | raised (error : ParseError) (position : Nat)
  /-- Reading goes on at a position. -/
  | resumed (position : Nat)
deriving DecidableEq

/-- A parser, with what was written down while it read, the latest first. -/
abbrev Followed := Observed (List Incident)

/-- Where a parser is among all tokens. -/
def Parser.positionIn (tokens : List Token) (parser : Parser) : Nat :=
  tokens.length - parser.rest.length

namespace Followed

/-- Errors are written down with the position at which they are raised, and so is the position at
which reading goes on. -/
def follower (tokens : List Token) : Observer (List Incident) where
  saw _ incidents := incidents
  raised error parser incidents := .raised error (parser.positionIn tokens) :: incidents
  resumed parser incidents := .resumed (parser.positionIn tokens) :: incidents

/-- The moves on a parser that is followed. -/
def machine (tokens : List Token) : Machine Followed ParseError := (follower tokens).machine

end Followed

/-! ## What is written down -/

/-- What was written down before reading came to a position is orderly: there are only errors that
are not fatal, each at the token that it names, and each is followed by the place at which reading
is to go on. What is written down later is behind that place. -/
inductive Incident.Orderly (tokens : List Token) (mark : Nat) : List Incident → Nat → Prop
  | none {position : Nat} : Orderly tokens mark [] position
  | recovered {incidents : List Incident} {error : ParseError} {raised place position : Nat}
      (before : Orderly tokens mark incidents raised) (mild : error.isFatal = false)
      (site : tokens[raised]? = some error.token)
      (resumption : Resumption tokens raised mark place) (le : place ≤ position) :
      Orderly tokens mark (.resumed place :: .raised error raised :: incidents) position

theorem Incident.Orderly.mono {tokens : List Token} {mark position later : Nat}
    {incidents : List Incident} (h : Orderly tokens mark incidents position)
    (hle : position ≤ later) : Orderly tokens mark incidents later := by
  cases h with
  | none => exact .none
  | recovered before mild site resumption le =>
    exact .recovered before mild site resumption (Nat.le_trans le hle)

namespace Followed

variable {α : Type} {tokens : List Token} {mark : Nat}

/-- A parser at a position in front of the mark, with orderly incidents. -/
structure Stands (tokens : List Token) (mark : Nat) (parser : Parser) (incidents : List Incident)
    (position : Nat) : Prop where
  rest_eq : parser.rest = tokens.drop position
  next : NextMark tokens position mark
  orderly : Incident.Orderly tokens mark incidents position

/-- After a result what was written down is orderly. After a failure it ends with the error that was
raised, at the position of the parser. -/
def contract (tokens : List Token) (mark : Nat) : Contract Followed ParseError where
  Fine followed := ∃ position, Stands tokens mark followed.parser followed.record position
  Failed error followed := ∃ position incidents,
    followed.record = .raised error position :: incidents ∧
      tokens[position]? = some error.token ∧ Stands tokens mark followed.parser incidents position

namespace Stands

variable {parser stop : Parser} {incidents : List Incident} {position : Nat}

theorem position_eq (h : Stands tokens mark parser incidents position) :
    parser.positionIn tokens = position := by
  have hle : position ≤ tokens.length := Nat.le_of_lt (Nat.lt_of_le_of_lt h.next.le h.next.lt_length)
  rw [Parser.positionIn, h.rest_eq, List.length_drop]
  exact Nat.sub_sub_self hle

theorem current_eq (h : Stands tokens mark parser incidents position) :
    tokens[position]? = some parser.current := by
  obtain ⟨token, htoken, hdrop, _⟩ := h.next.exists_token
  rw [htoken, Parser.current, h.rest_eq, hdrop]

/-- Going forward leads to a later position, which is not behind the mark. -/
theorem of_reaches (h : Stands tokens mark parser incidents position)
    (hreaches : parser.Reaches stop) : ∃ later, Stands tokens mark stop incidents later := by
  obtain ⟨consumed, hconsumed, hkinds⟩ := hreaches.consumed
  rw [h.rest_eq] at hconsumed
  have hle : position + consumed.length ≤ mark := by
    by_contra hlt
    obtain ⟨token, htoken, hend⟩ := h.next.isEnd
    -- Otherwise the end mark would be among the tokens that were consumed.
    have hindex : mark - position < consumed.length := by have := h.next.le; omega
    have hmark : (consumed ++ stop.rest)[mark - position]? = some token := by
      rw [← hconsumed, List.getElem?_drop, Nat.add_sub_cancel' h.next.le, htoken]
    rw [List.getElem?_append_left hindex] at hmark
    exact hkinds token (List.mem_of_getElem? hmark) hend
  refine ⟨position + consumed.length, ?_, h.next.of_le (Nat.le_add_right _ _) hle,
    h.orderly.mono (Nat.le_add_right _ _)⟩
  rw [← List.drop_drop, hconsumed, List.drop_left]

end Stands

/-- An error is caught where it was raised, so reading goes on at the place that belongs to it. -/
theorem fine_past {error : ParseError} {followed : Followed}
    (h : (contract tokens mark).Failed error followed) (hmild : error.isFatal = false) :
    (contract tokens mark).Fine ((follower tokens).past error followed) := by
  obtain ⟨position, incidents, hraised, hsite, hstands⟩ := h
  obtain ⟨place, hplace, hskip⟩ := hstands.next.exists_resumption
  have hafter : Stands tokens mark
      ((followed.parser.report error).facing (Parse.skipTokens followed.parser.rest))
      (.resumed place :: .raised error position :: incidents) place :=
    ⟨by rw [Parser.facing_rest, hstands.rest_eq, hskip],
      hstands.next.of_le hplace.le_place hplace.place_le,
      .recovered hstands.orderly hmild hsite hplace (Nat.le_refl _)⟩
  have hrecord : ((follower tokens).past error followed).record =
      .resumed place :: .raised error position :: incidents := by
    rw [← hraised, ← hafter.position_eq]
    rfl
  exact ⟨place, hafter.rest_eq, hafter.next, hrecord ▸ hafter.orderly⟩

/-- **What is written down is orderly.** Levels have nothing to do with positions. -/
theorem follower_honours_contract (tokens : List Token) (mark : Nat) :
    (follower tokens).Honours (contract tokens mark) where
  come := by
    rintro followed parser ⟨position, hstands⟩ hreaches
    exact hstands.of_reaches hreaches
  level := by
    rintro followed depth statements ⟨position, hstands⟩ _ _
    exact ⟨position, hstands.rest_eq, hstands.next, hstands.orderly⟩
  level_failed := by
    rintro error followed depth statements ⟨position, incidents, hraised, hsite, hstands⟩ _ _
    exact ⟨position, incidents, hraised, hsite, hstands.rest_eq, hstands.next, hstands.orderly⟩
  raised := by
    rintro followed cause ⟨position, hstands⟩
    refine ⟨position, followed.record, ?_, hstands.current_eq, hstands⟩
    simp only [follower, hstands.position_eq]
  past := fine_past

/-- What a read comes to, and what it comes to on a parser that is followed. If it gives a result
then all errors that were raised on the way are errors that reading went on after, at the place that
belongs to each. If it fails then so are all but the last, which is the fatal one. -/
inductive Accounted (tokens : List Token) (mark : Nat) :
    EStateM.Result ParseError Parser α → EStateM.Result ParseError Followed α → Prop
  | ok {result : α} {stop : Parser} {incidents : List Incident} {position : Nat}
      (h : Stands tokens mark stop incidents position) :
      Accounted tokens mark (.ok result stop) (.ok result ⟨stop, incidents⟩)
  | error {error : ParseError} {stop : Parser} {incidents : List Incident} {position : Nat}
      (fatal : error.isFatal = true) (site : tokens[position]? = some error.token)
      (h : Stands tokens mark stop incidents position) :
      Accounted tokens mark (.error error stop)
        (.error error ⟨stop, .raised error position :: incidents⟩)

/-- **All errors of a program are accounted for.** -/
theorem accounted_program {position : Nat} {parser : Parser}
    (hmark : NextMark tokens position mark) (hrest : parser.rest = tokens.drop position) :
    Accounted tokens mark (Parse.program parser) ((machine tokens).program ⟨parser, []⟩) := by
  have hsame : (Observer.simulation _).SimulatesAt _ _ parser ⟨parser, []⟩ _ Parse.program
      (machine tokens).program := (follower tokens).simulates_program parser []
  have hkept : (contract tokens mark).Kept ((machine tokens).program ⟨parser, []⟩) :=
    (follower_honours_contract tokens mark).lawful.program ⟨position, hrest, hmark, .none⟩
  unfold Simulation.SimulatesAt at hsame
  generalize hread : Parse.program parser = outcome,
    (machine tokens).program ⟨parser, []⟩ = answer at hsame hkept
  cases hsame with
  | @ok result stop followed hafter =>
    obtain ⟨rfl, _, _⟩ := hafter
    cases hkept with
    | ok hfine =>
      obtain ⟨later, hstands⟩ := hfine
      exact .ok hstands
  | @error error stop followed hafter =>
    obtain ⟨rfl, _, _⟩ := hafter
    cases hkept with
    | error hfailed =>
      obtain ⟨later, incidents, hraised, hsite, hstands⟩ := hfailed
      obtain ⟨stop, _⟩ := followed
      cases hraised
      exact .error (Parse.isFatal_of_program hread) hsite hstands

end Followed

/-! ## Going on after errors -/

/-- **Reading goes on at the first boundary behind an error.** Seen from any position in front of an
end mark there is one place that follows a semicolon, is in front of `function`, `if`, `while` or
`print`, or is the next end mark, and no such place is passed on the way to it. Skipping ends there,
on a parser and by position, and in front of the end mark it changes nothing. A read that fails there
with an error that is not fatal is replaced by its substitute, and reading goes on at that place. So
it is with all errors that are raised while a program is read from there, however deep: each is
raised at the token that it names, and unless it is fatal the next thing that happens is that
reading goes on at the place that belongs to it. -/
theorem resumption_exact {tokens : List Token} {position mark : Nat}
    (hmark : NextMark tokens position mark) :
    ∃ place, Resumption tokens position mark place ∧
      (∀ between, position < between → between < place →
        (∀ token, tokens[between - 1]? = some token → token.kind ≠ .semicolon) ∧
        ∀ token, tokens[between]? = some token →
          token.kind ∉ [TokenKind.kwFunction, .kwIf, .kwWhile, .kwPrint]) ∧
      (∀ parser : Parser, parser.rest = tokens.drop position →
        Parse.synchronize parser = .ok () { parser with rest := tokens.drop place } ∧
        (position = mark → Parse.synchronize parser = .ok () parser)) ∧
      (∀ cursor : Cursor, cursor.tokens.toList = tokens → cursor.position = position →
        ∃ log, Cursor.synchronize cursor = .ok () { cursor with position := place, log }) ∧
      (∀ {α : Type} (substitute : α) (read : Parse α) (start failed : Parser) (error : ParseError),
        read start = .error error failed → error.isFatal = false →
        failed.rest = tokens.drop position →
        Parse.recovering substitute read start =
          .ok substitute { failed.report error with rest := tokens.drop place }) ∧
      ∀ parser : Parser, parser.rest = tokens.drop position →
        Followed.Accounted tokens mark (Parse.program parser)
          ((Followed.machine tokens).program ⟨parser, []⟩) := by
  obtain ⟨place, hplace, hskip⟩ := hmark.exists_resumption
  refine ⟨place, hplace, fun between hbehind hbefore => ?_, fun parser hrest => ?_, ?_, ?_,
    fun parser hrest => Followed.accounted_program hmark hrest⟩
  · have hinside := hplace.not_boundary hbehind hbefore
    exact ⟨fun token htoken hkind => hinside (.inr (.inl ⟨token, htoken, hkind⟩)),
      fun token htoken hkind => hinside (.inr (.inr ⟨token, htoken, hkind⟩))⟩
  · have hsynchronize := Parse.synchronize_eq hplace hmark hrest
    refine ⟨hsynchronize, fun hend => ?_⟩
    rw [hsynchronize, hplace.stays hend, ← hrest]
    rfl
  · rintro cursor rfl rfl
    exact Cursor.synchronize_eq hplace hmark
  · intro α substitute read start failed error hread hmild hrest
    rw [Parse.recovering_of_mild hread hmild, hrest, hplace.skipTokens_eq hmark]

namespace Sample

/-- A block with a mistake, from which reading goes on inside the block, and a mistake behind it. -/
def mistaken : List Token :=
  [⟨.leftBrace, "\x7b", ⟨1, 1⟩⟩, ⟨.rightParen, ")", ⟨1, 3⟩⟩, ⟨.identifier, "x", ⟨1, 5⟩⟩,
    ⟨.kwPrint, "print", ⟨1, 7⟩⟩, ⟨.number, "1", ⟨1, 13⟩⟩, ⟨.rightBrace, "\x7d", ⟨1, 15⟩⟩,
    ⟨.semicolon, ";", ⟨1, 17⟩⟩, .endMark ⟨1, 18⟩]

theorem nextMark_mistaken : NextMark mistaken 0 7 where
  le := by decide
  isEnd := ⟨_, rfl, rfl⟩
  before index _ hlt token htoken := by
    have hkinds : ∀ index < 7, ∀ token ∈ mistaken[index]?, token.kind ≠ .endOfInput := by decide
    exact hkinds index hlt token htoken

/-- The name is skipped and the keyword is not, and behind the semicolon there is only the end. -/
theorem mistaken_resumed :
    NextMark mistaken 0 7 ∧
      (stateAfter (Followed.machine mistaken).program ⟨.ofTokens mistaken, []⟩).record =
        [.resumed 7, .raised ⟨.noExpression, ⟨.semicolon, ";", ⟨1, 17⟩⟩⟩ 6,
          .resumed 3, .raised ⟨.noExpression, ⟨.rightParen, ")", ⟨1, 3⟩⟩⟩ 1] ∧
      Followed.Accounted mistaken 7 (Parse.program (.ofTokens mistaken))
        ((Followed.machine mistaken).program ⟨.ofTokens mistaken, []⟩) := by
  obtain ⟨place, _, _, _, _, _, haccounted⟩ := resumption_exact nextMark_mistaken
  exact ⟨nextMark_mistaken, by decide +kernel, haccounted (.ofTokens mistaken) rfl⟩

end Sample

end Scriptlet
