import Scriptlet.Token.Lexer

/-!
# Gaps

Between two tokens may stand any number of blanks and comments. A comment ends with its line; only
at the end of a script may the line break be missing. So whether a text is a gap depends on what
stands behind it, but only for a gap whose last comment is left open.

Skipping a gap moves over all of it and not beyond, and every text starts with a gap, which may be
empty, behind which no further blank or comment stands.

## Main definitions

* `GapPiece`, `gapText` — a blank or a comment, and the text of several
* `Gap` — the text of a gap in front of another text
* `startsGap` — whether a text starts with a blank or a comment

## Main results

* `skipGap_append` — a gap is skipped as a whole
* `exists_gap` — every text starts with a gap
-/

namespace Scriptlet

/-- What a gap is made of. -/
inductive GapPiece where
  /-- A single character that separates tokens. -/
  | blank (c : Char) (blank : isBlank c = true)
  /-- Two slashes and the rest of their line, which ends with a line break. -/
  | comment (body : List Char) (line : '\n' ∉ body)

/-- How a piece of a gap is written. -/
def GapPiece.text : GapPiece → List Char
  | blank c _ => [c]
  | comment body _ => '/' :: '/' :: (body ++ ['\n'])

/-- How the pieces of a gap are written. -/
def gapText (pieces : List GapPiece) : List Char := pieces.flatMap GapPiece.text

@[simp] theorem gapText_nil : gapText [] = [] := rfl

@[simp] theorem gapText_cons (piece : GapPiece) (pieces : List GapPiece) :
    gapText (piece :: pieces) = piece.text ++ gapText pieces := List.flatMap_cons

@[simp] theorem gapText_append (pieces others : List GapPiece) :
    gapText (pieces ++ others) = gapText pieces ++ gapText others := List.flatMap_append

/-- The text of a gap, and the text that stands behind it. -/
inductive Gap : List Char → List Char → Prop
  /-- Blanks and comments. -/
  | closed (pieces : List GapPiece) (behind : List Char) : Gap (gapText pieces) behind
  /-- Blanks and comments, and a comment that runs to the end of the script. -/
  | unclosed (pieces : List GapPiece) {body : List Char} (line : '\n' ∉ body) :
      Gap (gapText pieces ++ '/' :: '/' :: body) []

namespace Gap

theorem empty (behind : List Char) : Gap [] behind := closed [] behind

theorem cons {gap behind : List Char} (piece : GapPiece) (h : Gap gap behind) :
    Gap (piece.text ++ gap) behind := by
  cases h with
  | closed pieces => exact gapText_cons piece pieces ▸ closed (piece :: pieces) behind
  | unclosed pieces line =>
    rw [← List.append_assoc, ← gapText_cons]
    exact unclosed (piece :: pieces) line

/-- A gap with something behind it is one in front of anything. -/
theorem of_ne_nil {gap behind : List Char} (h : Gap gap behind) (hne : behind ≠ [])
    (other : List Char) : Gap gap other := by
  cases h with
  | closed pieces => exact closed pieces other
  | unclosed => exact absurd rfl hne

/-- A line break closes a gap, whether its last comment was open or not. -/
theorem exists_newline {gap behind : List Char} (h : Gap gap behind) :
    ∃ pieces, gap ++ ['\n'] = gapText pieces := by
  cases h with
  | closed pieces =>
    refine ⟨pieces ++ [.blank '\n' rfl], ?_⟩
    rw [gapText_append]
    rfl
  | unclosed pieces line =>
    refine ⟨pieces ++ [.comment _ line], ?_⟩
    rw [gapText_append]
    simp [gapText, GapPiece.text]

end Gap

/-- Whether a text starts with a blank or a comment. -/
def startsGap : List Char → Bool
  | [] => false
  | c :: rest => isBlank c || (c == '/' && rest.head? == some '/')

theorem startsGap_cons_eq_false {c : Char} {rest : List Char} :
    startsGap (c :: rest) = false ↔ isBlank c = false ∧ ¬ (c = '/' ∧ rest.head? = some '/') := by
  simp [startsGap]

/-! ## Skipping -/

theorem skipGapFrom_comment_append {body : List Char} (line : '\n' ∉ body) (here : Location)
    (rest : List Char) : skipGapFrom true here (body ++ '\n' :: rest) =
      skipGapFrom false (here.after (body ++ ['\n'])) rest := by
  induction body generalizing here with
  | nil => rfl
  | cons c body ih =>
    obtain ⟨hc, hbody⟩ := List.ne_and_not_mem_of_not_mem_cons line
    rw [List.cons_append, skipGapFrom, decide_eq_true hc.symm, ih hbody]
    rfl

theorem skipGapFrom_comment {body : List Char} (line : '\n' ∉ body) (here : Location) :
    skipGapFrom true here body = (here.after body, []) := by
  induction body generalizing here with
  | nil => rfl
  | cons c body ih =>
    obtain ⟨hc, hbody⟩ := List.ne_and_not_mem_of_not_mem_cons line
    rw [skipGapFrom, decide_eq_true hc.symm, ih hbody]
    rfl

/-- Two slashes open a comment. -/
theorem skipGap_slashes (here : Location) (rest : List Char) :
    skipGap here ('/' :: '/' :: rest) = skipGapFrom true (here.after ['/', '/']) rest := rfl

theorem skipGap_piece (here : Location) (piece : GapPiece) (rest : List Char) :
    skipGap here (piece.text ++ rest) = skipGap (here.after piece.text) rest := by
  cases piece with
  | blank c blank =>
    show skipGapFrom false here (c :: rest) = _
    rw [skipGapFrom, if_pos blank]
    rfl
  | comment body line =>
    show skipGap here ('/' :: '/' :: ((body ++ ['\n']) ++ rest)) = _
    rw [skipGap_slashes, List.append_assoc, List.singleton_append,
      skipGapFrom_comment_append line]
    rfl

theorem skipGap_gapText (here : Location) (pieces : List GapPiece) (rest : List Char) :
    skipGap here (gapText pieces ++ rest) = skipGap (here.after (gapText pieces)) rest := by
  induction pieces generalizing here with
  | nil => rfl
  | cons piece pieces ih =>
    rw [gapText_cons, List.append_assoc, skipGap_piece, ih, Location.after_append]

theorem skipGap_of_not_startsGap {text : List Char} (h : startsGap text = false)
    (here : Location) : skipGap here text = (here, text) := by
  cases text with
  | nil => rfl
  | cons c rest =>
    obtain ⟨hblank, hslashes⟩ := startsGap_cons_eq_false.mp h
    rw [skipGap, skipGapFrom, if_neg (Bool.not_eq_true _ ▸ hblank), if_neg hslashes]

/-- **A gap is skipped as a whole**, and nothing behind it is. -/
theorem skipGap_append {gap rest : List Char} (h : Gap gap rest) (hrest : startsGap rest = false)
    (here : Location) : skipGap here (gap ++ rest) = (here.after gap, rest) := by
  cases h with
  | closed pieces => rw [skipGap_gapText, skipGap_of_not_startsGap hrest]
  | unclosed pieces line =>
    rw [List.append_nil, skipGap_gapText, skipGap_slashes, skipGapFrom_comment line,
      Location.after_append]
    rfl

/-- **Every text starts with a gap**, which may be empty. -/
theorem exists_gap (text : List Char) :
    ∃ gap rest, text = gap ++ rest ∧ Gap gap rest ∧ startsGap rest = false := by
  match text with
  | [] => exact ⟨[], [], rfl, .empty [], rfl⟩
  | c :: rest =>
    by_cases hblank : isBlank c = true
    · obtain ⟨gap, later, hrest, hgap, hlater⟩ := exists_gap rest
      exact ⟨c :: gap, later, congrArg (c :: ·) hrest, hgap.cons (.blank c hblank), hlater⟩
    by_cases hslashes : c = '/' ∧ rest.head? = some '/'
    · obtain ⟨rfl, hhead⟩ := hslashes
      obtain ⟨body, rfl⟩ := List.head?_eq_some_iff.mp hhead
      by_cases hline : '\n' ∈ body
      · -- the comment ends with the first line break, and the gap goes on behind it
        obtain ⟨comment, text, rfl, hfirst⟩ := List.eq_append_cons_of_mem hline
        obtain ⟨gap, later, hrest, hgap, hlater⟩ := exists_gap text
        refine ⟨_, later, ?_, hgap.cons (.comment comment hfirst), hlater⟩
        simp [GapPiece.text, hrest]
      · exact ⟨'/' :: '/' :: body, [], (List.append_nil _).symm, .unclosed [] hline, rfl⟩
    · exact ⟨[], c :: rest, rfl, .empty _,
        startsGap_cons_eq_false.mpr ⟨Bool.not_eq_true _ ▸ hblank, hslashes⟩⟩
  termination_by text.length

end Scriptlet
