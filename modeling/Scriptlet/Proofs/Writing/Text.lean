import Scriptlet.Proofs.Token.Lossless

/-!
# Tokens are written and read back

Tokens are written one behind the other, with a gap between any two. A gap that starts with a blank
keeps what it separates apart, whatever the tokens and whatever else stands in the gap: text that
looks like a token in a comment, or like a comment in a string, is not read as one. So the tokens
are read back as they were, at whatever places the gaps put them.

## Main definitions

* `Word` — a kind with a lexeme of that kind
* `Separator` — a gap that starts with a blank
* `wordsText`, `scriptText` — words with gaps between them, and with gaps around them

## Main results

* `exists_laid_words` — words with gaps between them are items that stand one behind the other
* `tokenize_scriptText` — what was written is read back
-/

namespace Scriptlet

/-- What is written for a token: its kind, and a lexeme of that kind. -/
structure Word where
  /-- The kind of the token. -/
  kind : TokenKind
  /-- The lexeme of the token. -/
  lexeme : String
  /-- The lexeme is one of the kind. -/
  spelled : Spelled kind lexeme.toList

/-- How a word is written. -/
def Word.text (word : Word) : List Char := writing word.kind word.lexeme.toList

/-- A gap that starts with a blank. -/
structure Separator where
  /-- The first character. -/
  first : Char
  /-- It is a blank. -/
  blank : isBlank first = true
  /-- Blanks and comments behind it. -/
  others : List GapPiece

namespace Separator

/-- The blanks and comments of a separator. -/
def pieces (separator : Separator) : List GapPiece :=
  .blank separator.first separator.blank :: separator.others

/-- How a separator is written. -/
def text (separator : Separator) : List Char := gapText separator.pieces

/-- A separator may stand behind any token. -/
theorem apart (separator : Separator) (kind : TokenKind) (behind : List Char) :
    kind.Apart (separator.text ++ behind) :=
  TokenKind.apart_cons.mpr (kind.runsOn_blank separator.blank)

end Separator

/-- The gap at the end of a script, if there is one. -/
def trailingText (trailing : Option Separator) : List Char :=
  gapText ((trailing.map Separator.pieces).getD [])

theorem apart_trailingText (kind : TokenKind) (trailing : Option Separator) :
    kind.Apart (trailingText trailing) := by
  cases trailing with
  | none => exact kind.apart_nil
  | some separator =>
    have hapart := separator.apart kind []
    rwa [List.append_nil] at hapart

/-- Words one behind the other, each but the last with a gap behind it. The gaps are numbered. -/
def wordsText (between : Nat → Separator) : List Word → List Char
  | [] => []
  | [word] => word.text
  | word :: next :: words =>
    word.text ++ ((between 0).text ++ wordsText (fun n => between (n + 1)) (next :: words))

/-- Words with gaps between them, behind a gap and in front of another. -/
def scriptText (leading : List GapPiece) (between : Nat → Separator) (words : List Word)
    (trailing : Option Separator) : List Char :=
  gapText leading ++ (wordsText between words ++ trailingText trailing)

/-- The item of a word behind a gap. -/
def Word.item (word : Word) (here : Location) (leading : List GapPiece) : Item :=
  ⟨gapText leading, ⟨word.kind, word.lexeme, here.after (gapText leading)⟩⟩

theorem Word.stands (word : Word) (here : Location) (leading : List GapPiece) {behind : List Char}
    (h : word.kind.Apart behind) : (word.item here leading).Stands behind :=
  ⟨.closed leading _, word.spelled, h⟩

/-- Words with gaps between them are items that stand one behind the other. -/
theorem exists_laid_words (here : Location) (leading : List GapPiece) (between : Nat → Separator)
    (words : List Word) (trailing : Option Separator) :
    ∃ items gap, scriptText leading between words trailing = itemsText items ++ gap ∧
      Laid here items gap ∧ Gap gap [] ∧
      (items.map fun item => (item.token.kind, item.token.lexeme)) =
        words.map fun word => (word.kind, word.lexeme) := by
  unfold scriptText
  fun_induction wordsText between words generalizing here leading with
  | case1 between =>
    refine ⟨[], gapText leading ++ trailingText trailing, rfl, .nil, ?_, rfl⟩
    rw [trailingText, ← gapText_append]
    exact .closed _ []
  | case2 between word =>
    refine ⟨[word.item here leading], trailingText trailing, ?_,
      .cons (word.stands here leading (apart_trailingText _ _)) rfl .nil,
      .closed _ [], rfl⟩
    simp [Item.text, Word.item, Token.written, Word.text]
  | case3 between word next words ih =>
    obtain ⟨items, gap, htext, hlaid, hgap, hspelling⟩ :=
      ih (here.after (word.item here leading).text) (between 0).pieces
    have hbehind : itemsText items ++ gap = (between 0).text ++
        (wordsText (fun n => between (n + 1)) (next :: words) ++ trailingText trailing) :=
      htext.symm
    refine ⟨word.item here leading :: items, gap, ?_, .cons ?_ rfl hlaid, hgap, ?_⟩
    · rw [itemsText_cons, List.append_assoc (word.item here leading).text, hbehind]
      simp [Item.text, Word.item, Token.written, Word.text]
    · rw [hbehind]
      exact word.stands here leading ((between 0).apart _ _)
    · rw [List.map_cons, hspelling]
      rfl

/-- **What was written is read back.** Whatever the tokens, and whatever gaps that start with a
blank stand between them: the text is read as these kinds and lexemes, and nothing else but its
end. -/
theorem tokenize_scriptText (leading : List GapPiece) (between : Nat → Separator)
    (words : List Word) (trailing : Option Separator) :
    ∃ tokens, tokenize (String.ofList (scriptText leading between words trailing)) =
        .ok (tokens ++ [.endMark (.behind (scriptText leading between words trailing))]) ∧
      (tokens.map fun token => (token.kind, token.lexeme)) =
        words.map fun word => (word.kind, word.lexeme) := by
  obtain ⟨items, gap, htext, hlaid, hgap, hspelling⟩ :=
    exists_laid_words .start leading between words trailing
  refine ⟨items.map Item.token, ?_, by rwa [List.map_map]⟩
  rw [tokenize, lex, String.toList_ofList, htext, lexChars_end hlaid hgap, Location.start_after]

end Scriptlet
