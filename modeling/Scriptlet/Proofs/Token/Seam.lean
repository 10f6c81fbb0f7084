import Scriptlet.Proofs.Token.Lossless

/-!
# Reading across a line break

A line break ends every token but a string, and every comment. So a script that is read without an
error can be put in front of another one, with a line break between them, and both are read as they
are alone; only the lines of the second are counted on from those of the first.

## Main definitions

* `Location.down`, `Token.down`, `Lexed.down` — moved down by a number of lines
* `Lexed.prepend` — with other tokens in front

## Main results

* `lexChars_down` — text is read alike wherever it stands in its column
* `lexChars_newline` — a text with a line break and another text behind it
* `exists_lex_newline` — the same for scripts
* `lex_across_newline` — the tokens and the error of two scripts with a line break between them
-/

namespace Scriptlet

/-! ## Further down -/

/-- The same column, a number of lines further down. -/
def Location.down (lines : Nat) (here : Location) : Location := ⟨here.line + lines, here.column⟩

/-- The same token, a number of lines further down. -/
def Token.down (lines : Nat) (token : Token) : Token :=
  { token with location := token.location.down lines }

/-- The same error, a number of lines further down. -/
def LexError.down (lines : Nat) (error : LexError) : LexError :=
  ⟨error.cause, error.location.down lines⟩

/-- The same tokens and the same error, a number of lines further down. -/
def Lexed.down (lines : Nat) (lexed : Lexed) : Lexed :=
  ⟨lexed.tokens.map (Token.down lines), lexed.error?.map (LexError.down lines)⟩

/-- The same tokens and the same error, with other tokens in front of them. -/
def Lexed.prepend (tokens : List Token) (lexed : Lexed) : Lexed :=
  ⟨tokens ++ lexed.tokens, lexed.error?⟩

/-- The same item, a number of lines further down. -/
def Item.down (lines : Nat) (item : Item) : Item := ⟨item.gap, item.token.down lines⟩

theorem Location.down_next (lines : Nat) (here : Location) (c : Char) :
    (here.down lines).next c = (here.next c).down lines := by
  unfold Location.next
  split
  · rw [Location.down, Location.down, Nat.add_right_comm]
  · rfl

theorem Location.down_after (lines : Nat) (here : Location) (text : List Char) :
    (here.down lines).after text = (here.after text).down lines := by
  induction text generalizing here with
  | nil => rfl
  | cons c text ih => rw [after_cons, after_cons, down_next, ih]

theorem itemsText_map_down (lines : Nat) (items : List Item) :
    itemsText (items.map (Item.down lines)) = itemsText items := by
  rw [itemsText, List.flatMap_map]
  rfl

theorem map_token_down (lines : Nat) (items : List Item) :
    (items.map (Item.down lines)).map Item.token =
      (items.map Item.token).map (Token.down lines) := by
  rw [List.map_map, List.map_map]
  rfl

theorem Laid.down {here : Location} {items : List Item} {behind : List Char}
    (h : Laid here items behind) (lines : Nat) :
    Laid (here.down lines) (items.map (Item.down lines)) behind := by
  induction h with
  | nil => exact .nil
  | @cons here item items behind first place others ih =>
    refine .cons ?_ ?_ ?_
    · rw [itemsText_map_down]
      exact ⟨first.gap, first.spelled, first.apart⟩
    · show item.token.location.down lines = (here.down lines).after item.gap
      rw [place, Location.down_after]
    · show Laid ((here.down lines).after item.text) _ _
      rwa [Location.down_after]

/-- **Text is read alike on any line.** -/
theorem lexChars_down (lines : Nat) (here : Location) (text : List Char) :
    lexChars (here.down lines) text = (lexChars here text).down lines := by
  obtain ⟨items, gap, rest, rfl, hlaid, hgap, hend⟩ := exists_laid here text
  have hdown := hlaid.down lines
  have htext := itemsText_map_down lines items
  rcases hend with rfl | ⟨cause, hbad⟩
  · rw [List.append_nil] at hlaid hdown ⊢
    have hread := lexChars_end hdown hgap
    rw [htext] at hread
    rw [hread, lexChars_end hlaid hgap, map_token_down, Location.down_after]
    simp [Lexed.down, Token.down, Token.endMark]
  · have hread := lexChars_unreadable hdown hgap hbad
    rw [htext] at hread
    rw [hread, lexChars_unreadable hlaid hgap hbad, map_token_down, Location.down_after]
    rfl

/-! ## Behind other tokens -/

/-- The tokens of a text are added to those read before it, however many rounds there are. -/
theorem lexFrom_eq {text : List Char} {rounds : Nat} (h : text.length < rounds) (here : Location)
    (done : Array Token) :
    lexFrom rounds here text done = (lexChars here text).prepend done.toList := by
  obtain ⟨items, gap, rest, rfl, hlaid, hgap, hend⟩ := exists_laid here text
  obtain ⟨more, rfl⟩ : ∃ more, rounds = items.length + (more + 1) := by
    have hle := hlaid.length_le
    rw [List.length_append] at h
    exact ⟨rounds - items.length - 1, by omega⟩
  rw [lexFrom_items hlaid]
  rcases hend with rfl | ⟨cause, hbad⟩
  · rw [List.append_nil] at hlaid ⊢
    rw [lexFrom_gap hgap, lexChars_end hlaid hgap, Location.after_append]
    simp [Lexed.prepend]
  · rw [lexFrom_unreadable hgap hbad, lexChars_unreadable hlaid hgap hbad,
      Location.after_append]
    simp [Lexed.prepend]

/-- **A line break keeps what is in front of it apart from what is behind it.** -/
theorem lexChars_newline {here there : Location} {items : List Item} {gap : List Char}
    (h : Laid here items gap) (hgap : Gap gap [])
    (hthere : here.after (itemsText items ++ gap ++ ['\n']) = there) (second : List Char) :
    lexChars here (itemsText items ++ gap ++ '\n' :: second) =
      (lexChars there second).prepend (items.map Item.token) := by
  have hlaid : Laid here items (gap ++ '\n' :: second) := by
    refine h.imp fun kind hapart => ?_
    cases gap with
    | nil => exact TokenKind.apart_cons.mpr (kind.runsOn_blank rfl)
    | cons c gap => exact TokenKind.apart_cons.mpr (TokenKind.apart_cons.mp hapart)
  obtain ⟨rounds, hrounds, hread⟩ := lexChars_items hlaid
  have hskip : skipGap (here.after (itemsText items)) (gap ++ '\n' :: second) =
      skipGap there second := by
    obtain ⟨pieces, hpieces⟩ := hgap.exists_newline
    have hafter : there = (here.after (itemsText items)).after (gapText pieces) := by
      rw [← hthere, ← hpieces, ← Location.after_append, ← List.append_assoc]
    rw [List.append_cons, hpieces, skipGap_gapText, hafter]
  have hless : second.length < rounds + 1 := by
    rw [List.length_append, List.length_cons] at hrounds
    omega
  have hsame : lexFrom (rounds + 1) (here.after (itemsText items)) (gap ++ '\n' :: second)
      (items.map Item.token).toArray =
        lexFrom (rounds + 1) there second (items.map Item.token).toArray := by
    rw [lexFrom, lexFrom, hskip]
  rw [List.append_assoc, hread, hsame, lexFrom_eq hless]

/-- A script that is read without an error, and what is read if another stands behind it. -/
theorem exists_lex_newline {first : String} (h : (lex first).error? = none) :
    ∃ tokens : List Token, (∀ token ∈ tokens, token.kind ≠ .endOfInput) ∧
      lex first = ⟨tokens ++ [.endMark (.behind first.toList)], none⟩ ∧
      ∀ second : String, lex (first ++ "\n" ++ second) =
        ((lex second).down (1 + first.toList.count '\n')).prepend tokens := by
  obtain ⟨items, gap, rest, htext, hlaid, hgap, hend⟩ := exists_laid .start first.toList
  have hrest : rest = [] := by
    rcases hend with hrest | ⟨cause, hbad⟩
    · exact hrest
    · rw [lex, htext, lexChars_unreadable hlaid hgap hbad] at h
      cases h
  subst hrest
  rw [List.append_nil] at htext hlaid
  refine ⟨items.map Item.token, ?_, ?_, fun second => ?_⟩
  · intro token hmem
    obtain ⟨item, hitem, rfl⟩ := List.mem_map.mp hmem
    obtain ⟨front, back, rfl⟩ := List.append_of_mem hitem
    exact hlaid.stands.1.spelled.ne_endOfInput
  · rw [lex, htext, lexChars_end hlaid hgap, Location.start_after]
  · have hplace : Location.start.after (first.toList ++ ['\n']) =
        Location.start.down (1 + first.toList.count '\n') := by
      rw [Location.start_after]
      simp [Location.behind, Location.down, Location.start]
      omega
    have hsource : (first ++ "\n" ++ second).toList =
        itemsText items ++ gap ++ '\n' :: second.toList := by
      simp [← htext]
    rw [htext] at hplace
    rw [lex, hsource, lexChars_newline hlaid hgap hplace, lexChars_down, htext]
    rfl

/-- **Two scripts with a line break between them are read one after the other.** If the first is
read without an error, its last token is an end mark and no other is. In front of a line break and a
second script it is read as the same tokens without that mark, whatever it ends in. Behind them
come the tokens of the second script, and its error if it has one, in the same columns and further
down by the lines of the first. -/
theorem lex_across_newline (first second : String) (h : (lex first).error? = none) :
    let tokens := (lex first).tokens.dropLast
    let lines := 1 + first.toList.count '\n'
    (lex first).tokens = tokens ++ [.endMark (.behind first.toList)] ∧
      (∀ token ∈ tokens, token.kind ≠ .endOfInput) ∧
      (lex (first ++ "\n" ++ second)).tokens =
        tokens ++ (lex second).tokens.map (Token.down lines) ∧
      (lex (first ++ "\n" ++ second)).error? =
        (lex second).error?.map (LexError.down lines) := by
  obtain ⟨tokens, hkinds, hfirst, hjoined⟩ := exists_lex_newline h
  have hfront : (lex first).tokens.dropLast = tokens := by
    rw [hfirst, List.dropLast_concat]
  rw [hfront, hjoined second]
  exact ⟨by rw [hfirst], hkinds, rfl, rfl⟩

namespace Sample

/-- Ends in a string over two lines, a slash and a comment that is not closed. -/
def unclosed : String := "a = \"x\n//\" / // b"

/-- The comment ends with its line, and the error of the second script is found on the third. -/
theorem lex_unclosed : (lex unclosed).error? = none ∧
    (lex (unclosed ++ "\n" ++ "/ c !")).tokens =
      [⟨.identifier, "a", ⟨1, 1⟩⟩, ⟨.assign, "=", ⟨1, 3⟩⟩, ⟨.string, "x\n//", ⟨1, 5⟩⟩,
        ⟨.slash, "/", ⟨2, 5⟩⟩, ⟨.slash, "/", ⟨3, 1⟩⟩, ⟨.identifier, "c", ⟨3, 3⟩⟩] ∧
    (lex (unclosed ++ "\n" ++ "/ c !")).error? = some ⟨.loneBang, ⟨3, 5⟩⟩ := by
  have hunclosed : (lex unclosed).error? = none := by decide +kernel
  obtain ⟨-, -, htokens, herror⟩ := lex_across_newline unclosed "/ c !" hunclosed
  rw [htokens, herror]
  exact ⟨hunclosed, by decide +kernel, by decide +kernel⟩

end Sample

end Scriptlet
