import Mathlib.Data.List.Induction
import Scriptlet.Proofs.Token.Spelling

/-!
# Reading tokens loses nothing

A script is put together from gaps and tokens in turn, up to its end or to the place where reading
stops with an error. Every token is as long as it can be, and the place of a token, of the end and
of an error is counted out from the text in front of it.

The text of a script is taken apart into items, a token with the gap in front of it each. Reading
moves over items that stand one behind the other, and whatever the text, it can be taken apart so
far that behind the items only a gap is left, with nothing behind it or something unreadable.

## Main definitions

* `Location.behind` — the place behind a text, counted out
* `Item`, `itemsText` — a token with the gap in front of it, and the text of several
* `Laid` — items that stand one behind the other, from a place on and up to a text

## Main results

* `lexChars_end`, `lexChars_unreadable` — what is read from items in front of an end or an error
* `exists_laid` — every text is taken apart into items
* `lex_lossless` — reading tokens loses nothing
-/

namespace Scriptlet

/-! ## Places -/

/-- The place directly behind a text that starts a script: one line for each line break, and one
column for each character behind the last of them. -/
def Location.behind (text : List Char) : Location :=
  ⟨1 + text.count '\n', 1 + (text.reverse.takeWhile (· ≠ '\n')).length⟩

theorem Location.behind_concat (text : List Char) (c : Char) :
    Location.behind (text ++ [c]) = (Location.behind text).next c := by
  by_cases hc : c = '\n'
  · simp [Location.behind, Location.next, hc, Nat.add_assoc]
  · simp [Location.behind, Location.next, hc, Nat.add_comm]

/-- A place that is moved over a text is the one counted out from the text. -/
theorem Location.start_after (text : List Char) : Location.start.after text = .behind text := by
  induction text using List.reverseRecOn with
  | nil => rfl
  | append_singleton text c ih =>
    rw [Location.after_append, ih, Location.behind_concat]
    rfl

/-! ## Items -/

/-- How a token is written. -/
def Token.written (token : Token) : List Char := writing token.kind token.lexeme.toList

/-- A token with the gap in front of it. -/
structure Item where
  /-- The text in front of the token. -/
  gap : List Char
  /-- The token. -/
  token : Token

namespace Item

/-- How a gap and its token are written. -/
def text (item : Item) : List Char := item.gap ++ item.token.written

/-- An item stands where it can be read, in front of a text. -/
structure Stands (item : Item) (behind : List Char) : Prop where
  /-- In front of the token is a gap. -/
  gap : Gap item.gap (item.token.written ++ behind)
  /-- The lexeme is one of its kind. -/
  spelled : Spelled item.token.kind item.token.lexeme.toList
  /-- The token ends where it has to. -/
  apart : item.token.kind.Apart behind

end Item

/-- How items are written. -/
def itemsText (items : List Item) : List Char := items.flatMap Item.text

@[simp] theorem itemsText_nil : itemsText [] = [] := rfl

@[simp] theorem itemsText_cons (item : Item) (items : List Item) :
    itemsText (item :: items) = item.text ++ itemsText items := List.flatMap_cons

/-- Items one behind the other, from a place on and in front of a text. -/
inductive Laid : Location → List Item → List Char → Prop
  | nil {here : Location} {behind : List Char} : Laid here [] behind
  | cons {here : Location} {item : Item} {items : List Item} {behind : List Char}
      (first : item.Stands (itemsText items ++ behind))
      (place : item.token.location = here.after item.gap)
      (others : Laid (here.after item.text) items behind) : Laid here (item :: items) behind

namespace Laid

/-- Each of the items stands in front of those behind it, and its place is counted from the text of
those in front of it. -/
theorem stands {here : Location} {front back : List Item} {item : Item} {behind : List Char}
    (h : Laid here (front ++ item :: back) behind) :
    item.Stands (itemsText back ++ behind) ∧
      item.token.location = here.after (itemsText front ++ item.gap) := by
  induction front generalizing here with
  | nil =>
    cases h with
    | cons first place others => exact ⟨first, place⟩
  | cons other front ih =>
    cases h with
    | cons first place others =>
      obtain ⟨hstands, hplace⟩ := ih others
      rw [itemsText_cons, List.append_assoc, Location.after_append here]
      exact ⟨hstands, hplace⟩

/-- Another text may stand behind the items if it can stand behind the last of them. -/
theorem imp {here : Location} {items : List Item} {behind other : List Char}
    (h : Laid here items behind)
    (hother : ∀ kind : TokenKind, kind.Apart behind → kind.Apart other) :
    Laid here items other := by
  induction h with
  | nil => exact .nil
  | @cons here item items behind first place others ih =>
    refine .cons ⟨?_, first.spelled, ?_⟩ place (ih hother)
    · obtain ⟨c, more, hwritten⟩ := first.spelled.exists_writing
      refine first.gap.of_ne_nil ?_ _
      rw [Token.written, hwritten]
      exact List.cons_ne_nil _ _
    · have hapart := first.apart
      cases hitems : itemsText items with
      | nil =>
        rw [hitems] at hapart
        exact hother _ hapart
      | cons c rest =>
        rw [hitems, List.cons_append, TokenKind.apart_cons] at hapart
        rwa [List.cons_append, TokenKind.apart_cons]

/-- What stands behind the items may be cut off anywhere. -/
theorem cut {here : Location} {items : List Item} {behind rest : List Char}
    (h : Laid here items (behind ++ rest)) : Laid here items behind := by
  refine h.imp fun kind hapart => ?_
  cases behind with
  | nil => exact kind.apart_nil
  | cons c behind => exact TokenKind.apart_cons.mpr (TokenKind.apart_cons.mp hapart)

/-- There are no more items than characters. -/
theorem length_le {here : Location} {items : List Item} {behind : List Char}
    (h : Laid here items behind) : items.length ≤ (itemsText items).length := by
  induction h with
  | nil => exact Nat.le_refl 0
  | cons first place others ih =>
    obtain ⟨c, more, hwritten⟩ := first.spelled.exists_writing
    rw [itemsText_cons, Item.text, Token.written, hwritten]
    simp only [List.length_cons, List.length_append]
    omega

end Laid

/-! ## Reading items -/

/-- One round reads one item. -/
theorem lexFrom_item {here : Location} {item : Item} {behind : List Char} (h : item.Stands behind)
    (hplace : item.token.location = here.after item.gap) (rounds : Nat) (done : Array Token) :
    lexFrom (rounds + 1) here (item.text ++ behind) done =
      lexFrom rounds (here.after item.text) behind (done.push item.token) := by
  obtain ⟨c, more, hwritten⟩ := h.spelled.exists_writing
  have hskip : skipGap here (item.text ++ behind) =
      (item.token.location, c :: (more ++ behind)) := by
    rw [Item.text, List.append_assoc, skipGap_append h.gap (startsGap_writing h.spelled h.apart),
      Token.written, hwritten, hplace]
    rfl
  rw [lexFrom, hskip]
  simp only [scan_writing h.spelled h.apart hwritten, Scanned.token, String.ofList_toList]
  rw [hplace, ← Location.after_append, ← hplace]
  rfl

/-- Items are read one by one. -/
theorem lexFrom_items {here : Location} {items : List Item} {behind : List Char}
    (h : Laid here items behind) (rounds : Nat) (done : Array Token) :
    lexFrom (items.length + rounds) here (itemsText items ++ behind) done =
      lexFrom rounds (here.after (itemsText items)) behind
        (done ++ (items.map Item.token).toArray) := by
  induction h generalizing done with
  | nil => simp
  | @cons here item items behind first place others ih =>
    rw [List.length_cons, Nat.add_right_comm, itemsText_cons, List.append_assoc,
      lexFrom_item first place, ih, Location.after_append]
    simp

theorem lexFrom_gap {gap : List Char} (h : Gap gap []) (here : Location) (rounds : Nat)
    (done : Array Token) : lexFrom (rounds + 1) here gap done =
      ⟨done.toList ++ [.endMark (here.after gap)], none⟩ := by
  have hskip := skipGap_append h rfl here
  rw [List.append_nil] at hskip
  rw [lexFrom, hskip]
  simp

theorem lexFrom_unreadable {gap rest : List Char} {cause : LexCause} (h : Gap gap rest)
    (hbad : Unreadable cause rest) (here : Location) (rounds : Nat) (done : Array Token) :
    lexFrom (rounds + 1) here (gap ++ rest) done = ⟨done.toList, some ⟨cause, here.after gap⟩⟩ := by
  have hskip := skipGap_append h hbad.startsGap here
  cases rest with
  | nil => cases hbad
  | cons c rest =>
    rw [lexFrom, hskip]
    simp only [scan_of_unreadable hbad]

/-- There are rounds enough for all items and for what stands behind them. -/
theorem lexChars_items {here : Location} {items : List Item} {behind : List Char}
    (h : Laid here items behind) : ∃ rounds, behind.length ≤ rounds ∧
      lexChars here (itemsText items ++ behind) =
        lexFrom (rounds + 1) (here.after (itemsText items)) behind
          (items.map Item.token).toArray := by
  have hle := h.length_le
  refine ⟨(itemsText items ++ behind).length - items.length, ?_, ?_⟩
  · rw [List.length_append]
    omega
  · have hread := lexFrom_items h ((itemsText items ++ behind).length - items.length + 1) #[]
    rw [Array.empty_append] at hread
    rw [lexChars, ← hread]
    congr 1
    rw [List.length_append]
    omega

/-- **Items with only a gap behind them are read to the end.** -/
theorem lexChars_end {here : Location} {items : List Item} {gap : List Char}
    (h : Laid here items gap) (hgap : Gap gap []) :
    lexChars here (itemsText items ++ gap) =
      ⟨items.map Item.token ++ [.endMark (here.after (itemsText items ++ gap))], none⟩ := by
  obtain ⟨rounds, _, hread⟩ := lexChars_items h
  rw [hread, lexFrom_gap hgap, Location.after_append]

/-- **Items with something unreadable behind them are read up to it.** -/
theorem lexChars_unreadable {here : Location} {items : List Item} {gap rest : List Char}
    {cause : LexCause} (h : Laid here items (gap ++ rest)) (hgap : Gap gap rest)
    (hbad : Unreadable cause rest) :
    lexChars here (itemsText items ++ (gap ++ rest)) =
      ⟨items.map Item.token, some ⟨cause, here.after (itemsText items ++ gap)⟩⟩ := by
  obtain ⟨rounds, _, hread⟩ := lexChars_items h
  rw [hread, lexFrom_unreadable hgap hbad, Location.after_append]

/-! ## Every text -/

/-- **Every text is taken apart into items**, up to a gap with nothing behind it or something
unreadable. -/
theorem exists_laid (here : Location) (text : List Char) :
    ∃ items gap rest, text = itemsText items ++ (gap ++ rest) ∧ Laid here items (gap ++ rest) ∧
      Gap gap rest ∧ (rest = [] ∨ ∃ cause, Unreadable cause rest) := by
  obtain ⟨gap, rest, hsplit, hgap, hrest⟩ := exists_gap text
  cases rest with
  | nil => exact ⟨[], gap, [], hsplit, .nil, hgap, .inl rfl⟩
  | cons c rest =>
    rcases exists_writing_or_unreadable hrest with
      ⟨kind, lexeme, behind, htext, hspelled, hapart⟩ | hbad
    · -- the first token, and all others by recursion
      obtain ⟨d, more, hwritten⟩ := hspelled.exists_writing
      let item : Item := ⟨gap, ⟨kind, String.ofList lexeme, here.after gap⟩⟩
      have hitem : item.token.written = writing kind lexeme := by
        rw [Token.written, String.toList_ofList]
      have hless : behind.length < text.length := by
        rw [hsplit, htext, hwritten]
        simp only [List.length_append, List.length_cons]
        omega
      obtain ⟨items, last, later, hbehind, hlaid, hlast, hend⟩ :=
        exists_laid (here.after item.text) behind
      refine ⟨item :: items, last, later, ?_, .cons ⟨?_, ?_, ?_⟩ rfl hlaid, hlast, hend⟩
      · rw [itemsText_cons, Item.text, hitem, hsplit, htext, hbehind]
        simp [item]
      · rw [hitem, ← hbehind, ← htext]
        exact hgap
      · show Spelled kind (String.ofList lexeme).toList
        rwa [String.toList_ofList]
      · rw [← hbehind]
        exact hapart
    · exact ⟨[], gap, c :: rest, hsplit, .nil, hgap, .inr hbad⟩
  termination_by text.length

/-- **Reading tokens loses nothing.** A script is put together from tokens with a gap in front of
each, a last gap, and nothing or something unreadable. Each token is spelled as its kind wants
and is not followed by a character that would be read together with it. What is read are these
tokens, and behind them the end of the script or an error. All of them are at the places counted out
from the text in front of them, and up to an error the script is read as if it ended there. -/
theorem lex_lossless (source : String) :
    ∃ items gap rest, source.toList = itemsText items ++ (gap ++ rest) ∧
      (∀ front item back, items = front ++ item :: back →
        item.Stands (itemsText back ++ (gap ++ rest)) ∧
          item.token.location = .behind (itemsText front ++ item.gap)) ∧
      Gap gap rest ∧
      ((rest = [] ∧
          lex source = ⟨items.map Item.token ++ [.endMark (.behind source.toList)], none⟩) ∨
        ∃ cause, Unreadable cause rest ∧
          lex source =
            ⟨items.map Item.token, some ⟨cause, .behind (itemsText items ++ gap)⟩⟩ ∧
          lex (String.ofList (itemsText items ++ gap)) =
            ⟨items.map Item.token ++ [.endMark (.behind (itemsText items ++ gap))], none⟩) := by
  obtain ⟨items, gap, rest, htext, hlaid, hgap, hend⟩ := exists_laid .start source.toList
  refine ⟨items, gap, rest, htext, ?_, hgap, ?_⟩
  · rintro front item back rfl
    rw [← Location.start_after]
    exact hlaid.stands
  simp only [lex, String.toList_ofList, ← Location.start_after]
  rcases hend with rfl | ⟨cause, hbad⟩
  · rw [List.append_nil] at htext hlaid
    rw [htext]
    exact .inl ⟨rfl, lexChars_end hlaid hgap⟩
  · have hne : rest ≠ [] := by
      rintro rfl
      cases hbad
    rw [htext]
    exact .inr ⟨cause, hbad, lexChars_unreadable hlaid hgap hbad,
      lexChars_end hlaid.cut (hgap.of_ne_nil hne [])⟩

end Scriptlet
