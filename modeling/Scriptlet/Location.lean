/-!
# Places in a script

A place is a line and a column, both counted from one; columns count characters. Reading a
character moves a place forward, and reading a text moves it character by character, so the place
of anything in a script is `Location.start` moved over all the text before it.

## Main definitions

* `Location` — a line and a column
* `Location.start`, `Location.unknown` — where reading starts, and the place of nothing in particular
* `Location.next`, `Location.after` — the place behind one character, and behind a text
-/

namespace Scriptlet

/-- A line and a column of a script. -/
structure Location where
  /-- The line, counted from one. -/
  line : Nat
  /-- The column, counted from one in characters. -/
  column : Nat
deriving DecidableEq, Inhabited

namespace Location

/-- The place of a script's first character. -/
def start : Location := ⟨1, 1⟩

/-- The place of what stands nowhere in a script. -/
def unknown : Location := ⟨0, 0⟩

/-- The place directly behind a character that stands here. -/
def next (here : Location) (c : Char) : Location :=
  if c = '\n' then ⟨here.line + 1, 1⟩ else ⟨here.line, here.column + 1⟩

/-- The place directly behind a text that starts here. -/
def after (here : Location) (text : List Char) : Location := text.foldl next here

@[simp] theorem after_nil (here : Location) : here.after [] = here := rfl

@[simp] theorem after_cons (here : Location) (c : Char) (text : List Char) :
    here.after (c :: text) = (here.next c).after text := rfl

@[simp] theorem after_append (here : Location) (first second : List Char) :
    here.after (first ++ second) = (here.after first).after second :=
  List.foldl_append

end Location

end Scriptlet
