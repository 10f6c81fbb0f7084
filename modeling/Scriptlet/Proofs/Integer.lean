import Scriptlet.Integer

/-!
# Numerals

The decimal numeral of a word is read as that word again, whatever its sign.

## Main results

* `Integer.readDigits?_toDigits` — the digits of a natural number are read as that number
* `Integer.read?_text` — the numeral of a word is read as that word
-/

namespace Scriptlet

namespace Integer

theorem fits_toInt (n : Int64) : Fits n.toInt :=
  ⟨n.minValue_le_toInt, n.toInt_le⟩

theorem ofInt?_toInt (n : Int64) : ofInt? n.toInt = some n := by
  rw [ofInt?, if_pos (fits_toInt n), Int64.ofInt_toInt]

theorem readDigits?_toDigits (n : Nat) : readDigits? (Nat.toDigits 10 n) = some n := by
  have hdigits : (Nat.toDigits 10 n).all Char.isDigit = true := by
    rw [List.all_eq_true]
    intro c hc
    exact Nat.isDigit_of_mem_toDigits (by decide) (by decide) hc
  rw [readDigits?, if_pos ⟨Nat.toDigits_ne_nil, hdigits⟩,
    Nat.ofDigitChars_toDigits (by decide) (by decide)]

/-- Digits have no sign before them. -/
theorem readNumeral?_toDigits (n : Nat) : readNumeral? (Nat.toDigits 10 n) = some (n : Int) := by
  have hread := readDigits?_toDigits n
  unfold readNumeral?
  split
  · rename_i digits h
    have hsign : '+'.isDigit = true :=
      Nat.isDigit_of_mem_toDigits (by decide) (by decide) (h ▸ List.mem_cons_self)
    exact absurd hsign (by decide)
  · rename_i digits h
    have hsign : '-'.isDigit = true :=
      Nat.isDigit_of_mem_toDigits (by decide) (by decide) (h ▸ List.mem_cons_self)
    exact absurd hsign (by decide)
  · rw [hread]
    rfl

theorem readNumeral?_toString (z : Int) : readNumeral? (toString z).toList = some z := by
  cases z with
  | ofNat n =>
    change readNumeral? n.repr.toList = _
    rw [Nat.toList_repr, readNumeral?_toDigits]
    rfl
  | negSucc n =>
    change readNumeral? ("-" ++ n.succ.repr).toList = _
    rw [String.toList_append, Nat.toList_repr]
    change (readDigits? (Nat.toDigits 10 n.succ)).map _ = _
    rw [readDigits?_toDigits]
    rfl

/-- **The numeral of a word is read as that word.** -/
theorem read?_text (n : Int64) : read? (text n) = some n := by
  rw [read?, text, readNumeral?_toString, Option.bind_some, ofInt?_toInt]

end Integer

end Scriptlet
