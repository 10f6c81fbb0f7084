/-!
# Integers of 64 bits, exact or refused

Integers are two's complement words of 64 bits. An operation whose exact result does not fit in a
word has no result here; nothing ever wraps.

## Main definitions

* `Integer.ofInt?` — the word that holds a whole number, if one does
* `Integer.add?`, `sub?`, `mul?`, `quotient?`, `neg?` — arithmetic that refuses what does not fit
* `Integer.read?` — the word that a decimal numeral writes
-/

namespace Scriptlet

namespace Integer

/-- Whether a whole number fits in a word. -/
def Fits (z : Int) : Prop := Int64.minValue.toInt ≤ z ∧ z ≤ Int64.maxValue.toInt

instance (z : Int) : Decidable (Fits z) := inferInstanceAs (Decidable (_ ∧ _))

/-- The word that holds a whole number, if it fits in one. -/
def ofInt? (z : Int) : Option Int64 := if Fits z then some (Int64.ofInt z) else none

/-! ## Arithmetic -/

/-- The sum, if it fits. -/
def add? (a b : Int64) : Option Int64 := ofInt? (a.toInt + b.toInt)

/-- The difference, if it fits. -/
def sub? (a b : Int64) : Option Int64 := ofInt? (a.toInt - b.toInt)

/-- The product, if it fits. -/
def mul? (a b : Int64) : Option Int64 := ofInt? (a.toInt * b.toInt)

/-- The quotient cut off toward zero, if it fits. The divisor is not zero. -/
def quotient? (a b : Int64) : Option Int64 := ofInt? (a.toInt.tdiv b.toInt)

/-- The number with the other sign, if it fits. -/
def neg? (a : Int64) : Option Int64 := ofInt? (-a.toInt)

/-! ## Numerals -/

/-- The number that one or more decimal digits write; nothing else is a number. -/
def readDigits? (digits : List Char) : Option Nat :=
  if digits ≠ [] ∧ digits.all Char.isDigit then some (Nat.ofDigitChars 10 digits 0) else none

/-- The whole number that a numeral writes: digits, with at most one sign before them. -/
def readNumeral? : List Char → Option Int
  | '+' :: digits => (readDigits? digits).map Int.ofNat
  | '-' :: digits => (readDigits? digits).map fun n => -Int.ofNat n
  | digits => (readDigits? digits).map Int.ofNat

/-- The word that a numeral writes, if it is a numeral and the number fits. -/
def read? (numeral : String) : Option Int64 := (readNumeral? numeral.toList).bind ofInt?

/-- The decimal numeral of a word. -/
def text (n : Int64) : String := toString n.toInt

end Integer

end Scriptlet
