import Mathlib.Algebra.Ring.Int.Defs
import Scriptlet.Proofs.Integer
import Scriptlet.Proofs.Outcome
import Scriptlet.Session.Eval

/-!
# Arithmetic is exact or refused

A tree of integers and operators of arithmetic has a value among all whole numbers, unless it
divides by zero somewhere. Evaluation works with words of 64 bits. It gives that value if the value
of every tree inside fits in a word, and otherwise it stops at the operator whose result is the
first not to be there, in the order in which operators are applied: operands before their operator,
and the left one before the right one.

## Main definitions

* `Operation`, `Operation.result?`, `Operation.refusal` — the four operations on whole numbers
* `Formula`, `Formula.expr` — trees of integers and operators
* `Formula.value?`, `Formula.Sound` — the value of a tree, and that it fits in a word
* `Formula.parts` — a tree and all trees inside it, in the order in which they are evaluated

## Main results

* `Operation.binary_of_exact`, `Operation.binary_of_refused` — one operator on words
* `Formula.eval_of_sound`, `Formula.eval_of_unsound` — trees
* `Formula.eval_exact_or_refused` — both together
-/

namespace Scriptlet

open Scriptlet.Action

namespace Integer

/-- The words hold the whole numbers from `-2 ^ 63` on and below `2 ^ 63`. -/
theorem fits_iff {z : Int} : Fits z ↔ -2 ^ 63 ≤ z ∧ z < 2 ^ 63 := by
  have hmin : Int64.minValue.toInt = -2 ^ 63 := by decide
  have hmax : Int64.maxValue.toInt = 2 ^ 63 - 1 := by decide
  rw [Fits, hmin, hmax]
  omega

theorem ofInt?_of_not_fits {z : Int} (h : ¬ Fits z) : ofInt? z = none := if_neg h

theorem exists_toInt_iff {z : Int} : (∃ n : Int64, n.toInt = z) ↔ Fits z := by
  constructor
  · rintro ⟨n, rfl⟩
    exact fits_toInt n
  · intro h
    rw [fits_iff] at h
    exact ⟨Int64.ofInt z, Int64.toInt_ofInt_of_le h.1 h.2⟩

end Integer

/-! ## Operations -/

/-- The operations of arithmetic with two operands. -/
inductive Operation where
  | sum
  | difference
  | product
  | quotient
deriving DecidableEq

namespace Operation

/-- The kind of the tokens that stand for an operation. -/
def kind : Operation → TokenKind
  | sum => .plus
  | difference => .minus
  | product => .star
  | quotient => .slash

/-- How a fault writes an operation. -/
def symbol : Operation → String
  | sum => "+"
  | difference => "-"
  | product => "*"
  | quotient => "/"

/-- The result among all whole numbers. A quotient is cut off toward zero, and there is none by
zero. -/
def result? : Operation → Int → Int → Option Int
  | sum, a, b => some (a + b)
  | difference, a, b => some (a - b)
  | product, a, b => some (a * b)
  | quotient, a, b => if b = 0 then none else some (a.tdiv b)

/-- What a fault says if there is no result, or none that fits. -/
def refusal (operation : Operation) (a b : Int) : FaultCause :=
  if operation = quotient ∧ b = 0 then .divisionByZero
  else .integerOverflow (toString a ++ " " ++ operation.symbol ++ " " ++ toString b)

variable {operation : Operation} {operator : Token} {a b : Int64}

/-- An operator on words looks for the word that holds the exact result. -/
theorem binary_eq (h : operator.kind = operation.kind) :
    Value.binary operator (.integer a) (.integer b) =
      if operation = quotient ∧ b.toInt = 0 then .error .divisionByZero
      else Value.orOverflow (Value.operationText a operation.symbol b)
        ((operation.result? a.toInt b.toInt).bind Integer.ofInt?) := by
  cases operation with
  | sum => simp [Value.binary, Value.binaryInteger, h, kind, symbol, result?, Integer.add?]
  | difference => simp [Value.binary, Value.binaryInteger, h, kind, symbol, result?, Integer.sub?]
  | product => simp [Value.binary, Value.binaryInteger, h, kind, symbol, result?, Integer.mul?]
  | quotient =>
    have hzero : b = 0 ↔ b.toInt = 0 := by rw [← Int64.toInt_inj]; rfl
    simp only [Value.binary, Value.binaryInteger, h, kind, symbol, result?, hzero, true_and]
    by_cases hb : b.toInt = 0
    · simp [hb]
    · simp [hb, Integer.quotient?]

/-- An exact result that a word holds is given. -/
theorem binary_of_exact (h : operator.kind = operation.kind) {n : Int64}
    (hn : operation.result? a.toInt b.toInt = some n.toInt) :
    Value.binary operator (.integer a) (.integer b) = .ok (.integer n) := by
  have hdefined : ¬ (operation = quotient ∧ b.toInt = 0) := by
    rintro ⟨rfl, hb⟩
    simp [result?, hb] at hn
  rw [binary_eq h, if_neg hdefined, hn, Option.bind_some, Integer.ofInt?_toInt]
  rfl

/-- A result that is not there, or that no word holds, is refused. -/
theorem binary_of_refused (h : operator.kind = operation.kind)
    (hn : ∀ n : Int64, operation.result? a.toInt b.toInt ≠ some n.toInt) :
    Value.binary operator (.integer a) (.integer b) =
      .error (operation.refusal a.toInt b.toInt) := by
  have hnone : (operation.result? a.toInt b.toInt).bind Integer.ofInt? = none := by
    cases hexact : operation.result? a.toInt b.toInt with
    | none => rfl
    | some z =>
      refine Integer.ofInt?_of_not_fits fun hfits => ?_
      obtain ⟨n, rfl⟩ := Integer.exists_toInt_iff.mpr hfits
      exact hn n hexact
  rw [binary_eq h, hnone, refusal]
  split <;> rfl

end Operation

/-! ## Trees of arithmetic -/

/-- A tree of integers and operators of arithmetic. The operators are tokens of a script, as faults
point at them. -/
inductive Formula where
  | integer (n : Int64)
  /-- A minus sign in front of its operand. -/
  | negation (sign : { token : Token // token.kind = .minus }) (operand : Formula)
  | binary (left : Formula) (operation : Operation)
      (operator : { token : Token // token.kind = operation.kind }) (right : Formula)

namespace Formula

/-- A tree of arithmetic as an expression of a script. -/
def expr : Formula → Expr
  | integer n => .literal (.integer n)
  | negation sign operand => .unary sign operand.expr
  | binary left _ operator right => .binary left.expr operator right.expr

/-- How many operators stand inside each other. -/
def height : Formula → Nat
  | integer _ => 0
  | negation _ operand => operand.height + 1
  | binary left _ _ right => max left.height right.height + 1

/-- The value among all whole numbers, which is not there if a divisor is zero. -/
def value? : Formula → Option Int
  | integer n => some n.toInt
  | negation _ operand => operand.value?.map fun a => -a
  | binary left operation _ right =>
    left.value?.bind fun a => right.value?.bind fun b => operation.result? a b

/-- A tree and all trees inside it, in the order in which their values are found: operands before
their operator, and the left one before the right one. -/
def parts : Formula → List Formula
  | integer n => [integer n]
  | negation sign operand => operand.parts ++ [negation sign operand]
  | binary left operation operator right =>
    left.parts ++ right.parts ++ [binary left operation operator right]

/-- The tree has a value, and a word can hold it. -/
def Sound (formula : Formula) : Prop :=
  ∃ z, formula.value? = some z ∧ -2 ^ 63 ≤ z ∧ z < 2 ^ 63

/-- The fault that the outermost operator raises if its result is refused. It tells the values of
the operands, so these have to be there. -/
def fault? : Formula → Option Fault
  | integer _ => none
  | negation sign operand =>
    operand.value?.map fun a =>
      ⟨.integerOverflow ("-(" ++ toString a ++ ")"), sign.val.location⟩
  | binary left operation operator right =>
    left.value?.bind fun a => right.value?.map fun b =>
      ⟨operation.refusal a b, operator.val.location⟩

variable {formula : Formula}

/-- A tree is sound if there is a word that holds its value. -/
theorem sound_iff : formula.Sound ↔ ∃ n : Int64, formula.value? = some n.toInt := by
  constructor
  · rintro ⟨z, hz, hrange⟩
    obtain ⟨n, rfl⟩ := Integer.exists_toInt_iff.mpr (Integer.fits_iff.mpr hrange)
    exact ⟨n, hz⟩
  · rintro ⟨n, hn⟩
    exact ⟨n.toInt, hn, Integer.fits_iff.mp (Integer.fits_toInt n)⟩

instance : Decidable formula.Sound :=
  match h : formula.value? with
  | none => isFalse (by simp [Sound, h])
  | some z => decidable_of_iff (-2 ^ 63 ≤ z ∧ z < 2 ^ 63) (by simp [Sound, h])

/-- The first part, in the order of evaluation, that is not sound. -/
def firstUnsound? (formula : Formula) : Option Formula :=
  formula.parts.find? fun part => ¬ part.Sound

theorem firstUnsound?_eq_none_iff :
    formula.firstUnsound? = none ↔ ∀ part ∈ formula.parts, part.Sound := by
  simp [firstUnsound?]

/-! ### Which part is the first -/

theorem firstUnsound?_negation (sign : { token : Token // token.kind = .minus })
    (operand : Formula) :
    (negation sign operand).firstUnsound? =
      operand.firstUnsound?.or ([negation sign operand].find? fun part => ¬ part.Sound) := by
  rw [firstUnsound?, parts, List.find?_append]
  rfl

theorem firstUnsound?_binary (left : Formula) (operation : Operation)
    (operator : { token : Token // token.kind = operation.kind }) (right : Formula) :
    (binary left operation operator right).firstUnsound? =
      left.firstUnsound?.or (right.firstUnsound?.or
        ([binary left operation operator right].find? fun part => ¬ part.Sound)) := by
  rw [firstUnsound?, parts, List.find?_append, List.find?_append, Option.or_assoc]
  rfl

/-! ## Evaluation -/

section Evaluation

variable {steps : Nat} (session : Session)

/-- **A tree whose parts are all sound has its exact value.** -/
theorem eval_of_sound (hsteps : formula.height < steps) (h : formula.firstUnsound? = none) :
    ∃ n : Int64, formula.value? = some n.toInt ∧
      eval steps formula.expr session = .ok (.integer n) session := by
  induction formula generalizing steps with
  | integer n =>
    obtain ⟨steps, rfl⟩ := Nat.exists_eq_succ_of_ne_zero (Nat.ne_of_gt hsteps)
    exact ⟨n, rfl, rfl⟩
  | negation sign operand ih =>
    obtain ⟨steps, rfl⟩ := Nat.exists_eq_succ_of_ne_zero (Nat.ne_zero_of_lt hsteps)
    rw [firstUnsound?_negation, Option.or_eq_none_iff] at h
    obtain ⟨a, ha, heval⟩ := ih (Nat.lt_of_succ_lt_succ hsteps) h.1
    have hself : (negation sign operand).Sound := by simpa using h.2
    obtain ⟨n, hn⟩ := sound_iff.mp hself
    refine ⟨n, hn, ?_⟩
    rw [value?, ha, Option.map_some, Option.some_inj] at hn
    have hvalue : Value.unary sign (.integer a) = .ok (.integer n) := by
      simp [Value.unary, sign.property, Integer.neg?, hn, Integer.ofInt?_toInt, Value.orOverflow]
    rw [expr, eval, evalWith, bind_of_ok heval, hvalue]
    rfl
  | binary left operation operator right ihleft ihright =>
    obtain ⟨steps, rfl⟩ := Nat.exists_eq_succ_of_ne_zero (Nat.ne_zero_of_lt hsteps)
    rw [height] at hsteps
    rw [firstUnsound?_binary, Option.or_eq_none_iff, Option.or_eq_none_iff] at h
    obtain ⟨a, ha, hleft⟩ := ihleft (by omega : left.height < steps) h.1
    obtain ⟨b, hb, hright⟩ := ihright (by omega : right.height < steps) h.2.1
    have hself : (binary left operation operator right).Sound := by simpa using h.2.2
    obtain ⟨n, hn⟩ := sound_iff.mp hself
    refine ⟨n, hn, ?_⟩
    rw [value?, ha, hb, Option.bind_some, Option.bind_some] at hn
    rw [expr, eval, evalWith, bind_of_ok hleft, bind_of_ok hright,
      Operation.binary_of_exact operator.property hn]
    rfl

/-- **A tree with a part that is not sound stops at the first of them.** -/
theorem eval_of_unsound (hsteps : formula.height < steps) {part : Formula}
    (h : formula.firstUnsound? = some part) :
    ∃ fault, part.fault? = some fault ∧
      eval steps formula.expr session = .error (.fault fault) session := by
  induction formula generalizing steps with
  | integer n =>
    have hsound : (integer n).Sound := sound_iff.mpr ⟨n, rfl⟩
    simp [firstUnsound?, parts, hsound] at h
  | negation sign operand ih =>
    obtain ⟨steps, rfl⟩ := Nat.exists_eq_succ_of_ne_zero (Nat.ne_zero_of_lt hsteps)
    have hoperand := Nat.lt_of_succ_lt_succ hsteps
    rw [firstUnsound?_negation, Option.or_eq_some_iff] at h
    rcases h with h | ⟨hnone, h⟩
    · -- the operand is evaluated first
      obtain ⟨fault, hfault, heval⟩ := ih hoperand h
      exact ⟨fault, hfault, bind_of_error heval⟩
    · obtain ⟨a, ha, heval⟩ := eval_of_sound session hoperand hnone
      obtain ⟨hself, rfl⟩ : ¬ (negation sign operand).Sound ∧ _ := by simpa using h
      refine ⟨_, by rw [fault?, ha]; rfl, ?_⟩
      have hrefused : Integer.neg? a = none := by
        refine Integer.ofInt?_of_not_fits fun hfits => hself ?_
        exact ⟨-a.toInt, by rw [value?, ha]; rfl, Integer.fits_iff.mp hfits⟩
      have hvalue : Value.unary sign (.integer a) =
          .error (.integerOverflow ("-(" ++ toString a.toInt ++ ")")) := by
        simp [Value.unary, sign.property, hrefused, Value.orOverflow, Integer.text]
      rw [expr, eval, evalWith, bind_of_ok heval, hvalue]
      rfl
  | binary left operation operator right ihleft ihright =>
    obtain ⟨steps, rfl⟩ := Nat.exists_eq_succ_of_ne_zero (Nat.ne_zero_of_lt hsteps)
    rw [height] at hsteps
    have hleft : left.height < steps := by omega
    have hright : right.height < steps := by omega
    rw [firstUnsound?_binary, Option.or_eq_some_iff, Option.or_eq_some_iff] at h
    rcases h with h | ⟨hnone, h | ⟨hnone', h⟩⟩
    · obtain ⟨fault, hfault, heval⟩ := ihleft hleft h
      exact ⟨fault, hfault, bind_of_error heval⟩
    · obtain ⟨a, -, heval⟩ := eval_of_sound session hleft hnone
      obtain ⟨fault, hfault, heval'⟩ := ihright hright h
      exact ⟨fault, hfault, (bind_of_ok heval).trans (bind_of_error heval')⟩
    · obtain ⟨a, ha, heval⟩ := eval_of_sound session hleft hnone
      obtain ⟨b, hb, heval'⟩ := eval_of_sound session hright hnone'
      obtain ⟨hself, rfl⟩ : ¬ (binary left operation operator right).Sound ∧ _ := by
        simpa using h
      refine ⟨_, by rw [fault?, ha, hb]; rfl, ?_⟩
      have hrefused (n : Int64) : operation.result? a.toInt b.toInt ≠ some n.toInt := by
        intro hn
        exact hself (sound_iff.mpr ⟨n, by rw [value?, ha, hb]; exact hn⟩)
      rw [expr, eval, evalWith, bind_of_ok heval, bind_of_ok heval',
        Operation.binary_of_refused operator.property hrefused]
      rfl

end Evaluation

/-- **Arithmetic is exact or refused.** A tree of integers and operators of arithmetic is evaluated
to an integer exactly if the value that each part has among all whole numbers is there and is at
least `-2 ^ 63` and below `2 ^ 63`, and the integer is the value of the tree. Otherwise evaluation
stops at the first part, operands before their operator and from left to right, whose value is not
there or not in this range. The fault stands at the operator of that part; it is a division by zero
if the divisor is zero, and an overflow otherwise. -/
theorem eval_exact_or_refused (formula : Formula) (session : Session) {steps : Nat}
    (hsteps : formula.height < steps) :
    (∀ value after, eval steps formula.expr session = .ok value after ↔
      (∀ part ∈ formula.parts, part.Sound) ∧
        ∃ n : Int64, formula.value? = some n.toInt ∧ value = .integer n ∧ after = session) ∧
    ((∀ part ∈ formula.parts, part.Sound) ∨
      ∃ earlier part later fault, formula.parts = earlier ++ part :: later ∧
        (∀ other ∈ earlier, other.Sound) ∧ ¬ part.Sound ∧ part.fault? = some fault ∧
          eval steps formula.expr session = .error (.fault fault) session) := by
  cases hfirst : formula.firstUnsound? with
  | none =>
    obtain ⟨n, hn, heval⟩ := eval_of_sound session hsteps hfirst
    rw [firstUnsound?_eq_none_iff] at hfirst
    refine ⟨fun value after => ⟨fun h => ?_, ?_⟩, .inl hfirst⟩
    · cases heval.symm.trans h
      exact ⟨hfirst, n, hn, rfl, rfl⟩
    · rintro ⟨-, m, hm, rfl, rfl⟩
      obtain rfl : n = m := Int64.toInt_inj.mp (Option.some.inj (hn.symm.trans hm))
      exact heval
  | some part =>
    obtain ⟨fault, hfault, heval⟩ := eval_of_unsound session hsteps hfirst
    obtain ⟨hpart, earlier, later, hparts, hearlier⟩ := List.find?_eq_some_iff_append.mp hfirst
    have hunsound : ¬ part.Sound := of_decide_eq_true hpart
    refine ⟨fun value after => ⟨fun h => ?_, fun h => ?_⟩, .inr ?_⟩
    · cases heval.symm.trans h
    · exact absurd (h.1 part (by simp [hparts])) hunsound
    · exact ⟨earlier, part, later, fault, hparts, by simpa using hearlier, hunsound, hfault, heval⟩

end Formula

namespace Sample

/-- The least integer divided by minus one, and one divided by zero. -/
def quotients : Formula :=
  .binary
    (.binary (.integer Int64.minValue) .quotient ⟨⟨.slash, "/", ⟨1, 3⟩⟩, rfl⟩
      (.negation ⟨⟨.minus, "-", ⟨1, 5⟩⟩, rfl⟩ (.integer 1)))
    .sum ⟨⟨.plus, "+", ⟨1, 8⟩⟩, rfl⟩
    (.binary (.integer 1) .quotient ⟨⟨.slash, "/", ⟨1, 12⟩⟩, rfl⟩ (.integer 0))

/-- The first quotient is refused, as it is one more than the greatest integer. -/
theorem quotients_refused :
    quotients.height < 4 ∧
      (∃ earlier part later fault, quotients.parts = earlier ++ part :: later ∧
        (∀ other ∈ earlier, other.Sound) ∧ ¬ part.Sound ∧ part.fault? = some fault ∧
          eval 4 quotients.expr (.start {} {}) = .error (.fault fault) (.start {} {})) ∧
      error? (eval 4 quotients.expr (.start {} {})) =
        some (.fault ⟨.integerOverflow "-9223372036854775808 / -1", ⟨1, 3⟩⟩) :=
  ⟨by decide,
    (quotients.eval_exact_or_refused (.start {} {}) (by decide)).2.resolve_left (by decide +kernel),
    by decide +kernel⟩

end Sample

end Scriptlet
