import Scriptlet.Proofs.Grammar.Expression

/-!
# Limits on nesting

Expressions and statements each have a number of levels that may be open inside each other. An
opening for which no level is left is where reading fails.

## Main definitions

* `Grammar.Limits` — how many levels of each kind may be opened
* `Limits.firstError` — the error at the first opening for which no level is left
* `Limits.Allow` — a level is left for every opening
* `Limits.Measure` — limits that are exactly what some openings need

## Main results

* `Limits.firstError_eq_none_iff` — there is no error if every opening is allowed
* `Limits.Measure.append`, `Limits.Measure.deeper` — what is needed side by side, and one level
  deeper
-/

namespace Scriptlet

namespace Grammar

/-- How many levels of each kind may be opened. -/
structure Limits where
  /-- How many expressions. -/
  expression : Nat
  /-- How many statements. -/
  statement : Nat

namespace Limits

/-- The limit for one kind of level. -/
def of (limits : Limits) : Nesting → Nat
  | .expression => limits.expression
  | .statement => limits.statement

/-- The limits with one more level of a kind. -/
def more (limits : Limits) : Nesting → Limits
  | .expression => { limits with expression := limits.expression + 1 }
  | .statement => { limits with statement := limits.statement + 1 }

end Limits

/-- What is wrong at an opening for which no level is left. -/
def Nesting.cause : Nesting → ParseCause
  | .expression => .nestingTooDeep
  | .statement => .statementNestingTooDeep

namespace Opening

/-- The error at an opening for which no level is left. -/
def error (opening : Opening) : ParseError := ⟨opening.nesting.cause, opening.token⟩

theorem error_isFatal (opening : Opening) : opening.error.isFatal = true := by
  unfold error ParseError.isFatal
  cases opening.nesting <;> rfl

/-- Whether no level is left at an opening. -/
def Exceeds (opening : Opening) (limits : Limits) : Prop :=
  limits.of opening.nesting ≤ opening.depth

instance (opening : Opening) (limits : Limits) : Decidable (opening.Exceeds limits) :=
  inferInstanceAs (Decidable (_ ≤ _))

@[simp] theorem error_deeper (nesting : Nesting) (opening : Opening) :
    (opening.deeper nesting).error = opening.error := by
  unfold deeper error
  split <;> rfl

/-- One level more allows what is inside one level more. -/
@[simp] theorem exceeds_deeper_more (nesting : Nesting) (opening : Opening) (limits : Limits) :
    (opening.deeper nesting).Exceeds (limits.more nesting) ↔ opening.Exceeds limits := by
  obtain ⟨kind, token, depth⟩ := opening
  unfold Exceeds deeper
  cases kind <;> cases nesting <;> simp [Limits.of, Limits.more]

end Opening

namespace Limits

/-- The error at the first opening for which no level is left. -/
def firstError (limits : Limits) (openings : List Opening) : Option ParseError :=
  (openings.find? (·.Exceeds limits)).map Opening.error

@[simp] theorem firstError_append (limits : Limits) (openings later : List Opening) :
    limits.firstError (openings ++ later) =
      (limits.firstError openings).or (limits.firstError later) := by
  simp only [firstError, List.find?_append]
  cases openings.find? _ <;> rfl

theorem firstError_cons_of_exceeds {limits : Limits} {opening : Opening}
    (h : opening.Exceeds limits) (openings : List Opening) :
    limits.firstError (opening :: openings) = some opening.error := by
  simp [firstError, h]

theorem firstError_cons_of_not_exceeds {limits : Limits} {opening : Opening}
    (h : ¬ opening.Exceeds limits) (openings : List Opening) :
    limits.firstError (opening :: openings) = limits.firstError openings := by
  simp [firstError, h]

theorem firstError_map_deeper (limits : Limits) (nesting : Nesting) (openings : List Opening) :
    (limits.more nesting).firstError (openings.map (.deeper nesting)) =
      limits.firstError openings := by
  induction openings with
  | nil => rfl
  | cons opening openings ih =>
    rw [List.map_cons]
    by_cases h : opening.Exceeds limits
    · rw [firstError_cons_of_exceeds h, firstError_cons_of_exceeds (by simpa using h),
        Opening.error_deeper]
    · rw [firstError_cons_of_not_exceeds h, firstError_cons_of_not_exceeds (by simpa using h), ih]

theorem firstError_isFatal {limits : Limits} {openings : List Opening} {error : ParseError}
    (h : limits.firstError openings = some error) : error.isFatal = true := by
  obtain ⟨opening, _, rfl⟩ := Option.map_eq_some_iff.mp h
  exact opening.error_isFatal

/-! ## No error -/

/-- A level is left for every opening. -/
def Allow (limits : Limits) (openings : List Opening) : Prop :=
  ∀ opening ∈ openings, ¬ opening.Exceeds limits

theorem firstError_eq_none_iff {limits : Limits} {openings : List Opening} :
    limits.firstError openings = none ↔ limits.Allow openings := by
  simp [firstError, Allow]

@[simp] theorem allow_nil (limits : Limits) : limits.Allow [] := by
  simp [Allow]

theorem allow_append {limits : Limits} {openings later : List Opening} :
    limits.Allow (openings ++ later) ↔ limits.Allow openings ∧ limits.Allow later :=
  List.forall_mem_append

/-! ## How many levels are needed -/

/-- Limits are compared kind by kind. -/
instance : LE Limits where
  le limits others := limits.expression ≤ others.expression ∧ limits.statement ≤ others.statement

instance (limits others : Limits) : Decidable (limits ≤ others) :=
  inferInstanceAs (Decidable (_ ∧ _))

theorem le_def {limits others : Limits} : limits ≤ others ↔
    limits.expression ≤ others.expression ∧ limits.statement ≤ others.statement := Iff.rfl

/-- The smallest limits that are not below either of two. -/
protected def max (limits others : Limits) : Limits :=
  ⟨max limits.expression others.expression, max limits.statement others.statement⟩

@[simp] theorem max_zero (limits : Limits) : limits.max ⟨0, 0⟩ = limits := by
  simp [Limits.max]

@[simp] theorem zero_max (limits : Limits) : Limits.max ⟨0, 0⟩ limits = limits := by
  simp [Limits.max]

theorem max_le {limits others bound : Limits} :
    limits.max others ≤ bound ↔ limits ≤ bound ∧ others ≤ bound := by
  simp only [le_def, Limits.max]
  omega

@[simp] theorem more_le_more {limits others : Limits} (nesting : Nesting) :
    limits.more nesting ≤ others.more nesting ↔ limits ≤ others := by
  cases nesting <;> simp [le_def, more]

/-- The limits are exactly what the openings need. -/
def Measure (limits : Limits) (openings : List Opening) : Prop :=
  ∀ bound : Limits, bound.Allow openings ↔ limits ≤ bound

theorem measure_nil : Measure ⟨0, 0⟩ [] := fun bound =>
  ⟨fun _ => ⟨Nat.zero_le _, Nat.zero_le _⟩, fun _ => bound.allow_nil⟩

theorem Measure.append {limits others : Limits} {openings later : List Opening}
    (h : limits.Measure openings) (hlater : others.Measure later) :
    (limits.max others).Measure (openings ++ later) := by
  intro bound
  rw [allow_append, h bound, hlater bound, max_le]

theorem allow_map_deeper {limits : Limits} {openings : List Opening} (nesting : Nesting) :
    (limits.more nesting).Allow (openings.map (.deeper nesting)) ↔ limits.Allow openings := by
  simp [Allow]

/-- What is one level deeper needs one level more, and at least one. -/
theorem Measure.deeper {limits : Limits} {openings : List Opening} (h : limits.Measure openings)
    (nesting : Nesting) (token : Token) :
    (limits.more nesting).Measure (⟨nesting, token, 0⟩ :: openings.map (.deeper nesting)) := by
  intro bound
  by_cases hzero : bound.of nesting = 0
  · have hexceeds : Opening.Exceeds ⟨nesting, token, 0⟩ bound := Nat.le_of_eq hzero
    have hmore : ¬ limits.more nesting ≤ bound := by
      cases nesting <;> simp only [le_def, more, of] at hzero ⊢ <;> omega
    exact ⟨fun hall => absurd hexceeds (hall _ List.mem_cons_self), fun hle => absurd hle hmore⟩
  · obtain ⟨less, rfl⟩ : ∃ less : Limits, bound = less.more nesting := by
      obtain ⟨expression, statement⟩ := bound
      cases nesting with
      | expression => exact ⟨⟨expression - 1, statement⟩, by simp [more, of] at hzero ⊢; omega⟩
      | statement => exact ⟨⟨expression, statement - 1⟩, by simp [more, of] at hzero ⊢; omega⟩
    have hfirst : ¬ Opening.Exceeds ⟨nesting, token, 0⟩ (less.more nesting) := Nat.not_le.mpr
      (Nat.pos_of_ne_zero hzero)
    rw [Allow, List.forall_mem_cons, more_le_more, ← h less]
    exact (and_iff_right hfirst).trans (allow_map_deeper nesting)

end Limits

end Grammar

end Scriptlet
