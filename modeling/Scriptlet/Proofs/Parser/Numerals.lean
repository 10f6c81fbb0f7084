import Mathlib.Data.List.Induction
import Mathlib.Data.Nat.Digits.Defs
import Scriptlet.Proofs.Integer
import Scriptlet.Proofs.Parser.Attempts
import Scriptlet.Proofs.Parser.Nesting
import Scriptlet.Proofs.Token.Lossless

/-!
# Scripts that are a numeral

A script may consist of digits and nothing else, or of a minus sign and digits. The digits are one
token, and the sign is another: it is an operator that is applied to what the digits write. So it is
the number without its sign that has to fit in a word. If it does not, the digits are no expression,
and the statement that starts with them or with the sign is given up.

## Main definitions

* `decimal` — the number that digits write
* `Sign`, `Numeral` — numerals as they stand in a script
* `Numeral.ofWord` — how a word is written
* `Parse.Fails` — a read that fails at a token behind others

## Main results

* `Integer.read?_digits` — reading gives the number that the digits write, if it fits
* `Numeral.tokenize_text` — the tokens of a numeral
* `Numeral.yields` — what is read if the number fits
* `Numeral.program_tooLarge` — what is noted if it does not
-/

namespace Scriptlet

/-! ## Digits -/

/-- The number that digits write, the last of them counting the ones. -/
def decimal (digits : List Char) : Nat :=
  Nat.ofDigits 10 (digits.reverse.map fun c => c.toNat - '0'.toNat)

theorem decimal_concat (digits : List Char) (c : Char) :
    decimal (digits ++ [c]) = 10 * decimal digits + (c.toNat - '0'.toNat) := by
  rw [decimal, List.reverse_concat, List.map_cons, Nat.ofDigits_cons, Nat.add_comm]
  rfl

theorem ofDigitChars_eq_decimal (digits : List Char) :
    Nat.ofDigitChars 10 digits 0 = decimal digits := by
  induction digits using List.reverseRecOn with
  | nil => rfl
  | append_singleton front c ih =>
    rw [Nat.ofDigitChars_append, ih, decimal_concat]
    rfl

theorem decimal_toDigits (n : Nat) : decimal (Nat.toDigits 10 n) = n := by
  rw [← ofDigitChars_eq_decimal, Nat.ofDigitChars_toDigits (by decide) (by decide)]

namespace Integer

theorem readDigits?_digits {digits : List Char} (hne : digits ≠ [])
    (hdigits : ∀ c ∈ digits, c.isDigit = true) : readDigits? digits = some (decimal digits) := by
  rw [readDigits?, if_pos ⟨hne, List.all_eq_true.mpr hdigits⟩, ofDigitChars_eq_decimal]

/-- **Digits are read as the number that they write**, if a word holds it. -/
theorem read?_digits {digits : List Char} (hne : digits ≠ [])
    (hdigits : ∀ c ∈ digits, c.isDigit = true) :
    read? (String.ofList digits) = ofInt? (decimal digits) := by
  have hread := readDigits?_digits hne hdigits
  have hsign (c : Char) (more : List Char) (hc : digits = c :: more) : c.isDigit = true :=
    hdigits c (hc ▸ .head _)
  rw [read?, String.toList_ofList]
  unfold readNumeral?
  split
  · exact absurd (hsign '+' _ rfl) (by decide)
  · exact absurd (hsign '-' _ rfl) (by decide)
  · rw [hread]
    rfl

end Integer

/-! ## Numerals -/

/-- Whether a minus sign stands in front of digits. -/
inductive Sign where
  | plus
  | minus
deriving DecidableEq

namespace Sign

/-- The minus sign at the start of a script. -/
def operator : Token := ⟨.minus, "-", .start⟩

/-- How a sign is written. -/
def text : Sign → List Char
  | plus => []
  | minus => ['-']

/-- The tokens of a sign. -/
def tokens : Sign → List Token
  | plus => []
  | minus => [operator]

/-- The number with the sign. -/
def apply (sign : Sign) (z : Int) : Int :=
  match sign with
  | plus => z
  | minus => -z

/-- The expression with the sign. -/
def expr (sign : Sign) (number : Expr) : Expr :=
  match sign with
  | plus => number
  | minus => .unary operator number

end Sign

/-- A numeral as it stands in a script: digits, at least one, and maybe a sign. -/
structure Numeral where
  sign : Sign
  digits : List Char
  ne_nil : digits ≠ []
  isDigit : ∀ c ∈ digits, c.isDigit = true

namespace Numeral

/-- The script that is the numeral. -/
def text (numeral : Numeral) : String := String.ofList (numeral.sign.text ++ numeral.digits)

/-- The number that the digits write. -/
def size (numeral : Numeral) : Nat := decimal numeral.digits

/-- The number that the numeral writes. -/
def value (numeral : Numeral) : Int := numeral.sign.apply numeral.size

/-- The token of the digits. -/
def number (numeral : Numeral) : Token :=
  ⟨.number, String.ofList numeral.digits, Location.start.after numeral.sign.text⟩

/-- The tokens of the numeral. -/
def tokens (numeral : Numeral) : List Token := numeral.sign.tokens ++ [numeral.number]

/-- The error that the number without its sign does not fit in a word. -/
def tooLarge (numeral : Numeral) : ParseError :=
  ⟨.integerOutOfRange numeral.number.lexeme, numeral.number⟩

/-- How a word is written. -/
def ofWord (n : Int64) : Numeral where
  sign := if n.toInt < 0 then .minus else .plus
  digits := Nat.toDigits 10 n.toInt.natAbs
  ne_nil := Nat.toDigits_ne_nil
  isDigit _ hmem := Nat.isDigit_of_mem_toDigits (by decide) (by decide) hmem

theorem size_ofWord (n : Int64) : (ofWord n).size = n.toInt.natAbs := decimal_toDigits _

theorem value_ofWord (n : Int64) : (ofWord n).value = n.toInt := by
  rw [value, size_ofWord]
  unfold ofWord
  by_cases hneg : n.toInt < 0
  · rw [if_pos hneg, Sign.apply]
    omega
  · rw [if_neg hneg, Sign.apply]
    omega

/-- The decimal numeral of a word is a numeral in this sense. -/
theorem text_ofWord (n : Int64) : (ofWord n).text = Integer.text n := by
  apply String.toList_inj.mp
  rw [text, String.toList_ofList]
  show (if n.toInt < 0 then Sign.minus else .plus).text ++ Nat.toDigits 10 n.toInt.natAbs =
    (toString n.toInt).toList
  generalize n.toInt = z
  cases z with
  | ofNat m =>
    have hpos : ¬ Int.ofNat m < 0 := Int.not_lt.mpr (Int.natCast_nonneg m)
    show _ = m.repr.toList
    rw [if_neg hpos, Nat.toList_repr]
    rfl
  | negSucc m =>
    show _ = ("-" ++ m.succ.repr).toList
    rw [if_pos (by omega), String.toList_append, Nat.toList_repr]
    rfl

/-! ## Tokens -/

theorem spelled_digits (numeral : Numeral) : Spelled .number numeral.digits := by
  obtain ⟨sign, digits, hne, hdigits⟩ := numeral
  obtain ⟨c, more, rfl⟩ := List.exists_cons_of_ne_nil hne
  exact .number (hdigits c (.head _)) fun d hd => hdigits d (.tail _ hd)

theorem laid_number (numeral : Numeral) :
    Laid (Location.start.after numeral.sign.text) [⟨[], numeral.number⟩] [] := by
  refine .cons ⟨.empty _, ?_, TokenKind.apart_nil _⟩ rfl .nil
  rw [number, String.toList_ofList]
  exact numeral.spelled_digits

/-- **The digits of a numeral are one token**, and the sign is another. -/
theorem tokenize_text (numeral : Numeral) :
    ∃ place, tokenize numeral.text = .ok (numeral.tokens ++ [.endMark place]) := by
  have hdigits := numeral.laid_number
  have hnumber : itemsText [⟨[], numeral.number⟩] = numeral.digits := by
    simp [Item.text, Token.written, number, writing]
  obtain ⟨items, hlaid, htext, htokens⟩ : ∃ items, Laid .start items [] ∧
      itemsText items = numeral.sign.text ++ numeral.digits ∧
      items.map Item.token = numeral.tokens := by
    unfold tokens
    cases hsign : numeral.sign with
    | plus =>
      rw [hsign] at hdigits
      exact ⟨_, hdigits, hnumber, rfl⟩
    | minus =>
      rw [hsign] at hdigits
      have hminus : Spelled .minus ['-'] := .symbol (by decide)
      refine ⟨[⟨[], Sign.operator⟩, ⟨[], numeral.number⟩],
        .cons ⟨.empty _, hminus, ?_⟩ rfl hdigits, ?_, rfl⟩
      · exact fun c _ => rfl
      · rw [itemsText_cons, hnumber]
        rfl
  have hread := lexChars_end hlaid (.empty [])
  rw [List.append_nil, htext, htokens] at hread
  refine ⟨Location.start.after (numeral.sign.text ++ numeral.digits), ?_⟩
  rw [tokenize, lex, text, String.toList_ofList, hread]

/-! ## Numbers that fit -/

open Grammar

theorem literal?_number {numeral : Numeral} {n : Int64}
    (h : Integer.ofInt? numeral.size = some n) :
    numeral.number.literal? = some (.integer n) := by
  have hread := Integer.read?_digits numeral.ne_nil numeral.isDigit
  show (Integer.read? (String.ofList numeral.digits)).map Literal.integer = _
  rw [hread]
  exact congrArg (Option.map Literal.integer) h

/-- **A numeral is an expression** if a word holds the number without its sign. -/
theorem expression {numeral : Numeral} {n : Int64} (h : Integer.ofInt? numeral.size = some n) :
    ∃ openings, Expression numeral.tokens .endOfInput
        (numeral.sign.expr (.literal (.integer n))) openings ∧
      ∀ opening ∈ openings, opening.nesting = .expression ∧ opening.depth ≤ 1 := by
  have hprimary {inner : Phrase Expr} :
      Primary inner [numeral.number] .endOfInput (.literal (.integer n)) [] :=
    .literal (literal?_number h)
  unfold tokens
  cases numeral.sign with
  | plus =>
    exact ⟨_, ⟨1, @Deeper.intro _ _ _ numeral.number [] _ _ [] (.single hprimary (by simp))⟩,
      by simp⟩
  | minus =>
    have hoperand : OperandWithin 1 [numeral.number] .endOfInput (.literal (.integer n))
        [⟨.expression, numeral.number, 0⟩] :=
      @Deeper.intro _ _ _ numeral.number [] _ _ [] (.call (.single hprimary (by decide)))
    exact ⟨_, ⟨2, .intro (.alone (.operator (.inr rfl) hoperand) (by simp))⟩,
      by simp [Opening.deeper]⟩

theorem yields {numeral : Numeral} {n : Int64} (h : Integer.ofInt? numeral.size = some n)
    (place : Location) : Yields (numeral.tokens ++ [.endMark place])
      [.expression (numeral.sign.expr (.literal (.integer n)))] := by
  obtain ⟨openings, hexpression, hlevels⟩ := expression h
  have hprint : kindAhead numeral.tokens .endOfInput ≠ .kwPrint := by
    unfold tokens
    cases numeral.sign <;> exact nofun
  obtain ⟨first, hprogram⟩ := hexpression.program hprint
  refine (yields_iff_allow hprogram rfl).mpr fun opening hmem => ?_
  rcases List.mem_cons.mp hmem with rfl | hmem
  · exact Nat.not_le.mpr (by decide : 0 < maxStatementNesting)
  · obtain ⟨inner, hinner, rfl⟩ := List.mem_map.mp hmem
    obtain ⟨hnesting, hdepth⟩ := hlevels inner hinner
    have hsame : inner.deeper .statement = inner := by simp [Opening.deeper, hnesting]
    have hless : inner.depth < maxNesting := Nat.lt_of_le_of_lt hdepth (by decide)
    rw [hsame, Opening.Exceeds, hnesting]
    exact Nat.not_le.mpr hless

end Numeral

/-! ## Numbers that do not fit -/

namespace Parse

variable {α β : Type} {read : Parse α} {operand inner : Parse Expr} {front : List Token}
  {token : Token} {cause : ParseCause}

/-- A read that consumes some tokens, notes nothing, and fails at the token behind them. -/
def Fails (read : Parse α) (front : List Token) (token : Token) (cause : ParseCause) : Prop :=
  ∀ (parser : Parser) (rest : List Token), read (parser.facing (front ++ token :: rest)) =
    .error ⟨cause, token⟩ (parser.facing (token :: rest))

theorem Fails.bind (h : Fails read front token cause) (next : α → Parse β) :
    Fails (read >>= next) front token cause :=
  fun parser rest => bind_of_error (h parser rest)

theorem Fails.nested (h : Fails read front token cause) :
    Fails (nested read) front token cause := by
  intro parser rest
  let start := parser.facing (front ++ token :: rest)
  have hread : read { start with depth := start.depth + 1 } = _ :=
    h { parser with depth := parser.depth + 1 } rest
  exact nested_of_error hread

theorem Fails.climb (h : Fails operand front token cause) (levels : List Level) :
    Fails (climb operand levels) front token cause := by
  induction levels with
  | nil => exact h
  | cons level tighter ih => exact ih.bind _

theorem Fails.assignment (h : Fails (unary operand inner) front token cause) :
    Fails (assignment operand inner) front token cause := (h.climb levels).bind _

/-- Digits are no expression if the number does not fit in a word. -/
theorem fails_unary (hkind : token.kind = .number) (hread : Integer.read? token.lexeme = none) :
    Fails (unary operand inner) [] token (.integerOutOfRange token.lexeme) := by
  have hprimary : Fails (primary inner) [] token (.integerOutOfRange token.lexeme) := by
    intro parser rest
    rw [List.nil_append, primary, bind_of_ok (current_facing_cons parser rest token)]
    simp only [hkind, hread]
    rfl
  intro parser rest
  have hnone := @acceptIf_facing_none parser (token :: rest) [TokenKind.kwNot, .minus].contains
    (by rw [kindAhead_cons, hkind]; rfl)
  rw [List.nil_append, unary, bind_of_ok hnone]
  exact hprimary.bind _ parser rest

theorem Fails.unary (h : Fails operand front token cause) {operator : Token}
    (hkind : operator.kind = .minus) :
    Fails (unary operand inner) (operator :: front) token cause := by
  intro parser rest
  have hsome := @acceptIf_facing parser (front ++ token :: rest)
    [TokenKind.kwNot, .minus].contains operator (by rw [hkind]; decide) (by rw [hkind]; rfl)
  rw [List.cons_append, Parse.unary, bind_of_ok hsome]
  exact h.bind _ parser rest

/-- A statement that starts as an expression fails where the expression does. -/
theorem attempt_of_fails (h : Fails (expressionWithin maxNesting) front token cause)
    (hform : ¬ HasForm (kindAhead front token.kind))
    (hfunction : kindAhead front token.kind ≠ .kwFunction) {parser : Parser}
    (hdepth : parser.depth = 0) (hstatements : parser.statementDepth = 0) (rest : List Token) :
    attempt (parser.facing (front ++ token :: rest)) =
      .error ⟨cause, token⟩ (parser.facing (token :: rest)) := by
  have hahead : kindAhead (front ++ token :: rest) .endOfInput = kindAhead front token.kind :=
    kindAhead_append _ _ _
  let start := parser.facing (front ++ token :: rest)
  let inside := { start with statementDepth := start.statementDepth + 1 }
  have hexpression : expression inside = .error ⟨cause, token⟩
      ({ parser with statementDepth := parser.statementDepth + 1 }.facing (token :: rest)) := by
    rw [expression, show inside.depth = 0 from hdepth]
    exact h { parser with statementDepth := parser.statementDepth + 1 } rest
  have hinside (statement declaration : Parse Stmt) :
      statementForm statement declaration inside = .error ⟨cause, token⟩
        ({ parser with statementDepth := parser.statementDepth + 1 }.facing (token :: rest)) := by
    have hcurrent : inside.current.kind = kindAhead front token.kind :=
      (Parser.current_kind inside).trans hahead
    rw [statementForm_eq_expression _ _ inside (by rwa [hcurrent])]
    exact bind_of_error hexpression
  rw [attempt, bind_of_ok (accept_facing_none parser _ (by rwa [hahead]))]
  show statement start = _
  rw [statement, show start.statementDepth = 0 from hstatements]
  exact nestedStatement_of_error (hinside _ _)

/-- A script that is given up as a whole is read as a placeholder. -/
theorem program_of_attempt {start stop : Parser} {error : ParseError} {mark : Token}
    (hstart : start.atEnd = false) (h : attempt start = .error error stop)
    (hmild : error.isFatal = false) (hskip : skipTokens stop.rest = [mark])
    (hmark : mark.kind = .endOfInput) :
    program start = .ok [.placeholder] { stop.report error with rest := [mark] } := by
  have hdeclaration : declaration start =
      .ok .placeholder { stop.report error with rest := [mark] } := by
    rw [declaration_eq, recovering_of_mild h hmild, hskip]
  obtain ⟨first, rest, hrest⟩ : ∃ first rest, start.rest = first :: rest := by
    cases hrest : start.rest with
    | nil => simp [Parser.atEnd, Parser.current, hrest, Token.endMark] at hstart
    | cons first rest => exact ⟨first, rest, rfl⟩
  have hrounds : rounds start = .ok (start.current :: first :: rest) start := by
    rw [rounds, hrest]
  have hend : Parser.atEnd { stop.report error with rest := [mark] } = true := decide_eq_true hmark
  have hbody : repeated programTurn #[] start =
      .ok #[.placeholder] { stop.report error with rest := [mark] } := by
    rw [repeated, bind_of_ok hrounds, repeating_of_declaration hstart hdeclaration, repeating,
      bind_of_ok (programTurn_of_atEnd hend _)]
    rfl
  rw [program_eq, bind_of_ok hbody]
  rfl

end Parse

namespace Numeral

open Parse

theorem fails {numeral : Numeral} (h : Integer.ofInt? numeral.size = none) :
    Fails (expressionWithin maxNesting) numeral.sign.tokens numeral.number
      numeral.tooLarge.cause := by
  have hread : Integer.read? numeral.number.lexeme = none :=
    (Integer.read?_digits numeral.ne_nil numeral.isDigit).trans h
  cases numeral.sign with
  | plus => exact (fails_unary rfl hread).assignment.nested
  | minus => exact ((fails_unary rfl hread).nested.unary rfl).assignment.nested

/-- **A numeral is given up** if no word holds the number without its sign. The digits are to
blame. -/
theorem program_tooLarge {numeral : Numeral} (h : Integer.ofInt? numeral.size = none)
    (place : Location) :
    Parse.program (.ofTokens (numeral.tokens ++ [.endMark place])) =
      .ok [.placeholder] ⟨[.endMark place], #[numeral.tooLarge], 0, 0⟩ := by
  have htokens : Parser.ofTokens (numeral.tokens ++ [.endMark place]) =
      Parser.facing ⟨[], #[], 0, 0⟩
        (numeral.sign.tokens ++ numeral.number :: [.endMark place]) := by
    simp [Parser.ofTokens, Parser.facing, tokens, Token.endMark]
  obtain ⟨hform, hfunction, hend⟩ :
      ¬ HasForm (kindAhead numeral.sign.tokens .number) ∧
        kindAhead numeral.sign.tokens .number ≠ .kwFunction ∧
        kindAhead numeral.sign.tokens .number ≠ .endOfInput := by
    cases numeral.sign <;> decide
  have hattempt := @attempt_of_fails _ _ _ (fails h) hform hfunction ⟨[], #[], 0, 0⟩ rfl rfl
    [.endMark place]
  rw [htokens]
  refine program_of_attempt (decide_eq_false ?_) hattempt rfl rfl rfl
  rwa [Parser.current_kind_facing, kindAhead_append]

end Numeral

end Scriptlet
