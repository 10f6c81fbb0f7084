import Mathlib.Algebra.Ring.Int.Defs
import Scriptlet.Proofs.Parser.Numerals
import Scriptlet.Proofs.Session.Arithmetic
import Scriptlet.Proofs.Session.Layout
import Scriptlet.Proofs.Terminal.Reliable

/-!
# Numerals run as scripts

A script that is a numeral comes to the number that it writes, however long it is and whatever it
starts with. In particular the text of an integer comes to that integer again. There is one
exception: the least integer has no counterpart with the other sign, so the digits behind its sign
write a number that fits in no word, and its text is not read.

## Main definitions

* `Action.Tells` — an action that only writes to the terminal
* `Session.Leaves` — a run that comes to a last value

## Main results

* `Session.leaves_of_expression` — scripts that are one expression
* `Numeral.leaves`, `Numeral.leaves_tooLarge` — scripts that are a numeral
* `numerals_round_trip` — digits, and the texts of all integers
-/

namespace Scriptlet

open Scriptlet.Action

namespace Action

/-! ## Writing to the terminal -/

/-- How an action ends that only writes: it is done, or the terminal fails. -/
inductive Told (session : Session) : EStateM.Result Stop Session Unit → Prop
  | done {after : Session} (hvalue : after.lastValue = session.lastValue)
      (hreliable : session.terminal.reliable = true → after.terminal.reliable = true) :
      Told session (.ok () after)
  | failed {error : IoError} {after : Session} (hvalue : after.lastValue = session.lastValue)
      (hreliable : session.terminal.reliable = false) :
      Told session (.error (.fault ⟨.io error, .unknown⟩) after)

/-- An action that only writes to the terminal. -/
def Tells (action : Action Unit) : Prop := ∀ session, Told session (action session)

theorem tells_pure : Tells (pure ()) := fun _ => .done rfl id

theorem Tells.bind {action next : Action Unit} (h : Tells action) (hnext : Tells next) :
    Tells (action >>= fun _ => next) := by
  intro session
  have hfirst := h session
  generalize haction : action session = outcome at hfirst
  cases hfirst with
  | failed hvalue hreliable =>
    rw [bind_of_error haction]
    exact .failed hvalue hreliable
  | @done middle hvalue hreliable =>
    rw [bind_of_ok haction]
    have hsecond := hnext middle
    generalize next middle = outcome at hsecond
    cases hsecond with
    | done hlater hstill => exact .done (hlater.trans hvalue) (hstill ∘ hreliable)
    | failed hlater hbroken =>
      refine .failed (hlater.trans hvalue) (Bool.eq_false_iff.mpr fun htrue => ?_)
      exact absurd (hreliable htrue) (Bool.eq_false_iff.mp hbroken)

theorem tells_onTerminal {action : EStateM IoError Terminal Unit}
    (h : ∀ terminal : Terminal, terminal.reliable = true →
      ∃ after, action terminal = .ok () after ∧ after.reliable = true) :
    Tells (onTerminal .unknown action) := by
  intro session
  have hend := h session.terminal
  unfold onTerminal
  generalize action session.terminal = outcome at hend
  cases outcome with
  | ok result after =>
    refine .done rfl fun htrue => ?_
    obtain ⟨_, hsame, hreliable⟩ := hend htrue
    cases hsame
    exact hreliable
  | error error after =>
    refine .failed rfl (Bool.eq_false_iff.mpr fun htrue => ?_)
    obtain ⟨_, hsame, _⟩ := hend htrue
    cases hsame

theorem tells_writeLine (text : String) :
    Tells (onTerminal .unknown (Terminal.writeLine text)) := by
  refine tells_onTerminal fun terminal hreliable => ?_
  obtain ⟨after, hwrite, htakes⟩ := Terminal.writeLine_takes text hreliable
  exact ⟨after, hwrite, htakes.reliable.trans hreliable⟩

theorem tells_flush : Tells (onTerminal .unknown Terminal.flush) :=
  tells_onTerminal fun terminal hreliable =>
    ⟨terminal, Terminal.flush_reliable hreliable, hreliable⟩

theorem tells_echo (stmt : Stmt) : Tells (echo stmt) := by
  intro session
  cases stmt with
  | expression expr =>
    have hecho : echo (.expression expr) session =
        (if session.options.dump = true then
          onTerminal .unknown (Terminal.writeLine (">> " ++ session.lastValue.text))
        else pure () : Action Unit) session := rfl
    rw [hecho]
    by_cases hdump : session.options.dump = true
    · rw [if_pos hdump]
      exact tells_writeLine _ session
    · rw [if_neg hdump]
      exact tells_pure session
  | _ => exact tells_pure session

/-! ## Scripts of one expression -/

variable {steps : Nat} {expr : Expr} {value : Value} {session : Session}

/-- An expression at the top of a script makes its value the last one, and then there is only
something to be written. -/
theorem interpret_expression (h : eval steps expr session = .ok value session) :
    interpret (steps + 1) [.expression expr] session =
      (do echo (.expression expr); onTerminal .unknown Terminal.flush : Action Unit)
        { session with lastValue := value } := by
  have hexec : exec (steps + 1) (.expression expr) session =
      .ok .normal { session with lastValue := value } := by
    show (do remember (← eval steps expr); return Flow.normal : Action Flow) session = _
    rw [bind_of_ok h]
    rfl
  rw [interpret, execTop, bind_assoc, bind_of_ok hexec, bind_assoc]
  rfl

end Action

/-- How a run ends that comes to a value and goes on after some errors in the script. If something
fails on the terminal, it is reported that it did. -/
structure Session.Leaves (terminal : Terminal) (noted : List ParseError) (value : Value)
    (result : RunResult) : Prop where
  /-- The value is the last one. -/
  lastValue : result.after.lastValue = value
  /-- The errors are the answer. -/
  answer : result.answer = .ok noted ∨ terminal.reliable = false ∧
    ∃ error, result.answer = .error (.stop (.fault ⟨.io error, .unknown⟩))

/-- **A script that is one expression** comes to the value of the expression. -/
theorem Session.leaves_of_expression {steps : Nat} {source : String} {tokens : List Token}
    {expr : Expr} {stop : Parser} {value : Value} {session : Session}
    (htokens : tokenize source = .ok tokens)
    (hprogram : Parse.program (.ofTokens tokens) = .ok [.expression expr] stop)
    (heval : eval steps expr session = .ok value session) :
    Leaves session.terminal stop.diagnostics.toList value (run (steps + 1) source session) := by
  have hsource := Parser.ofSource_of_ok htokens
  have htold := (tells_echo (.expression expr)).bind tells_flush
    { session with lastValue := value }
  have hinterpret := interpret_expression heval
  generalize (do echo (.expression expr); onTerminal .unknown Terminal.flush : Action Unit)
    { session with lastValue := value } = outcome at htold hinterpret
  cases htold with
  | done hvalue _ =>
    rw [run_of_ok hsource hprogram hinterpret]
    exact ⟨hvalue, .inl rfl⟩
  | failed hvalue hreliable =>
    rw [run_of_stop hsource hprogram hinterpret]
    exact ⟨hvalue, .inr ⟨hreliable, _, rfl⟩⟩

/-! ## Numerals -/

namespace Numeral

variable {numeral : Numeral} {steps : Nat}

/-- A sign in front of a number that fits in a word is applied to it. -/
theorem eval_expr {n m : Int64} (hn : n.toInt = numeral.size) (hm : m.toInt = numeral.value)
    (steps : Nat) (session : Session) :
    eval (steps + 2) (numeral.sign.expr (.literal (.integer n))) session =
      .ok (.integer m) session := by
  rw [value, ← hn] at hm
  cases hsign : numeral.sign with
  | plus =>
    rw [hsign] at hm
    have hsame : m = n := Int64.toInt_inj.mp hm
    rw [hsame]
    rfl
  | minus =>
    rw [hsign] at hm
    have hneg : Integer.neg? n = some m := by
      rw [Integer.neg?, ← show m.toInt = -n.toInt from hm, Integer.ofInt?_toInt]
    show ofExcept Location.start (Value.unary Sign.operator (.integer n)) session = _
    show ofExcept Location.start (Value.orOverflow _ (Integer.neg? n)) session = _
    rw [hneg]
    rfl

/-- **A numeral runs to the number that it writes** if the number without the sign fits in a
word. -/
theorem leaves (hsteps : 3 ≤ steps) (hsize : numeral.size < 2 ^ 63) {m : Int64}
    (hm : m.toInt = numeral.value) (session : Session) :
    Session.Leaves session.terminal [] (.integer m) (Session.run steps numeral.text session) := by
  obtain ⟨more, rfl⟩ := Nat.exists_eq_add_of_le' hsteps
  have hfits : Integer.Fits numeral.size := Integer.fits_iff.mpr (by omega)
  obtain ⟨n, hn⟩ := Integer.exists_toInt_iff.mpr hfits
  obtain ⟨place, htokens⟩ := numeral.tokenize_text
  have hword : Integer.ofInt? numeral.size = some n := by rw [← hn, Integer.ofInt?_toInt]
  obtain ⟨stop, hprogram, hquiet⟩ := yields hword place
  have hleaves := Session.leaves_of_expression htokens hprogram (eval_expr hn hm more session)
  rwa [hquiet] at hleaves

/-- **A numeral is reported and comes to nothing** if the number without the sign does not fit. -/
theorem leaves_tooLarge (hsteps : 3 ≤ steps) (hsize : 2 ^ 63 ≤ numeral.size) (session : Session) :
    Session.Leaves session.terminal [numeral.tooLarge] .absent
      (Session.run steps numeral.text session) := by
  obtain ⟨more, rfl⟩ := Nat.exists_eq_add_of_le' hsteps
  have hfits : ¬ Integer.Fits numeral.size := fun h => by
    have hless := (Integer.fits_iff.mp h).2
    omega
  obtain ⟨place, htokens⟩ := numeral.tokenize_text
  have hprogram := program_tooLarge (Integer.ofInt?_of_not_fits hfits) place
  have heval : eval (more + 2) (.literal .absent) session = .ok .absent session := rfl
  exact Session.leaves_of_expression htokens hprogram heval

end Numeral

/-- **Integers are written as they are read.** Three steps are enough, in every session and so in a
new one. A script of digits comes to the number that they write and nothing is reported, if the
number fits in a word; otherwise exactly that is reported, and there is no last value. The text of
every integer but the least comes to that integer. The text of the least one is reported, for the
digits behind the sign. -/
theorem numerals_round_trip {steps : Nat} (hsteps : 3 ≤ steps) (session : Session) :
    (∀ digits : String, digits ≠ "" → (∀ c ∈ digits.toList, c.isDigit = true) →
      (decimal digits.toList < 2 ^ 63 → ∃ n : Int64, n.toInt = decimal digits.toList ∧
        Session.Leaves session.terminal [] (.integer n) (Session.run steps digits session)) ∧
      (2 ^ 63 ≤ decimal digits.toList → Session.Leaves session.terminal
        [⟨.integerOutOfRange digits, ⟨.number, digits, ⟨1, 1⟩⟩⟩] .absent
        (Session.run steps digits session))) ∧
    (∀ n : Int64, n ≠ Int64.minValue → Session.Leaves session.terminal [] (.integer n)
      (Session.run steps (Value.integer n).text session)) ∧
    Session.Leaves session.terminal [⟨.integerOutOfRange "9223372036854775808",
        ⟨.number, "9223372036854775808", ⟨1, 2⟩⟩⟩] .absent
      (Session.run steps (Value.integer Int64.minValue).text session) := by
  refine ⟨fun digits hne hdigits => ?_, fun n hn => ?_, ?_⟩
  · let numeral : Numeral := ⟨.plus, digits.toList, mt String.toList_eq_nil_iff.mp hne, hdigits⟩
    have htext : numeral.text = digits := String.ofList_toList
    have hlexeme : numeral.number = ⟨.number, digits, ⟨1, 1⟩⟩ :=
      congrArg (Token.mk .number · ⟨1, 1⟩) String.ofList_toList
    constructor
    · intro hsize
      obtain ⟨n, hn⟩ := Integer.exists_toInt_iff.mpr (Integer.fits_iff.mpr
        (show -2 ^ 63 ≤ (decimal digits.toList : Int) ∧ (decimal digits.toList : Int) < 2 ^ 63 by
          omega))
      have hleaves := numeral.leaves hsteps hsize hn session
      rw [htext] at hleaves
      exact ⟨n, hn, hleaves⟩
    · intro hsize
      have hleaves := numeral.leaves_tooLarge hsteps hsize session
      rwa [htext, Numeral.tooLarge, hlexeme] at hleaves
  · have hmin : Int64.minValue.toInt = -2 ^ 63 := by decide
    have hne : n.toInt ≠ -2 ^ 63 := fun h => hn (Int64.toInt_inj.mp (h.trans hmin.symm))
    have hsize : (Numeral.ofWord n).size < 2 ^ 63 := by
      have hfits := Integer.fits_iff.mp (Integer.fits_toInt n)
      rw [Numeral.size_ofWord]
      omega
    have hleaves := Numeral.leaves hsteps hsize (Numeral.value_ofWord n).symm session
    rwa [Numeral.text_ofWord] at hleaves
  · have hsize : 2 ^ 63 ≤ (Numeral.ofWord Int64.minValue).size := by
      rw [Numeral.size_ofWord]
      decide
    have hleaves := Numeral.leaves_tooLarge hsteps hsize session
    have herror : (Numeral.ofWord Int64.minValue).tooLarge =
        ⟨.integerOutOfRange "9223372036854775808",
          ⟨.number, "9223372036854775808", ⟨1, 2⟩⟩⟩ := by decide +kernel
    rwa [Numeral.text_ofWord, herror] at hleaves

namespace Sample

/-- Zeros in front change nothing, neither for a number that fits nor for the least one that does
not. The least integer but one comes back. -/
theorem padded_round_trip :
    let session := Session.start {} {}
    (∃ n : Int64, n.toInt = 7 ∧
      Session.Leaves session.terminal [] (.integer n) (Session.run 3 "007" session)) ∧
    Session.Leaves session.terminal
      [⟨.integerOutOfRange "09223372036854775808", ⟨.number, "09223372036854775808", ⟨1, 1⟩⟩⟩]
      .absent (Session.run 3 "09223372036854775808" session) ∧
    Session.Leaves session.terminal [] (.integer (-9223372036854775807))
      (Session.run 3 "-9223372036854775807" session) := by
  intro session
  obtain ⟨hdigits, hwords, -⟩ := numerals_round_trip (Nat.le_refl 3) session
  have hseven : decimal "007".toList = 7 := by decide +kernel
  have hlarge : decimal "09223372036854775808".toList = 2 ^ 63 := by decide +kernel
  have htext : (Value.integer (-9223372036854775807)).text = "-9223372036854775807" := by
    decide +kernel
  refine ⟨?_, ?_, ?_⟩
  · have hall : "007".toList.all Char.isDigit = true := by decide +kernel
    obtain ⟨n, hn, hleaves⟩ :=
      (hdigits "007" (by decide) (List.all_eq_true.mp hall)).1 (by rw [hseven]; decide)
    exact ⟨n, by rw [hn, hseven]; rfl, hleaves⟩
  · have hall : "09223372036854775808".toList.all Char.isDigit = true := by decide +kernel
    exact (hdigits _ (by decide) (List.all_eq_true.mp hall)).2 (Nat.le_of_eq hlarge.symm)
  · have hleaves := hwords (-9223372036854775807) (by decide)
    rwa [htext] at hleaves

end Sample

end Scriptlet
