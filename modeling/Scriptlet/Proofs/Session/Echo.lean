import Scriptlet.Proofs.Session.Terminals
import Scriptlet.Proofs.Terminal.Reliable

/-!
# Showing values changes nothing else

A session may show the value of each expression statement at the top of a script. To see that this
adds lines to the output and does nothing else, a session that shows values is run beside one that
does not. Each statement is executed alike by both, because nothing that was written can be read
again, and it sends the same bytes. Between the statements the one session adds a line, and the last
value, from which that line is made, is the value of the statement.

## Main definitions

* `Session.showing` — a session that shows values, or does not
* `Passage`, `Action.passages` — what each statement at the top of a script sends, and its value
* `Session.Mirrors`, `SameOutcome` — sessions and outcomes that differ in what is shown only

## Main results

* `Action.exec_beside` — a statement is executed alike by both sessions
* `Action.interpret_showing` — showing values adds a line behind each expression statement
-/

namespace Scriptlet

open Scriptlet.Action

/-- The session, which shows values or does not. -/
def Session.showing (session : Session) (dump : Bool) : Session :=
  { session with options := { session.options with dump } }

/-! ## What is sent by the statements at the top -/

/-- What a statement at the top of a script leaves behind on a sink. -/
structure Passage where
  /-- The bytes that were sent while it was executed. -/
  bytes : List UInt8
  /-- The value, if the statement is an expression and was executed to its end. -/
  value? : Option Value

/-- The line that shows a value. -/
def echoLine (value : Value) : String := ">> " ++ value.text ++ "\n"

/-- The bytes of a statement, and behind them the line that shows its value if it has one. -/
def Passage.shown (passage : Passage) : List UInt8 :=
  passage.bytes ++ (passage.value?.map fun value => textBytes (echoLine value)).getD []

namespace Action

/-- The value of a statement that is an expression, if it has one. -/
def statementValue? (steps : Nat) : Stmt → Session → Option Value
  | .expression expr, session =>
    match eval (steps - 1) expr session with
    | .ok value _ => some value
    | .error _ _ => none
  | _, _ => none

/-- What each statement at the top of a script leaves behind, up to the first that fails. -/
def passages (steps : Nat) : List Stmt → Session → List Passage
  | [], _ => []
  | stmt :: rest, session =>
    let sentSince (after : Session) := after.terminal.sent.drop session.terminal.sent.length
    match exec steps stmt session with
    | .ok _ after =>
      ⟨sentSince after, statementValue? steps stmt session⟩ :: passages steps rest after
    | .error _ after => [⟨sentSince after, none⟩]

variable {steps : Nat} {stmt : Stmt} {session after : Session}

theorem passages_of_ok {flow : Flow} (rest : List Stmt)
    (h : exec steps stmt session = .ok flow after) :
    passages steps (stmt :: rest) session =
      ⟨after.terminal.sent.drop session.terminal.sent.length,
        statementValue? steps stmt session⟩ :: passages steps rest after := by
  rw [passages, h]

theorem passages_of_error {stop : Stop} (rest : List Stmt)
    (h : exec steps stmt session = .error stop after) :
    passages steps (stmt :: rest) session =
      [⟨after.terminal.sent.drop session.terminal.sent.length, none⟩] := by
  rw [passages, h]

/-- When an expression statement was executed to its end, the last value is the value of the
expression. -/
theorem statementValue?_expression {expr : Expr} {flow : Flow}
    (h : exec steps (.expression expr) session = .ok flow after) :
    statementValue? steps (.expression expr) session = some after.lastValue := by
  cases steps with
  | zero => cases h
  | succ steps =>
    obtain ⟨value, middle, hvalue, hrest⟩ := ok_of_bind h
    cases hrest
    rw [statementValue?, Nat.add_sub_cancel, hvalue]

end Action

/-! ## Sessions side by side -/

/-- Sessions that agree in everything a script can come across: all but what was written, and
whether values are shown. -/
structure Session.Mirrors (session other : Session) : Prop where
  store : session.store = other.store
  globals : session.globals = other.globals
  scope : session.scope = other.scope
  lastValue : session.lastValue = other.lastValue
  callDepth : session.callDepth = other.callDepth
  functions : session.functions = other.functions
  maxCallDepth : session.options.maxCallDepth = other.options.maxCallDepth
  input : session.terminal.input = other.terminal.input

/-- Two runs both end, or both stop for the same reason, and leave sessions behind that agree in
everything a script can come across. -/
inductive SameOutcome :
    EStateM.Result Stop Session Unit → EStateM.Result Stop Session Unit → Prop
  | ok {after after' : Session} : after.Mirrors after' →
      SameOutcome (.ok () after) (.ok () after')
  | error {stop : Stop} {after after' : Session} : after.Mirrors after' →
      SameOutcome (.error stop after) (.error stop after')

/-- Terminals of one kind with the same input. Since given moments, both have sent the same bytes if
they send any. -/
structure Terminal.Abreast (streaming : Bool) (base base' : List UInt8)
    (terminal other : Terminal) : Prop where
  reliable : terminal.reliable = true
  reliable' : other.reliable = true
  streams : terminal.streams = streaming
  streams' : other.streams = streaming
  input : terminal.input = other.input
  sent : streaming = true →
    ∃ bytes, terminal.sent = base ++ bytes ∧ other.sent = base' ++ bytes

namespace Terminal

variable {streaming : Bool} {base base' : List UInt8} {terminal other : Terminal}

theorem Abreast.takes (h : Abreast streaming base base' terminal other) {bytes : List UInt8}
    {after after' : Terminal} (hafter : Takes bytes terminal after)
    (hafter' : Takes bytes other after') : Abreast streaming base base' after after' where
  reliable := hafter.reliable.trans h.reliable
  reliable' := hafter'.reliable.trans h.reliable'
  streams := hafter.streams.trans h.streams
  streams' := hafter'.streams.trans h.streams'
  input := by rw [hafter.input, hafter'.input, h.input]
  sent := by
    intro hstreaming
    obtain ⟨earlier, hsent, hsent'⟩ := h.sent hstreaming
    refine ⟨earlier ++ bytes, ?_, ?_⟩
    · rw [hafter.sent (h.streams.trans hstreaming), hsent, List.append_assoc]
    · rw [hafter'.sent (h.streams'.trans hstreaming), hsent', List.append_assoc]

/-- A session and one that shows values, on terminals that have sent the same since given
moments. -/
def abreast (streaming : Bool) (base base' : List UInt8) : Pairing where
  terminals := Abreast streaming base base'
  dumps dump dump' := dump = false ∧ dump' = true
  excused _ := False

theorem Abreast.ends (h : Abreast streaming base base' terminal other)
    {action : EStateM IoError Terminal Unit} {bytes : List UInt8}
    (haction : ∀ {terminal : Terminal}, terminal.reliable = true →
      ∃ after, action terminal = .ok () after ∧ Takes bytes terminal after) :
    (abreast streaming base base').Ends (action terminal) (action other) := by
  obtain ⟨after, hend, htakes⟩ := haction h.reliable
  obtain ⟨after', hend', htakes'⟩ := haction h.reliable'
  rw [hend, hend']
  exact .ok (h.takes htakes htakes')

/-- What is read is decided by the input. Only the echo on a captured screen depends on what was
written. -/
theorem Abreast.readLine (h : Abreast streaming base base' terminal other) :
    (abreast streaming base base').Ends (readLine terminal) (readLine other) := by
  obtain ⟨output, input⟩ := terminal
  obtain ⟨output', _⟩ := other
  obtain ⟨hreliable, hreliable', hstreams, hstreams', rfl, hsent⟩ := h
  have hkeeps (input : LineSource) :
      Abreast streaming base base' ⟨output, input⟩ ⟨output', input⟩ :=
    ⟨hreliable, hreliable', hstreams, hstreams', rfl, hsent⟩
  unfold Terminal.readLine
  cases LineSource.readLine input with
  | error error rest => exact .error (hkeeps rest)
  | ok line? rest =>
    cases line? with
    | none => exact .ok (hkeeps rest)
    | some line =>
      subst hstreams
      cases output <;> cases output'
      case captured.captured => exact .ok ⟨rfl, rfl, rfl, rfl, rfl, nofun⟩
      case stream.stream => exact .ok (hkeeps rest)
      all_goals cases hstreams'

theorem abreast_lawful (streaming : Bool) (base base' : List UInt8) :
    (abreast streaming base base').Lawful where
  writeLine text h := h.ends (writeLine_takes text)
  writeLineQuietly := by
    intro terminal other text h
    obtain ⟨after, hend, htakes⟩ := writeLine_takes text h.reliable
    obtain ⟨after', hend', htakes'⟩ := writeLine_takes text h.reliable'
    rw [stateAfter, stateAfter, hend, hend']
    exact h.takes htakes htakes'
  writePrompt text h := h.ends (writePrompt_takes text)
  readLine h := h.readLine

end Terminal

/-- A session and one that shows values, on terminals of one kind. They agree in everything a script
can come across, and have sent given bytes if they send any. -/
structure Session.Beside (streaming : Bool) (sent sent' : List UInt8) (session other : Session) :
    Prop where
  mirrors : session.Mirrors other
  reliable : session.terminal.reliable = true
  reliable' : other.terminal.reliable = true
  streams : session.terminal.streams = streaming
  streams' : other.terminal.streams = streaming
  silent : session.options.dump = false
  shows : other.options.dump = true
  sent : streaming = true → session.terminal.sent = sent ∧ other.terminal.sent = sent'

/-- Two runs end alike, in sessions side by side. -/
inductive EndBeside {α : Type} (streaming : Bool) (sent sent' : List UInt8) :
    EStateM.Result Stop Session α → EStateM.Result Stop Session α → Prop
  | ok {result result' : α} {after after' : Session} : after.Beside streaming sent sent' after' →
      EndBeside streaming sent sent' (.ok result after) (.ok result' after')
  | error {stop : Stop} {after after' : Session} : after.Beside streaming sent sent' after' →
      EndBeside streaming sent sent' (.error stop after) (.error stop after')

variable {streaming : Bool} {sent sent' : List UInt8} {session other : Session}

namespace Session.Beside

/-- Sessions side by side differ in their terminals only, on which nothing new was sent yet. -/
theorem sessions (h : session.Beside streaming sent sent' other) :
    (Terminal.abreast streaming sent sent').Sessions session other where
  terminals := by
    refine ⟨h.reliable, h.reliable', h.streams, h.streams', h.mirrors.input, ?_⟩
    intro hstreaming
    refine ⟨[], ?_⟩
    rw [List.append_nil, List.append_nil]
    exact h.sent hstreaming
  dumps := ⟨h.silent, h.shows⟩
  limit := h.mirrors.maxCallDepth
  store := h.mirrors.store
  globals := h.mirrors.globals
  lastValue := h.mirrors.lastValue
  callDepth := h.mirrors.callDepth
  functions := h.mirrors.functions

/-- Sessions that a statement leaves behind are side by side again: both have sent what was sent
before, and behind it the same bytes. -/
theorem later (h : session.Beside streaming sent sent' other) {after after' : Session}
    (hafter : (Terminal.abreast streaming sent sent').likeness.Later () session other () after
      after') :
    after.Beside streaming (sent ++ after.terminal.sent.drop session.terminal.sent.length)
      (sent' ++ after.terminal.sent.drop session.terminal.sent.length) after' where
  mirrors := ⟨hafter.sessions.store, hafter.sessions.globals,
    by rw [hafter.scope, hafter.scope', h.mirrors.scope], hafter.sessions.lastValue,
    hafter.sessions.callDepth, hafter.sessions.functions, hafter.sessions.limit,
    hafter.sessions.terminals.input⟩
  reliable := hafter.sessions.terminals.reliable
  reliable' := hafter.sessions.terminals.reliable'
  streams := hafter.sessions.terminals.streams
  streams' := hafter.sessions.terminals.streams'
  silent := hafter.sessions.dumps.1
  shows := hafter.sessions.dumps.2
  sent := by
    intro hstreaming
    obtain ⟨bytes, hbytes, hbytes'⟩ := hafter.sessions.terminals.sent hstreaming
    rw [(h.sent hstreaming).1, hbytes, hbytes', List.drop_left]
    exact ⟨rfl, rfl⟩

end Session.Beside

namespace Action

/-- **A statement is executed alike** by a session that shows values, and sends the same bytes. -/
theorem exec_beside (steps : Nat) (stmt : Stmt) (h : session.Beside streaming sent sent' other) :
    EndBeside streaming
      (sent ++ (stateAfter (exec steps stmt) session).terminal.sent.drop
        session.terminal.sent.length)
      (sent' ++ (stateAfter (exec steps stmt) session).terminal.sent.drop
        session.terminal.sent.length)
      (exec steps stmt session) (exec steps stmt other) := by
  have hlaw := (Terminal.abreast_lawful streaming sent sent').likeness
  have hexec : (Terminal.abreast streaming sent sent').likeness.Alike True ()
      (Terminal.abreast streaming sent sent').likeness.Flows (exec steps stmt) (exec steps stmt) :=
    (hlaw.steps (.inl rfl)).2 rfl
  have houtcomes := hexec h.sessions fun _ => h.mirrors.scope
  unfold stateAfter
  generalize exec steps stmt session = outcome, exec steps stmt other = outcome' at houtcomes ⊢
  cases houtcomes with
  | ok hlater _ => exact .ok (h.later hlater)
  | error hlater hstops =>
    cases hstops
    exact .error (h.later hlater)
  | excused hexcused => exact hexcused.elim

/-! ## Between the statements -/

theorem echo_expression (expr : Expr) (session : Session) :
    echo (.expression expr) session =
      if session.options.dump then
        onTerminal .unknown (Terminal.writeLine (">> " ++ session.lastValue.text)) session
      else .ok () session := by
  by_cases h : session.options.dump = true
  · rw [if_pos h]
    exact congrFun (if_pos h) session
  · rw [if_neg h]
    exact congrFun (if_neg h) session

/-- Behind every other statement nothing is shown. -/
theorem echo_of_ne {stmt : Stmt} (h : ∀ expr, stmt ≠ .expression expr) : echo stmt = pure () := by
  cases stmt with
  | expression expr => exact absurd rfl (h expr)
  | _ => rfl

theorem statementValue?_of_ne {steps : Nat} {stmt : Stmt} (h : ∀ expr, stmt ≠ .expression expr)
    (session : Session) : statementValue? steps stmt session = none := by
  cases stmt with
  | expression expr => exact absurd rfl (h expr)
  | _ => rfl

/-- Behind an expression statement one session adds the line that shows the last value. -/
theorem echo_beside_expression (expr : Expr) (h : session.Beside streaming sent sent' other) :
    ∃ after, echo (.expression expr) session = .ok () session ∧
      echo (.expression expr) other = .ok () after ∧
      session.Beside streaming sent (sent' ++ textBytes (echoLine session.lastValue)) after := by
  obtain ⟨after, hwrite, htakes⟩ :=
    Terminal.writeLine_takes (">> " ++ other.lastValue.text) h.reliable'
  refine ⟨{ other with terminal := after }, ?_, ?_, { h with
    mirrors := { h.mirrors with input := h.mirrors.input.trans htakes.input.symm }
    reliable' := htakes.reliable.trans h.reliable'
    streams' := htakes.streams.trans h.streams'
    sent := fun hstreaming => ⟨(h.sent hstreaming).1, ?_⟩ }⟩
  · rw [echo_expression, h.silent, if_neg nofun]
  · rw [echo_expression, h.shows, if_pos rfl, onTerminal, hwrite]
  · show after.sent = _
    rw [htakes.sent (h.streams'.trans hstreaming), (h.sent hstreaming).2, h.mirrors.lastValue]
    rfl

/-- **Between the statements** one session adds a line behind each expression. -/
theorem echo_beside {steps : Nat} {stmt : Stmt} {flow : Flow} {before : Session}
    (hexec : exec steps stmt before = .ok flow session)
    (h : session.Beside streaming sent sent' other) :
    ∃ after, echo stmt session = .ok () session ∧ echo stmt other = .ok () after ∧
      session.Beside streaming sent
        (sent' ++ ((statementValue? steps stmt before).map fun value =>
          textBytes (echoLine value)).getD []) after := by
  by_cases hstmt : ∃ expr, stmt = .expression expr
  · obtain ⟨expr, rfl⟩ := hstmt
    rw [statementValue?_expression hexec]
    exact echo_beside_expression expr h
  · have hne : ∀ expr, stmt ≠ .expression expr := fun expr heq => hstmt ⟨expr, heq⟩
    rw [statementValue?_of_ne hne, echo_of_ne hne, Option.map_none, Option.getD_none,
      List.append_nil]
    exact ⟨other, rfl, rfl, h⟩

/-! ## Scripts -/

/-- The statements of a script one after the other. The induction is on the statements; what the two
sessions have sent so far is all that tells them apart. -/
theorem execTop_beside (steps : Nat) (statements : List Stmt)
    (h : session.Beside streaming sent sent' other) :
    EndBeside streaming (sent ++ (passages steps statements session).flatMap Passage.bytes)
      (sent' ++ (passages steps statements session).flatMap Passage.shown)
      (execTop steps statements session) (execTop steps statements other) := by
  induction statements generalizing session other sent sent' with
  | nil =>
    rw [passages, List.flatMap_nil, List.flatMap_nil, List.append_nil, List.append_nil]
    exact .ok h
  | cons stmt rest ih =>
    have hfirst := exec_beside steps stmt h
    unfold stateAfter at hfirst
    generalize hexec' : exec steps stmt other = outcome' at hfirst
    rw [execTop]
    cases hexec : exec steps stmt session with
    | error stop after =>
      rw [hexec] at hfirst
      cases hfirst with
      | error hafter =>
        rw [bind_of_error hexec, bind_of_error hexec', passages_of_error rest hexec]
        simpa [Passage.shown] using EndBeside.error hafter
    | ok flow middle =>
      rw [hexec] at hfirst
      cases hfirst with
      | ok hmiddle =>
        obtain ⟨shown, hecho, hecho', hshown⟩ := echo_beside hexec hmiddle
        have hrest := ih hshown
        rw [bind_of_ok hexec, bind_of_ok hexec', bind_of_ok hecho, bind_of_ok hecho',
          passages_of_ok rest hexec]
        simpa [Passage.shown] using hrest

theorem interpret_beside (steps : Nat) (statements : List Stmt)
    (h : session.Beside streaming sent sent' other) :
    EndBeside streaming (sent ++ (passages steps statements session).flatMap Passage.bytes)
      (sent' ++ (passages steps statements session).flatMap Passage.shown)
      (interpret steps statements session) (interpret steps statements other) := by
  have hflush {session : Session} (hreliable : session.terminal.reliable = true) :
      onTerminal .unknown Terminal.flush session = .ok () session := by
    rw [onTerminal, Terminal.flush_reliable hreliable]
  have htop := execTop_beside steps statements h
  unfold interpret
  generalize hend : execTop steps statements session = outcome,
    hend' : execTop steps statements other = outcome' at htop
  cases htop with
  | error hafter =>
    rw [bind_of_error hend, bind_of_error hend']
    exact .error hafter
  | ok hafter =>
    rw [bind_of_ok hend, bind_of_ok hend', hflush hafter.reliable, hflush hafter.reliable']
    exact .ok hafter

theorem beside_showing (h : session.terminal.reliable = true) :
    (session.showing false).Beside session.terminal.streams session.terminal.sent
      session.terminal.sent (session.showing true) where
  mirrors := ⟨rfl, rfl, rfl, rfl, rfl, rfl, rfl, rfl⟩
  reliable := h
  reliable' := h
  streams := rfl
  streams' := rfl
  silent := rfl
  shows := rfl
  sent _ := ⟨rfl, rfl⟩

/-- **Showing values adds lines and changes nothing else.** On a terminal that nothing fails on, a
script is run to the same end by a session that shows values and by one that does not: both end or
stop for the same reason, with the same scopes, last value and input. On a sink, what is sent
without showing values is, statement after statement, what the statements at the top send. What is
sent with values shown is the same, with one more line behind each statement at the top that is an
expression and was executed to its end: its value behind an arrow. -/
theorem interpret_showing (steps : Nat) (statements : List Stmt) (session : Session)
    (h : session.terminal.reliable = true) :
    SameOutcome (interpret steps statements (session.showing false))
        (interpret steps statements (session.showing true)) ∧
      (session.terminal.streams = true →
        let passed := passages steps statements (session.showing false)
        (stateAfter (interpret steps statements) (session.showing false)).terminal.sent =
            session.terminal.sent ++ passed.flatMap Passage.bytes ∧
          (stateAfter (interpret steps statements) (session.showing true)).terminal.sent =
            session.terminal.sent ++ passed.flatMap Passage.shown) := by
  have hboth := interpret_beside steps statements (beside_showing h)
  unfold stateAfter
  generalize interpret steps statements (session.showing false) = outcome,
    interpret steps statements (session.showing true) = outcome' at hboth ⊢
  cases hboth with
  | ok hafter => exact ⟨.ok hafter.mirrors, hafter.sent⟩
  | error hafter => exact ⟨.error hafter.mirrors, hafter.sent⟩

end Action

namespace Sample

/-- Shows 7 if values are shown, but not 8, writes a line and fails. -/
def showy : List Stmt :=
  [.expression (.literal (.integer 7)), .block [.expression (.literal (.integer 8))],
    .print (.literal (.string "x")),
    .expression (.binary (.literal (.integer 1)) ⟨.slash, "/", ⟨4, 3⟩⟩ (.literal (.integer 0)))]

/-- A session in which nothing was run, with a sink that takes everything. -/
def sending : Session := .start (.streaming {} {}) {}

/-- Only the value of the first statement is shown. -/
theorem showy_shown :
    sending.terminal.reliable = true ∧ sending.terminal.streams = true ∧
      (stateAfter (Action.interpret 9 showy) (sending.showing false)).terminal.sent =
        textBytes "x\n" ∧
      (stateAfter (Action.interpret 9 showy) (sending.showing true)).terminal.sent =
        textBytes ">> 7\nx\n" ∧
      SameOutcome (Action.interpret 9 showy (sending.showing false))
        (Action.interpret 9 showy (sending.showing true)) ∧
      (stateAfter (Action.interpret 9 showy) (sending.showing true)).terminal.sent =
        sending.terminal.sent ++
          (Action.passages 9 showy (sending.showing false)).flatMap Passage.shown :=
  have hshown := Action.interpret_showing 9 showy sending rfl
  ⟨rfl, rfl, by decide +kernel, by decide +kernel, hshown.1, (hshown.2 rfl).2⟩

end Sample

end Scriptlet
