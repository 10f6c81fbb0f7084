import Scriptlet.Proofs.Session.Likeness

/-!
# The same script on two terminals

A script is run by two sessions that differ in their terminals only. A pairing says what the two
terminals have in common. If writing, prompting and reading keep that, and give the same on both,
the runs go the same way: they come across the same values and leave the same names behind. A
terminal paired with itself shows what a run keeps of its terminal.

## Main definitions

* `Session.on` — a session with another terminal
* `Pairing` — what two terminals have in common
* `Pairing.Ends` — that they are used alike
* `Pairing.Lawful` — whatever a script does with them keeps the pair
* `Pairing.Sessions`, `Pairing.likeness` — sessions that differ in their terminals only
* `Terminal.Lasting` — a property that no script takes from a terminal
* `Terminal.flushes` — flushing succeeds

## Main results

* `Pairing.Lawful.likeness` — both runs go alike
* `Terminal.Lasting.execTop`, `Terminal.lasting_flushes` — what a run keeps of its terminal
-/

namespace Scriptlet

open Scriptlet.Action

/-- The session with another terminal. -/
def Session.on (session : Session) (terminal : Terminal) : Session := { session with terminal }

/-- What the terminals of two sessions have in common. -/
structure Pairing where
  terminals : Terminal → Terminal → Prop
  /-- Whether the two sessions show the values of expression statements. -/
  dumps : Bool → Bool → Prop
  /-- When the first run stops like this, nothing is said about the second. -/
  excused : Stop → Prop

namespace Pairing

variable {α : Type} (pairing : Pairing)

/-- Both terminals give the same, unless the first fails and the run is excused for it. -/
inductive Ends : EStateM.Result IoError Terminal α → EStateM.Result IoError Terminal α → Prop
  | ok {result : α} {terminal terminal' : Terminal} : pairing.terminals terminal terminal' →
      Ends (.ok result terminal) (.ok result terminal')
  | error {error : IoError} {terminal terminal' : Terminal} :
      pairing.terminals terminal terminal' → Ends (.error error terminal) (.error error terminal')
  | excused {error : IoError} {terminal : Terminal} {outcome : EStateM.Result IoError Terminal α} :
      (∀ place, pairing.excused (.fault ⟨.io error, place⟩)) → Ends (.error error terminal) outcome

/-- **What has to be shown about two terminals.** -/
structure Lawful : Prop where
  writeLine : ∀ {terminal terminal'} (text : String), pairing.terminals terminal terminal' →
    pairing.Ends (Terminal.writeLine text terminal) (Terminal.writeLine text terminal')
  /-- An error may be taken no notice of. -/
  writeLineQuietly : ∀ {terminal terminal'} (text : String),
    pairing.terminals terminal terminal' →
    pairing.terminals (stateAfter (Terminal.writeLine text) terminal)
      (stateAfter (Terminal.writeLine text) terminal')
  writePrompt : ∀ {terminal terminal'} (text : String), pairing.terminals terminal terminal' →
    pairing.Ends (Terminal.writePrompt text terminal) (Terminal.writePrompt text terminal')
  readLine : ∀ {terminal terminal'}, pairing.terminals terminal terminal' →
    pairing.Ends (Terminal.readLine terminal) (Terminal.readLine terminal')

/-- Sessions that differ in their terminals, in what they show, and in their current scopes only. -/
structure Sessions (session session' : Session) : Prop where
  terminals : pairing.terminals session.terminal session'.terminal
  dumps : pairing.dumps session.options.dump session'.options.dump
  limit : session.options.maxCallDepth = session'.options.maxCallDepth
  store : session.store = session'.store
  globals : session.globals = session'.globals
  lastValue : session.lastValue = session'.lastValue
  callDepth : session.callDepth = session'.callDepth
  functions : session.functions = session'.functions

/-- The same trees and values, and sessions that differ in their terminals only. -/
def likeness : Likeness Unit where
  le _ _ := True
  places := Eq
  tokens := Eq
  exprs := Eq
  stmts := Eq
  values _ := Eq
  scopes _ := Eq
  sessions _ := pairing.Sessions
  stops := Eq
  excused := pairing.excused

variable {pairing}

theorem later {before before' after after' : Session} (h : pairing.Sessions after after')
    (hscope : after.scope = before.scope) (hscope' : after'.scope = before'.scope) :
    pairing.likeness.Later () before before' () after after' :=
  ⟨trivial, h, hscope, hscope'⟩

/-- Terminals that are used alike are used alike by sessions. -/
theorem onTerminal_alike {action : EStateM IoError Terminal α}
    (h : ∀ {terminal terminal'}, pairing.terminals terminal terminal' →
      pairing.Ends (action terminal) (action terminal')) (place : Location) :
    pairing.likeness.Alike False () (fun _ => Eq) (onTerminal place action)
      (onTerminal place action) := by
  intro before before' hsessions _
  have hends := h hsessions.terminals
  unfold onTerminal
  generalize action before.terminal = outcome, action before'.terminal = outcome' at hends
  cases hends with
  | ok hafter => exact .ok (later { hsessions with terminals := hafter } rfl rfl) rfl
  | error hafter => exact .error (later { hsessions with terminals := hafter } rfl rfl) rfl
  | excused hexcused => exact .excused (hexcused place)

theorem onTerminalQuietly_eq (action : EStateM IoError Terminal Unit) (session : Session) :
    onTerminalQuietly action session =
      .ok () { session with terminal := stateAfter action session.terminal } := by
  unfold onTerminalQuietly stateAfter
  cases action session.terminal <;> rfl

theorem results (place : Location) (result : Except FaultCause Value) :
    pairing.likeness.Results () place place result result := by
  cases result with
  | ok value => exact .ok rfl
  | error cause => exact .error rfl

theorem checkDepth_alike (place : Location) :
    pairing.likeness.Alike False () Likeness.anything (checkDepth place) (checkDepth place) := by
  intro before before' h _
  unfold checkDepth
  rw [h.callDepth, h.limit]
  split
  · exact .error (later h rfl rfl) rfl
  · exact .ok (later h rfl rfl) trivial

/-- **The same script goes the same way on both terminals.** -/
theorem Lawful.likeness (law : pairing.Lawful) : pairing.likeness.Lawful where
  refl _ := trivial
  trans _ _ := trivial
  values_mono h _ := h
  scopes_mono h _ := h
  kind h := congrArg Token.kind h
  lexeme h := congrArg Token.lexeme h
  place h := congrArg Token.location h
  unknown := rfl
  expr := by
    rintro expr _ rfl
    exact .refl (fun _ => rfl) (fun _ => rfl) expr
  stmt := by
    rintro stmt _ rfl
    exact .refl (fun _ => rfl) (fun _ => rfl) (fun _ => rfl) stmt
  value := by
    rintro w value _ rfl
    exact .refl (fun _ => rfl) (fun _ => rfl) (fun _ => rfl) value
  literal _ _ := rfl
  exhausted := rfl
  fault := by
    rintro cause place _ _ rfl
    rfl
  unary := by
    rintro w operator _ operand _ value _ ⟨⟩ rfl
    exact results _ _
  binary := by
    rintro w left _ operator _ right _ a _ b _ ⟨⟩ rfl rfl
    exact results _ _
  logical := by
    rintro left _ operator _ right _ ⟨⟩ _ _
    rfl
  callDepth h := h.callDepth
  lastValue h := h.lastValue
  get? := by
    rintro w before before' scope _ name h rfl
    rw [h.store]
    cases before'.store.get? scope name with
    | none => exact .none
    | some value => exact .some rfl
  rescope _ _ h := { h with }
  begun h := { h with callDepth := congrArg (· + 1) h.callDepth }
  ended h := { h with callDepth := congrArg (· - 1) h.callDepth }
  remember h hvalue := { h with lastValue := hvalue }
  define := by
    rintro w before before' scope _ value _ name h rfl rfl
    exact { h with store := congrArg (Store.define · scope name value) h.store }
  assign := by
    rintro w before before' scope _ value _ name h rfl rfl
    exact { h with store := congrArg (Store.assign · scope name value) h.store }
  openScope := by
    rintro w before before' scope _ h rfl
    rw [h.store]
    exact ⟨(), trivial, { h with store := rfl }, rfl⟩
  makeFunction := by
    rintro w before before' decl decl' h hscope hdecl
    obtain ⟨name, params, body⟩ := decl
    obtain ⟨name', params', body'⟩ := decl'
    obtain ⟨rfl, hparams, hbody⟩ := hdecl
    obtain rfl : params = params' := List.forall₂_eq_eq_eq ▸ hparams
    obtain rfl : body = body' := List.forall₂_eq_eq_eq ▸ hbody
    refine ⟨(), trivial, { h with functions := congrArg (· + 1) h.functions }, ?_⟩
    rw [h.functions, show before.scope = before'.scope from hscope]
    rfl
  checkDepth := by
    rintro w place _ rfl
    exact checkDepth_alike place
  writeLine := by
    rintro w place _ text rfl
    exact (onTerminal_alike (law.writeLine text) place).imp fun _ => trivial
  writeLineQuietly text := by
    intro before before' h _
    rw [onTerminalQuietly_eq, onTerminalQuietly_eq]
    exact .ok (later { h with terminals := law.writeLineQuietly text h.terminals } rfl rfl) trivial
  writePrompt := by
    rintro w place _ text rfl
    exact (onTerminal_alike (law.writePrompt text) place).imp fun _ => trivial
  readLine := by
    rintro w place _ rfl
    exact onTerminal_alike law.readLine place

end Pairing

/-! ## A terminal paired with itself -/

namespace Terminal

/-- A property of terminals that a script takes from no terminal. -/
structure Lasting (P : Terminal → Prop) : Prop where
  writeLine : ∀ (text : String) (terminal : Terminal), P terminal →
    P (stateAfter (writeLine text) terminal)
  writePrompt : ∀ (text : String) (terminal : Terminal), P terminal →
    P (stateAfter (writePrompt text) terminal)
  readLine : ∀ terminal, P terminal → P (stateAfter readLine terminal)

/-- A terminal with a property, paired with itself. -/
def kept (P : Terminal → Prop) : Pairing where
  terminals terminal terminal' := terminal = terminal' ∧ P terminal
  dumps := Eq
  excused _ := False

theorem kept_ends {α : Type} {P : Terminal → Prop} {action : EStateM IoError Terminal α}
    (h : ∀ terminal, P terminal → P (stateAfter action terminal)) {terminal terminal' : Terminal}
    (hpair : (kept P).terminals terminal terminal') :
    (kept P).Ends (action terminal) (action terminal') := by
  obtain ⟨rfl, hkept⟩ := hpair
  have hafter := h terminal hkept
  unfold stateAfter at hafter
  cases haction : action terminal with
  | ok result after => exact .ok ⟨rfl, by rwa [haction] at hafter⟩
  | error error after => exact .error ⟨rfl, by rwa [haction] at hafter⟩

theorem Lasting.lawful {P : Terminal → Prop} (h : Lasting P) : (kept P).Lawful where
  writeLine text := kept_ends (h.writeLine text)
  writeLineQuietly := by
    rintro terminal _ text ⟨rfl, hkept⟩
    exact ⟨rfl, h.writeLine text terminal hkept⟩
  writePrompt text := kept_ends (h.writePrompt text)
  readLine := kept_ends h.readLine

/-- **What lasts is there when the statements of a script have been executed.** -/
theorem Lasting.execTop {P : Terminal → Prop} (h : Lasting P) (steps : Nat)
    (statements : List Stmt) {session : Session} (hbefore : P session.terminal) :
    P (stateAfter (Action.execTop steps statements) session).terminal := by
  have hlaw := h.lawful.likeness
  have hpair : (kept P).Sessions session session :=
    ⟨⟨rfl, hbefore⟩, rfl, rfl, rfl, rfl, rfl, rfl, rfl⟩
  have houtcomes : (kept P).likeness.Outcomes () session session Likeness.anything
      (Action.execTop steps statements session) (Action.execTop steps statements session) :=
    hlaw.execTop (hlaw.steps (.inl rfl)).2 (fun hsessions => hsessions.dumps)
      (List.forall₂_same.mpr fun _ _ => rfl) hpair fun _ => rfl
  unfold stateAfter
  generalize Action.execTop steps statements session = outcome at houtcomes ⊢
  cases houtcomes with
  | ok hlater => exact hlater.sessions.terminals.2
  | error hlater => exact hlater.sessions.terminals.2
  | excused hexcused => exact hexcused.elim

/-! ## Flushing -/

/-- Whether everything written arrives when a terminal is flushed. -/
def flushes (terminal : Terminal) : Bool :=
  match terminal.output with
  | .captured _ _ => true
  | .stream sink => !sink.flushFails

theorem flush_of_flushes {terminal : Terminal} (h : terminal.flushes = true) :
    flush terminal = .ok () terminal := by
  obtain ⟨output, input⟩ := terminal
  cases output with
  | captured lines pending => rfl
  | stream sink =>
    have hsink : sink.flushFails = false := by simpa [flushes] using h
    have hflush : Sink.flush sink = .ok () sink := by simp [Sink.flush, hsink]
    rw [flush, onSink]
    simp only [hflush]

theorem flushes_onScreen (change : Array String → String → Array String × String)
    (terminal : Terminal) (h : terminal.flushes = true) :
    (stateAfter (onScreen change) terminal).flushes = true := by
  obtain ⟨output, input⟩ := terminal
  cases output with
  | captured lines pending => rfl
  | stream sink => exact h

theorem flushes_onSink {action : EStateM IoError Sink Unit}
    (haction : ∀ sink : Sink, sink.flushFails = false →
      (stateAfter action sink).flushFails = false)
    (terminal : Terminal) (h : terminal.flushes = true) :
    (stateAfter (onSink action) terminal).flushes = true := by
  obtain ⟨output, input⟩ := terminal
  cases output with
  | captured lines pending => rfl
  | stream sink =>
    have hsink := haction sink (by simpa [flushes] using h)
    unfold stateAfter at hsink ⊢
    unfold onSink
    cases hend : action sink with
    | ok result after =>
      rw [hend] at hsink
      simpa [flushes, hend] using hsink
    | error error after =>
      rw [hend] at hsink
      simpa [flushes, hend] using hsink

theorem flushFails_write (text : String) (sink : Sink) (h : sink.flushFails = false) :
    (stateAfter (Sink.write text) sink).flushFails = false := by
  unfold stateAfter Sink.write
  cases sink.limit? with
  | none => exact h
  | some limit =>
    dsimp only
    by_cases hroom : text.toUTF8.data.size ≤ limit - sink.written.size
    · rw [if_pos hroom]
      exact h
    · rw [if_neg hroom]
      exact h

theorem flushFails_flush (sink : Sink) (h : sink.flushFails = false) :
    (stateAfter Sink.flush sink).flushFails = false := by
  rw [stateAfter, Sink.flush, h]
  exact h

/-- **No script keeps its terminal from being flushed.** -/
theorem lasting_flushes : Lasting (·.flushes = true) where
  writeLine text := stateAfter_bind (flushes_onScreen _) fun _ => flushes_onSink
    (stateAfter_bind (flushFails_write text) fun _ => flushFails_write "\n")
  writePrompt text := stateAfter_bind (flushes_onScreen _) fun _ => flushes_onSink
    (stateAfter_bind (flushFails_write text) fun _ => flushFails_flush)
  readLine := by
    rintro ⟨output, input⟩ h
    unfold stateAfter readLine
    cases LineSource.readLine input with
    | error error input => exact h
    | ok line? input =>
      cases line? with
      | none => exact h
      | some line =>
        cases output with
        | captured lines pending => rfl
        | stream sink => exact h

end Terminal

end Scriptlet
