import Scriptlet.Proofs.Session.Frame
import Scriptlet.Session.Run

/-!
# Sessions over time

Whatever is done with a session, once or many times, it is ready for more: the scope that was the
current one is the current one again and all calls are closed, also after a fault in the middle of
nested calls. Scopes keep their names to themselves, so that what a block or a function binds is not
seen outside, and a name that had a value never loses it.

## Main definitions

* `Activity`, `Activity.after` — what can be done with a session, and how it ends
* `Session.afterAll` — one thing done after the other

## Main results

* `session_restored` — the current scope and the open calls are those from before
* `scopes_encapsulated` — no scope but the current one gets new names
-/

namespace Scriptlet

/-- What can be done with a session. -/
inductive Activity where
  /-- An expression is evaluated. -/
  | eval (expr : Expr)
  /-- A statement is executed. -/
  | exec (stmt : Stmt)
  /-- A value is called, at a place of a script. -/
  | call (callee : Value) (location : Location) (arguments : List Value)
  /-- The statements of a script are executed. -/
  | interpret (statements : List Stmt)
  /-- A script is read and run. -/
  | run (source : String)

/-- The session after it was used with a number of steps, with success or without. -/
def Activity.after (steps : Nat) : Activity → Session → Session
  | eval expr => stateAfter (Action.eval steps expr)
  | exec stmt => stateAfter (Action.exec steps stmt)
  | call callee location arguments =>
    stateAfter (Action.call (Action.exec steps) location callee arguments)
  | interpret statements => stateAfter (Action.interpret steps statements)
  | run source => stateAfter (Session.run steps source)

/-- The session after it was used several times. -/
def Session.afterAll (session : Session) (history : List (Nat × Activity)) : Session :=
  history.foldl (fun session (steps, activity) => activity.after steps session) session

theorem advances_run (steps : Nat) (source : String) (session : Session) :
    session.Advances (· = session.scope) (stateAfter (Session.run steps source) session) := by
  unfold stateAfter Session.run
  cases Parser.ofSource source with
  | error error => exact .refl _ session
  | ok parser =>
    cases hprogram : Parse.program parser with
    | error fatal parser => simpa [hprogram] using Session.Advances.refl _ session
    | ok statements parser =>
      have hinterpret := Action.tidy_interpret steps statements session
      unfold stateAfter at hinterpret
      simp only [hprogram]
      cases haction : Action.interpret steps statements session with
      | ok result after => simpa [haction] using hinterpret
      | error stop after => simpa [haction] using hinterpret

theorem advances_after (steps : Nat) (activity : Activity) (session : Session) :
    session.Advances (· = session.scope) (activity.after steps session) := by
  cases activity with
  | eval expr => exact Action.tidy_eval steps expr session
  | exec stmt => exact Action.tidy_exec steps stmt session
  | call callee location arguments =>
    have hcall := Action.sealed_call (Action.tidy_exec steps) location callee arguments
    exact (hcall session).mono fun _ howned => howned.elim
  | interpret statements => exact Action.tidy_interpret steps statements session
  | run source => exact advances_run steps source session

theorem advances_afterAll (session : Session) (history : List (Nat × Activity)) :
    session.Advances (· = session.scope) (session.afterAll history) := by
  induction history generalizing session with
  | nil => exact .refl _ session
  | cons step history ih =>
    have hfirst := advances_after step.1 step.2 session
    have hothers := ih (step.2.after step.1 session)
    rw [hfirst.scope] at hothers
    exact hfirst.trans hothers

/-- **A session is put back on every exit.** After an expression, a statement, a call or a script,
however it ended, the current scope, the outermost scope, the options and the number of open calls
are those from before, and every scope is still there, inside the same scope. Hence after any
sequence of uses of a new session the outermost scope is the current one, and no call is open. -/
theorem session_restored :
    (∀ (steps : Nat) (activity : Activity) (session : Session),
      let after := activity.after steps session
      after.scope = session.scope ∧ after.globals = session.globals ∧
        after.options = session.options ∧ after.callDepth = session.callDepth ∧
          ∀ id scope, session.store.scope? id = some scope →
            ∃ later, after.store.scope? id = some later ∧ later.enclosing? = scope.enclosing?) ∧
    ∀ (terminal : Terminal) (options : Options) (history : List (Nat × Activity)),
      let after := (Session.start terminal options).afterAll history
      after.scope = after.globals ∧ after.callDepth = 0 := by
  constructor
  · intro steps activity session
    obtain ⟨hscope, hglobals, hoptions, hdepth, hstore⟩ := advances_after steps activity session
    exact ⟨hscope, hglobals, hoptions, hdepth, fun id scope hfound => hstore.link hfound⟩
  · intro terminal options history
    obtain ⟨hscope, hglobals, -, hdepth, -⟩ :=
      advances_afterAll (Session.start terminal options) history
    exact ⟨hscope.trans hglobals.symm, hdepth⟩

/-- **Scopes keep their names to themselves.** Whatever is done with a session, every scope is still
there, inside the same scope; all but the current one bind exactly the names they did, and the
current one binds all of its names. A block or a call adds no name to any scope that was there. A
name that a scope binds it binds forever, and a name that has a value as seen from a scope has one
forever. -/
theorem scopes_encapsulated (session : Session) :
    (∀ steps activity,
      session.store.Extends (· = session.scope) (Activity.after steps activity session).store) ∧
    (∀ steps body, session.store.Extends (fun _ => False)
      (Activity.after steps (.exec (.block body)) session).store) ∧
    (∀ steps callee location arguments, session.store.Extends (fun _ => False)
      (Activity.after steps (.call callee location arguments) session).store) ∧
    ∀ history id name,
      (session.store.binds id name = true →
        (session.afterAll history).store.binds id name = true) ∧
      ((session.store.get? id name).isSome →
        ((session.afterAll history).store.get? id name).isSome) := by
  refine ⟨fun steps activity => (advances_after steps activity session).store, ?_, ?_, ?_⟩
  · intro steps body
    cases steps with
    | zero => exact .refl _ session.store
    | succ steps => exact (Action.sealed_block (Action.tidy_exec steps) body session).store
  · intro steps callee location arguments
    exact (Action.sealed_call (Action.tidy_exec steps) location callee arguments session).store
  · intro history id name
    have hstore := (advances_afterAll session history).store
    exact ⟨fun hbinds => hstore.kept hbinds, fun hvalue => hstore.isSome_get? hvalue⟩

end Scriptlet
