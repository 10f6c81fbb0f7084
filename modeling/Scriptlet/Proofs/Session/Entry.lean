import Scriptlet.Proofs.Session.Frame

/-!
# Where blocks and functions run

The statements of a block run in a new scope inside the current one, those of a function in a new
scope inside the one that the function remembers, with its parameters bound there and one more call
open. However they end, the session that they leave behind is the one in which they ended, back in
the scope and in the call that it was entered from.

## Main definitions

* `Session.nested`, `Session.entered` — the session in which a block or a function starts
* `Session.back` — the session after a block or a call
* `Session.finished` — what a call makes of how the body of the function ended

## Main results

* `Action.execWith_block`, `Action.callFunction_full`, `Action.callFunction_entered` — blocks and
  calls, given how their statements end
* `Action.call_function`, `Action.call_function_of_ne` — calls with the right and with the wrong
  number of arguments
* `Action.execWith_ret_outside`, `Action.execWith_ret_some`, `Action.execWith_ret_none` — returns
-/

namespace Scriptlet

namespace Session

/-- The session in which the statements of a block start. -/
def nested (session : Session) : Session :=
  { session with
    store := (session.store.openEnclosed session.scope).2
    scope := (session.store.openEnclosed session.scope).1 }

/-- The session in which the body of a function starts. -/
def entered (session : Session) (function : Function) (arguments : List Value) : Session :=
  let scope := (session.store.openEnclosed function.scope).1
  { session with
    store := (function.declaration.params.zip arguments).foldl
      (fun store (param, argument) => store.define scope param.lexeme argument)
      (session.store.openEnclosed function.scope).2
    scope
    callDepth := session.callDepth + 1 }

/-- A session that came after another, back in the scope and in the call of the other. -/
def back (outer inner : Session) : Session :=
  { inner with scope := outer.scope, callDepth := outer.callDepth }

/-- What a call makes of how the body of the function ended: it gives the value that was returned,
or the last value if none was. -/
def finished (outer : Session) :
    EStateM.Result Stop Session Flow → EStateM.Result Stop Session Value
  | .ok (.returned value) inner => .ok value (outer.back inner)
  | .ok .normal inner => .ok inner.lastValue (outer.back inner)
  | .error stop inner => .error stop (outer.back inner)

theorem error_of_finished {outer after : Session} {outcome : EStateM.Result Stop Session Flow}
    {stop : Stop} (h : outer.finished outcome = .error stop after) :
    ∃ inner, outcome = .error stop inner ∧ after = outer.back inner := by
  cases outcome with
  | ok flow inner => cases flow <;> cases h
  | error stop inner =>
    cases h
    exact ⟨inner, rfl, rfl⟩

/-- Going back from a session to one further out. -/
theorem onState_back_back {α : Type} (outer inner : Session)
    (outcome : EStateM.Result Stop Session α) :
    onState outer.back (onState inner.back outcome) = onState outer.back outcome := by
  cases outcome <;> rfl

theorem finished_onState_back (outer inner : Session)
    (outcome : EStateM.Result Stop Session Flow) :
    outer.finished (onState inner.back outcome) = outer.finished outcome := by
  cases outcome with
  | ok flow after => cases flow <;> rfl
  | error stop after => rfl

/-- A call gives the value that the body returns. -/
theorem finished_returned (outer inner : Session) (action : Action Value) :
    outer.finished ((do return Flow.returned (← action)) inner) =
      onState outer.back (action inner) := by
  cases haction : action inner with
  | ok value after =>
    rw [bind_of_ok haction]
    rfl
  | error stop after =>
    rw [bind_of_error haction]
    rfl

theorem Advances.back {owned : ScopeId → Prop} {session after : Session}
    (h : session.Advances owned after) : session.back after = after := by
  obtain ⟨hscope, -, -, hdepth, -⟩ := h
  unfold Session.back
  rw [← hscope, ← hdepth]

/-- Going back from where a run has got to is going back from where it started. -/
theorem Advances.back_eq {owned : ScopeId → Prop} {session middle : Session}
    (h : session.Advances owned middle) (after : Session) :
    middle.back after = session.back after := by
  unfold Session.back
  rw [h.scope, h.callDepth]

end Session

namespace Action

variable {eval : Expr → Action Value} {exec : Stmt → Action Flow} {session : Session}

theorem onState_back {α : Type} {action : Action α} {owned : ScopeId → ScopeId → Prop}
    (h : Confined owned action) (session : Session) :
    onState session.back (action session) = action session := by
  cases haction : action session with
  | ok result after => rw [onState, (h.of_ok haction).back]
  | error stop after => rw [onState, (h.of_error haction).back]

/-- What is done in a scope of its own ends back in the current scope. -/
theorem within_back {α : Type} {action : Action α} (h : Tidy action) (scope : ScopeId)
    (session : Session) :
    within scope action session = onState session.back (action { session with scope }) := by
  unfold within
  cases haction : action { session with scope } with
  | ok result after =>
    have hdepth : after.callDepth = session.callDepth := (h.of_ok haction).callDepth
    simp only [onState, Session.back, ← hdepth]
  | error stop after =>
    have hdepth : after.callDepth = session.callDepth := (h.of_error haction).callDepth
    simp only [onState, Session.back, ← hdepth]

/-- What is done in a scope and a call of its own ends back in the current scope and call. -/
theorem calling_within_back {α : Type} {action : Action α} (h : Tidy action) (scope : ScopeId)
    (session : Session) :
    calling (within scope action) session = onState session.back
      (action { session with scope, callDepth := session.callDepth + 1 }) := by
  unfold calling
  rw [within_back h]
  cases action { session with scope, callDepth := session.callDepth + 1 } with
  | ok result after => rfl
  | error stop after => rfl

/-- **A block** ends like its statements, back in the scope around it. -/
theorem execWith_block (hexec : ∀ stmt, Tidy (exec stmt)) (body : List Stmt) (session : Session) :
    execWith eval exec (.block body) session =
      onState session.back (execAll exec body session.nested) :=
  within_back (confined_execAll hexec body) session.nested.scope
    { session with store := session.nested.store }

theorem checkArity_of_eq {arity : Nat} {arguments : List Value} (h : arguments.length = arity)
    (location : Location) (name : String) : checkArity location name arity arguments = pure () :=
  if_neg fun hne => hne h

theorem checkArity_of_ne {arity : Nat} {arguments : List Value} (h : arguments.length ≠ arity)
    (location : Location) (name : String) :
    checkArity location name arity arguments =
      fault (.argumentCount name arity arguments.length) location :=
  if_pos h

theorem call_function (exec : Stmt → Action Flow) (location : Location) {function : Function}
    {arguments : List Value} (h : arguments.length = function.arity) :
    call exec location (.function function) arguments =
      callFunction exec location function arguments := by
  change (checkArity _ _ _ _ >>= fun _ => _) = _
  rw [checkArity_of_eq h]
  rfl

/-- **A call** with too many or too few arguments is refused. -/
theorem call_function_of_ne (exec : Stmt → Action Flow) (location : Location) {function : Function}
    {arguments : List Value} (h : arguments.length ≠ function.arity) :
    call exec location (.function function) arguments =
      fault (.argumentCount function.name function.arity arguments.length) location := by
  change (checkArity _ _ _ _ >>= fun _ => _) = _
  rw [checkArity_of_ne h]
  rfl

/-- **A call** is refused if no more calls may be open. -/
theorem callFunction_full (location : Location) (function : Function) (arguments : List Value)
    (h : session.options.maxCallDepth ≤ session.callDepth) :
    callFunction exec location function arguments session =
      .error (.fault ⟨.stackOverflow session.options.maxCallDepth, location⟩) session := by
  change (if session.options.maxCallDepth ≤ session.callDepth then _ else _ : Action Value)
    session = _
  rw [if_pos h]
  rfl

/-- **A call** ends like the body of the function, back in the scope and in the call that it was
made from. -/
theorem callFunction_entered (hexec : ∀ stmt, Tidy (exec stmt)) (location : Location)
    (function : Function) (arguments : List Value)
    (h : session.callDepth < session.options.maxCallDepth) :
    callFunction exec location function arguments session =
      session.finished (execAll exec function.declaration.body
        (session.entered function arguments)) := by
  change (if session.options.maxCallDepth ≤ session.callDepth then _ else _ : Action Value)
    session = _
  rw [if_neg (Nat.not_le.mpr h)]
  have hcall := calling_within_back (confined_execAll hexec function.declaration.body)
    (session.entered function arguments).scope
    { session with store := (session.entered function arguments).store }
  change _ = session.finished (execAll exec _
    { session with
      store := (session.entered function arguments).store
      scope := (session.entered function arguments).scope
      callDepth := session.callDepth + 1 })
  generalize execAll exec _ _ = outcome at hcall ⊢
  cases outcome with
  | ok flow after =>
    refine (bind_of_ok hcall).trans ?_
    cases flow with
    | normal => rfl
    | returned value => rfl
  | error stop after =>
    refine (bind_of_error hcall).trans ?_
    rfl

/-! ## Returning -/

/-- **A return** is refused if no call is open, whatever its value would be. -/
theorem execWith_ret_outside (keyword : Token) (expr? : Option Expr) (h : session.callDepth = 0) :
    execWith eval exec (.ret keyword expr?) session =
      .error (.fault ⟨.returnOutsideFunction, keyword.location⟩) session := by
  change (if session.callDepth = 0 then _ else _ : Action Flow) session = _
  rw [if_pos h]
  rfl

/-- **A return** in a call gives the value of its expression. -/
theorem execWith_ret_some (keyword : Token) (expr : Expr) (h : session.callDepth ≠ 0) :
    execWith eval exec (.ret keyword (some expr)) session =
      (do return Flow.returned (← eval expr)) session := by
  change (if session.callDepth = 0 then _ else _ : Action Flow) session = _
  rw [if_neg h]

/-- **A return** in a call gives the absent value if it has no expression. -/
theorem execWith_ret_none (keyword : Token) (h : session.callDepth ≠ 0) :
    execWith eval exec (.ret keyword none) session = .ok (.returned .absent) session := by
  change (if session.callDepth = 0 then _ else _ : Action Flow) session = _
  rw [if_neg h]
  rfl

end Action

end Scriptlet
