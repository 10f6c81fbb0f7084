import Scriptlet.Proofs.Outcome
import Scriptlet.Proofs.Store.Extension
import Scriptlet.Session.Eval

/-!
# What running a script leaves as it was

However an action ends, the session has the same current scope, the same outermost scope, the same
options and as many open calls as before, and its store has only grown. New names appear in the
current scope at most; a block and a call put theirs into a scope of their own.

This is said once, of the session before and after an action, and shown for every action from
assignments up to whole scripts. Evaluation and execution follow by induction on the number of
steps, with one case for each form of expression and statement.

## Main definitions

* `Session.Advances` — what a session that was run on has kept
* `Action.Confined` — an action that adds names to some scopes only, and puts all else back
* `Action.Tidy`, `Action.Sealed` — these are the current scope, or no scope at all

## Main results

* `Action.tidy_eval`, `Action.tidy_exec` — evaluation and execution
* `Action.sealed_call`, `Action.sealed_block` — calls and blocks
* `Action.tidy_interpret` — scripts
-/

namespace Scriptlet

namespace Session

/-- The second session comes after the first: the store has grown, with new names in owned scopes
only, and nothing else that a script depends on has changed. -/
structure Advances (owned : ScopeId → Prop) (before after : Session) : Prop where
  /-- The same scope is the current one. -/
  scope : after.scope = before.scope
  /-- The same scope is the outermost one. -/
  globals : after.globals = before.globals
  /-- The same was chosen. -/
  options : after.options = before.options
  /-- As many calls are open. -/
  callDepth : after.callDepth = before.callDepth
  /-- The store has grown. -/
  store : before.store.Extends owned after.store

namespace Advances

variable {owned other : ScopeId → Prop} {before middle after : Session}

theorem refl (owned : ScopeId → Prop) (session : Session) : session.Advances owned session :=
  ⟨rfl, rfl, rfl, rfl, .refl owned session.store⟩

theorem trans (first : before.Advances owned middle) (second : middle.Advances owned after) :
    before.Advances owned after :=
  ⟨second.scope.trans first.scope, second.globals.trans first.globals,
    second.options.trans first.options, second.callDepth.trans first.callDepth,
    first.store.trans second.store⟩

theorem mono (h : before.Advances owned after) (hle : ∀ id, owned id → other id) :
    before.Advances other after :=
  ⟨h.scope, h.globals, h.options, h.callDepth, h.store.mono hle⟩

end Advances

end Session

namespace Action

variable {α β : Type} {owned : ScopeId → ScopeId → Prop}

/-- An action that adds names to owned scopes only, and puts all else back. Which scopes are owned
may depend on the current one. -/
def Confined (owned : ScopeId → ScopeId → Prop) (action : Action α) : Prop :=
  ∀ session : Session, session.Advances (owned session.scope) (stateAfter action session)

/-- Names are added to the current scope only. -/
abbrev Tidy (action : Action α) : Prop := Confined (fun current id => id = current) action

/-- Names are added to no scope that was there before. -/
abbrev Sealed (action : Action α) : Prop := Confined (fun _ _ => False) action

/-! ## Actions one behind the other -/

theorem Confined.of_ok {action : Action α} (h : Confined owned action) {before after : Session}
    {result : α} (haction : action before = .ok result after) :
    before.Advances (owned before.scope) after := by
  have hafter := h before
  rw [stateAfter, haction] at hafter
  exact hafter

theorem Confined.of_error {action : Action α} (h : Confined owned action) {before after : Session}
    {stop : Stop} (haction : action before = .error stop after) :
    before.Advances (owned before.scope) after := by
  have hafter := h before
  rw [stateAfter, haction] at hafter
  exact hafter

/-- Only what the first action gives matters to the second. -/
theorem Confined.bind_of {action : Action α} {next : α → Action β} (h : Confined owned action)
    (hnext : ∀ ⦃before result middle⦄, action before = .ok result middle →
      Confined owned (next result)) : Confined owned (action >>= next) := by
  intro before
  cases haction : action before with
  | ok result middle =>
    -- the second action owns the same scopes, because the current scope is the same
    have hfirst := h.of_ok haction
    have hsecond := hnext haction middle
    rw [hfirst.scope] at hsecond
    rw [stateAfter, bind_of_ok haction]
    exact hfirst.trans hsecond
  | error stop middle =>
    rw [stateAfter, bind_of_error haction]
    exact h.of_error haction

theorem Confined.bind {action : Action α} {next : α → Action β} (h : Confined owned action)
    (hnext : ∀ result, Confined owned (next result)) : Confined owned (action >>= next) :=
  h.bind_of fun _ result _ _ => hnext result

theorem Sealed.confined {action : Action α} (h : Sealed action)
    (owned : ScopeId → ScopeId → Prop) : Confined owned action :=
  fun session => (h session).mono fun _ howned => howned.elim

theorem confined_pure (result : α) : Confined owned (pure result : Action α) :=
  fun session => .refl _ session

theorem confined_throw (stop : Stop) : Confined owned (throw stop : Action α) :=
  fun session => .refl _ session

theorem confined_get : Confined owned (get : Action Session) := fun session => .refl _ session

theorem Confined.ite {action other : Action α} {condition : Prop} [Decidable condition]
    (h : Confined owned action) (hother : Confined owned other) :
    Confined owned (if condition then action else other) := by
  split
  · exact h
  · exact hother

/-! ## Single actions -/

theorem confined_fault (cause : FaultCause) (location : Location) :
    Confined owned (fault cause location : Action α) := confined_throw _

theorem confined_ofExcept (location : Location) (result : Except FaultCause α) :
    Confined owned (ofExcept location result) := by
  cases result with
  | ok result => exact confined_pure result
  | error cause => exact confined_fault cause location

theorem confined_lookup (name : Token) : Confined owned (lookup name) := by
  refine confined_get.bind fun session => ?_
  split
  · exact confined_pure _
  · exact confined_fault _ _

theorem tidy_define (name : String) (value : Value) : Tidy (define name value) := fun session =>
  ⟨rfl, rfl, rfl, rfl, session.store.extends_define session.scope name value⟩

theorem tidy_assign (name : String) (value : Value) : Tidy (assign name value) := fun session =>
  ⟨rfl, rfl, rfl, rfl, session.store.extends_assign session.scope name value⟩

theorem confined_remember (value : Value) : Confined owned (remember value) := fun session =>
  ⟨rfl, rfl, rfl, rfl, .refl _ session.store⟩

theorem confined_makeFunction (declaration : FunctionDecl) :
    Confined owned (makeFunction declaration) := fun session =>
  ⟨rfl, rfl, rfl, rfl, .refl _ session.store⟩

theorem confined_onTerminal (location : Location) (action : EStateM IoError Terminal α) :
    Confined owned (onTerminal location action) := by
  intro session
  unfold stateAfter onTerminal
  cases action session.terminal <;> exact ⟨rfl, rfl, rfl, rfl, .refl _ session.store⟩

theorem confined_onTerminalQuietly (action : EStateM IoError Terminal Unit) :
    Confined owned (onTerminalQuietly action) := by
  intro session
  unfold stateAfter onTerminalQuietly
  cases action session.terminal <;> exact ⟨rfl, rfl, rfl, rfl, .refl _ session.store⟩

/-! ## Scopes and calls -/

theorem extends_foldl_define (store : Store) (scope : ScopeId) (bindings : List (Token × Value)) :
    store.Extends (· = scope) (bindings.foldl (fun store (param, argument) =>
      store.define scope param.lexeme argument) store) := by
  induction bindings generalizing store with
  | nil => exact .refl _ store
  | cons binding bindings ih => exact (store.extends_define scope _ _).trans (ih _)

theorem confined_bindParams (scope : ScopeId) (params : List Token) (arguments : List Value) :
    Confined (fun _ id => id = scope) (bindParams scope params arguments) := fun session =>
  ⟨rfl, rfl, rfl, rfl, extends_foldl_define session.store scope (params.zip arguments)⟩

theorem confined_within {action : Action α} (h : Tidy action) (scope : ScopeId) :
    Confined (fun _ id => id = scope) (within scope action) := by
  intro session
  unfold stateAfter within
  cases haction : action { session with scope } with
  | ok result after =>
    have hafter := h.of_ok haction
    exact ⟨rfl, hafter.globals, hafter.options, hafter.callDepth, hafter.store⟩
  | error stop after =>
    have hafter := h.of_error haction
    exact ⟨rfl, hafter.globals, hafter.options, hafter.callDepth, hafter.store⟩

theorem Confined.calling {action : Action α} (h : Confined owned action) :
    Confined owned (Action.calling action) := by
  intro session
  unfold stateAfter Action.calling
  cases haction : action { session with callDepth := session.callDepth + 1 } with
  | ok result after =>
    have hafter := h.of_ok haction
    exact ⟨hafter.scope, hafter.globals, hafter.options, by simp [hafter.callDepth], hafter.store⟩
  | error stop after =>
    have hafter := h.of_error haction
    exact ⟨hafter.scope, hafter.globals, hafter.options, by simp [hafter.callDepth], hafter.store⟩

/-- What adds names to a new scope only is sealed off. -/
theorem sealed_openScope {next : ScopeId → Action α}
    (h : ∀ scope, Confined (fun _ id => id = scope) (next scope)) (enclosing : ScopeId) :
    Sealed (openScope enclosing >>= next) := by
  intro session
  have hnext := h (session.store.openEnclosed enclosing).1
    { session with store := (session.store.openEnclosed enclosing).2 }
  exact ⟨hnext.scope, hnext.globals, hnext.options, hnext.callDepth, hnext.store.of_add _⟩

/-! ## Calls -/

variable {eval : Expr → Action Value} {exec : Stmt → Action Flow}

theorem confined_execAll (h : ∀ stmt, Confined owned (exec stmt)) (body : List Stmt) :
    Confined owned (execAll exec body) := by
  induction body with
  | nil => exact confined_pure _
  | cons stmt rest ih =>
    refine (h stmt).bind fun flow => ?_
    cases flow with
    | normal => exact ih
    | returned value => exact confined_pure _

theorem confined_evalAll (h : ∀ expr, Confined owned (eval expr)) (exprs : List Expr) :
    Confined owned (evalAll eval exprs) := by
  induction exprs with
  | nil => exact confined_pure _
  | cons expr rest ih => exact (h expr).bind fun _ => ih.bind fun _ => confined_pure _

theorem confined_callNative (location : Location) (native : Native) (arguments : List Value) :
    Confined owned (callNative location native arguments) := by
  cases native with
  | print => exact (confined_onTerminalQuietly _).bind fun _ => confined_pure _
  | input =>
    refine (confined_onTerminal _ _).bind fun _ => (confined_onTerminal _ _).bind fun line? => ?_
    cases line? with
    | some line => exact confined_pure _
    | none => exact confined_pure _

theorem confined_checkArity (location : Location) (name : String) (arity : Nat)
    (arguments : List Value) : Confined owned (checkArity location name arity arguments) :=
  .ite (confined_fault _ _) (confined_pure _)

/-- A body that runs in a new scope, and whatever is made of how it ended. -/
theorem sealed_body {next : Flow → Action α} (h : ∀ stmt, Tidy (exec stmt))
    (hnext : ∀ flow, Sealed (next flow)) (function : Function) (arguments : List Value) :
    Sealed (do
      let scope ← openScope function.scope
      bindParams scope function.declaration.params arguments
      let flow ← calling (within scope (execAll exec function.declaration.body))
      next flow) := by
  refine sealed_openScope (fun scope => ?_) function.scope
  refine (confined_bindParams scope _ arguments).bind fun _ => ?_
  refine (confined_within (confined_execAll h _) scope).calling.bind fun flow => ?_
  exact (hnext flow).confined _

theorem sealed_callFunction (h : ∀ stmt, Tidy (exec stmt)) (location : Location)
    (function : Function) (arguments : List Value) :
    Sealed (callFunction exec location function arguments) := by
  refine confined_get.bind fun session => confined_get.bind fun session' => ?_
  refine .ite ((confined_fault _ _).bind fun _ => sealed_body h (fun flow => ?_) function arguments)
    (sealed_body h (fun flow => ?_) function arguments)
  all_goals
    cases flow with
    | returned value => exact confined_pure value
    | normal => exact confined_get.bind fun _ => confined_pure _

/-- **A call adds no name to a scope that was there.** -/
theorem sealed_call (h : ∀ stmt, Tidy (exec stmt)) (location : Location) (callee : Value)
    (arguments : List Value) : Sealed (call exec location callee arguments) := by
  cases callee with
  | function f =>
    exact (confined_checkArity _ _ _ _).bind fun _ => sealed_callFunction h location f arguments
  | native f =>
    exact (confined_checkArity _ _ _ _).bind fun _ => confined_callNative location f arguments
  | _ => exact confined_fault _ _

/-! ## One step -/

theorem tidy_evalWith (heval : ∀ expr, Tidy (eval expr)) (hexec : ∀ stmt, Tidy (exec stmt))
    (expr : Expr) : Tidy (evalWith eval exec expr) := by
  cases expr with
  | literal value => exact confined_pure _
  | var name => exact confined_lookup name
  | assign name expr =>
    exact (heval expr).bind fun value => (tidy_assign _ value).bind fun _ =>
      (confined_remember value).bind fun _ => confined_pure value
  | unary operator operand => exact (heval operand).bind fun _ => confined_ofExcept _ _
  | binary left operator right =>
    exact (heval left).bind fun _ => (heval right).bind fun _ => confined_ofExcept _ _
  | logical left operator right =>
    refine (heval left).bind fun value => ?_
    split
    · exact .ite (confined_pure _) (heval right)
    · exact .ite (heval right) (confined_pure _)
    · exact confined_fault _ _
  | call callee paren arguments =>
    exact (heval callee).bind fun function => (confined_evalAll heval arguments).bind fun values =>
      (sealed_call hexec _ function values).confined _

/-- **A block adds no name to a scope that was there.** -/
theorem sealed_block (hexec : ∀ stmt, Tidy (exec stmt)) (body : List Stmt) :
    Sealed (execWith eval exec (.block body)) :=
  confined_get.bind fun session => sealed_openScope
    (fun scope => confined_within (confined_execAll hexec body) scope) session.scope

theorem tidy_execWith (heval : ∀ expr, Tidy (eval expr)) (hexec : ∀ stmt, Tidy (exec stmt))
    (stmt : Stmt) : Tidy (execWith eval exec stmt) := by
  cases stmt with
  | expression expr =>
    exact (heval expr).bind fun value => (confined_remember value).bind fun _ => confined_pure _
  | print expr =>
    exact (heval expr).bind fun value => (confined_onTerminal _ _).bind fun _ =>
      (confined_remember value).bind fun _ => confined_pure _
  | var name expr? =>
    have hrest (value : Value) :
        Tidy (do define name.lexeme value; remember value; return Flow.normal) :=
      (tidy_define _ value).bind fun _ => (confined_remember value).bind fun _ => confined_pure _
    cases expr? with
    | some expr => exact (heval expr).bind hrest
    | none => exact (confined_pure _).bind hrest
  | block body => exact (sealed_block hexec body).confined _
  | branch condition yes no? =>
    refine (heval condition).bind fun value => .ite (hexec yes) ?_
    cases no? with
    | some no => exact hexec no
    | none => exact confined_pure _
  | loop condition body =>
    refine (heval condition).bind fun value => .ite ((hexec body).bind fun flow => ?_)
      (confined_pure _)
    cases flow with
    | normal => exact hexec (.loop condition body)
    | returned value => exact confined_pure _
  | function name params body =>
    exact (confined_makeFunction _).bind fun f => (tidy_define _ (.function f)).bind fun _ =>
      confined_pure _
  | ret keyword expr? =>
    refine confined_get.bind fun session => ?_
    cases expr? with
    | some expr =>
      have hvalue : Tidy (do return Flow.returned (← eval expr)) :=
        (heval expr).bind fun _ => confined_pure _
      exact .ite ((confined_fault _ _).bind fun _ => hvalue) hvalue
    | none => exact .ite ((confined_fault _ _).bind fun _ => confined_pure _) (confined_pure _)

/-! ## All steps -/

theorem tidy_steps (steps : Nat) :
    (∀ expr, Tidy (Action.eval steps expr)) ∧ ∀ stmt, Tidy (Action.exec steps stmt) := by
  induction steps with
  | zero => exact ⟨fun _ => confined_throw _, fun _ => confined_throw _⟩
  | succ steps ih => exact ⟨tidy_evalWith ih.1 ih.2, tidy_execWith ih.1 ih.2⟩

/-- **Evaluation leaves the session as it was**, apart from new names in the current scope. -/
theorem tidy_eval (steps : Nat) (expr : Expr) : Tidy (Action.eval steps expr) :=
  (tidy_steps steps).1 expr

/-- **Execution leaves the session as it was**, apart from new names in the current scope. -/
theorem tidy_exec (steps : Nat) (stmt : Stmt) : Tidy (Action.exec steps stmt) :=
  (tidy_steps steps).2 stmt

/-! ## Scripts -/

theorem confined_echo (stmt : Stmt) : Confined owned (echo stmt) := by
  unfold echo
  split
  · exact confined_get.bind fun session => .ite (confined_onTerminal _ _) (confined_pure _)
  · exact confined_pure _

theorem tidy_execTop (steps : Nat) (statements : List Stmt) : Tidy (execTop steps statements) := by
  induction statements with
  | nil => exact confined_pure _
  | cons stmt rest ih =>
    exact (tidy_exec steps stmt).bind fun _ => (confined_echo stmt).bind fun _ => ih

theorem tidy_interpret (steps : Nat) (statements : List Stmt) :
    Tidy (interpret steps statements) :=
  (tidy_execTop steps statements).bind fun _ => confined_onTerminal _ _

end Action

end Scriptlet
