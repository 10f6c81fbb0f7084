import Scriptlet.Proofs.Session.Entry
import Scriptlet.Proofs.Session.Likeness

/-!
# Ways to run scripts

Whatever a script does with a session it does by a handful of single moves: it looks a name up,
binds one, makes a value the last value, writes, reads, and so on. Statements are run inside of
blocks and of the bodies of functions, and expressions, statements and calls are entered one inside
the other. A runner says what each of these comes to, in a monad of its own. Evaluation and
execution are written here for any runner, with the same forms as for sessions.

The runner of sessions makes the moves, and what it runs is run as before. Other runners may keep a
log, lay down a plan, or count what is open. A map from one runner to another that respects single
moves respects all runs, so what another runner does to a session is shown by looking at its moves.

## Main definitions

* `Utterance`, `Completion`, `Move`, `Move.action` — single moves, and what they do to a session
* `Enclosure`, `Enclosure.around` — blocks and bodies, and what they do to a session
* `Task`, `Side` — what can be entered, and how parts of expressions are come to
* `Runner` — a way to run scripts
* `Runner.eval`, `Runner.exec`, `Runner.call`, `Runner.interpret` — expressions, statements, calls
  and scripts
* `Runner.Passage`, `Runner.Morphism` — a map between runners that respects single moves, and one
  that also respects how things stand inside each other
* `Action.runner` — the runner of sessions

## Main results

* `Runner.Morphism.eval`, `Runner.Morphism.exec`, `Runner.Morphism.interpret` — such a map respects
  all runs
* `Runner.Morphism.run_eval`, `Runner.Morphism.run_exec`, `Runner.Morphism.run_interpret` — a map to
  the runner of sessions leads to evaluation and execution
-/

universe u v

namespace Scriptlet

/-! ## Single moves -/

/-- What a script sends to the terminal. -/
inductive Utterance where
  /-- The line of a print statement. -/
  | statement (location : Location) (text : String)
  /-- The line of a call of the function that prints. -/
  | native (text : String)
  /-- The text in front of a line that is to be read. -/
  | prompt (location : Location) (text : String)
  /-- The line that shows the value of a statement at the top of a script. -/
  | echo (text : String)

/-- What is completed with a value. -/
inductive Completion where
  /-- An expression statement. -/
  | expression
  /-- A print statement, whose line is written. -/
  | print
  /-- A declaration of a variable. -/
  | declaration (name : String)
  /-- An assignment, which has stored the value. -/
  | assignment (name : String)
deriving DecidableEq

/-- Sends what a script has to say to the terminal. Calls of the function that prints fail without
notice. -/
def Utterance.send : Utterance → Action Unit
  | statement location text => Action.onTerminal location (Terminal.writeLine text)
  | native text => Action.onTerminalQuietly (Terminal.writeLine text)
  | prompt location text => Action.onTerminal location (Terminal.writePrompt text)
  | echo text => Action.onTerminal .unknown (Terminal.writeLine text)

/-- The single moves of a run, with what they give. -/
inductive Move : Type → Type where
  /-- Looks a name up. -/
  | lookup (name : Token) : Move Value
  /-- Assigns to a name. -/
  | assign (name : String) (value : Value) : Move Unit
  /-- Binds a name. -/
  | define (name : String) (value : Value) : Move Unit
  /-- Makes a function of a declaration. -/
  | makeFunction (declaration : FunctionDecl) : Move Function
  /-- Checks that one more call may be open. -/
  | checkDepth (location : Location) : Move Unit
  /-- Checks that there is a call to return from. -/
  | checkCalled (location : Location) : Move Unit
  /-- Completes something with a value, which becomes the last value. -/
  | complete (completion : Completion) (value : Value) : Move Unit
  /-- Ends a call without a return, so that it gives the last value. -/
  | fallThrough (function : Function) : Move Value
  /-- Tells whether the values of statements are to be shown. -/
  | dumps : Move Bool
  /-- Gives the last value. -/
  | lastValue : Move Value
  /-- Writes a text. -/
  | utter (utterance : Utterance) : Move Unit
  /-- Reads a line. -/
  | read (location : Location) : Move (Option String)
  /-- Makes sure that everything written has arrived. -/
  | flush : Move Unit

namespace Move

variable {α : Type}

/-- What a move does. -/
def action : Move α → Action α
  | lookup name => Action.lookup name
  | assign name value => Action.assign name value
  | define name value => Action.define name value
  | makeFunction declaration => Action.makeFunction declaration
  | checkDepth location => Action.checkDepth location
  | checkCalled location => fun session =>
    if session.callDepth = 0 then Action.fault .returnOutsideFunction location session
    else .ok () session
  | complete _ value => Action.remember value
  | fallThrough _ => do return (← get).lastValue
  | dumps => do return (← get).options.dump
  | lastValue => do return (← get).lastValue
  | utter utterance => utterance.send
  | read location => Action.onTerminal location Terminal.readLine
  | flush => Action.onTerminal .unknown Terminal.flush

theorem lookup_of_some {name : Token} {session : Session} {value : Value}
    (h : session.store.get? session.scope name.lexeme = some value) :
    (lookup name).action session = .ok value session := by
  have hget : (get : Action Session) session = .ok session session := rfl
  rw [action, Action.lookup, bind_of_ok hget, h]
  rfl

theorem lookup_of_none {name : Token} {session : Session}
    (h : session.store.get? session.scope name.lexeme = none) :
    (lookup name).action session =
      .error (.fault ⟨.undefinedVariable name.lexeme, name.location⟩) session := by
  have hget : (get : Action Session) session = .ok session session := rfl
  rw [action, Action.lookup, bind_of_ok hget, h]
  rfl

theorem checkDepth_of_le {location : Location} {session : Session}
    (h : session.options.maxCallDepth ≤ session.callDepth) :
    (checkDepth location).action session =
      .error (.fault ⟨.stackOverflow session.options.maxCallDepth, location⟩) session := if_pos h

theorem checkDepth_of_lt {location : Location} {session : Session}
    (h : session.callDepth < session.options.maxCallDepth) :
    (checkDepth location).action session = .ok () session := if_neg (Nat.not_le.mpr h)

theorem checkCalled_of_eq {location : Location} {session : Session} (h : session.callDepth = 0) :
    (checkCalled location).action session =
      .error (.fault ⟨.returnOutsideFunction, location⟩) session := if_pos h

theorem checkCalled_of_ne {location : Location} {session : Session} (h : session.callDepth ≠ 0) :
    (checkCalled location).action session = .ok () session := if_neg h

theorem stateAfter_lookup (name : Token) (session : Session) :
    stateAfter (lookup name).action session = session := by
  rw [stateAfter]
  cases h : session.store.get? session.scope name.lexeme with
  | some value => rw [lookup_of_some h]
  | none => rw [lookup_of_none h]

theorem stateAfter_checkDepth (location : Location) (session : Session) :
    stateAfter (checkDepth location).action session = session := by
  rw [stateAfter]
  rcases Nat.lt_or_ge session.callDepth session.options.maxCallDepth with h | h
  · rw [checkDepth_of_lt h]
  · rw [checkDepth_of_le h]

theorem stateAfter_checkCalled (location : Location) (session : Session) :
    stateAfter (checkCalled location).action session = session := by
  rw [stateAfter]
  by_cases h : session.callDepth = 0
  · rw [checkCalled_of_eq h]
  · rw [checkCalled_of_ne h]

end Move

/-! ## Blocks and bodies -/

/-- What is done in another scope ends back in the current one. -/
theorem Action.within_eq {α : Type} (scope : ScopeId) (action : Action α) (session : Session) :
    within scope action session =
      onState (fun inner => { inner with scope := session.scope })
        (action { session with scope }) := by
  rw [within]
  cases action { session with scope } <;> rfl

/-- What is done in a call ends with the call closed. -/
theorem Action.calling_eq {α : Type} (action : Action α) (session : Session) :
    calling action session =
      onState (fun inner => { inner with callDepth := inner.callDepth - 1 })
        (action { session with callDepth := session.callDepth + 1 }) := by
  rw [calling]
  cases action { session with callDepth := session.callDepth + 1 } <;> rfl

/-- What statements are run inside of. -/
inductive Enclosure where
  /-- A block. -/
  | block
  /-- The body of a function that was called. -/
  | body (function : Function) (arguments : List Value)

namespace Enclosure

variable {α : Type}

/-- The session in which the statements start. -/
def start (enclosure : Enclosure) (session : Session) : Session :=
  match enclosure with
  | block => session.nested
  | body function arguments => session.entered function arguments

/-- The session in which things go on, given the one in which the statements ended. -/
def leave (enclosure : Enclosure) (outer inner : Session) : Session :=
  match enclosure with
  | block => { inner with scope := outer.scope }
  | body _ _ => { inner with scope := outer.scope, callDepth := inner.callDepth - 1 }

/-- Acts inside, and leaves however the action ends. -/
def around (enclosure : Enclosure) (action : Action α) : Action α := fun session =>
  onState (enclosure.leave session) (action (enclosure.start session))

theorem stateAfter_around (enclosure : Enclosure) (action : Action α) (session : Session) :
    stateAfter (enclosure.around action) session =
      enclosure.leave session (stateAfter action (enclosure.start session)) := by
  rw [stateAfter, stateAfter, around]
  cases action (enclosure.start session) <;> rfl

theorem around_block (action : Action α) : block.around action = (do
    let scope ← Action.openScope (← get).scope
    Action.within scope action) := by
  funext session
  change onState (block.leave session) (action session.nested) =
    Action.within session.nested.scope action { session with store := session.nested.store }
  rw [Action.within_eq]
  rfl

theorem around_body (function : Function) (arguments : List Value) (action : Action α) :
    (body function arguments).around action = (do
      let scope ← Action.openScope function.scope
      Action.bindParams scope function.declaration.params arguments
      Action.calling (Action.within scope action)) := by
  funext session
  change onState ((body function arguments).leave session)
      (action (session.entered function arguments)) =
    Action.calling (Action.within (session.entered function arguments).scope action)
      { session with store := (session.entered function arguments).store }
  rw [Action.calling_eq, Action.within_eq]
  change _ = onState _ (onState _ (action (session.entered function arguments)))
  cases action (session.entered function arguments) <;> rfl

/-- What adds names to its own scope only is sealed off by a block. -/
theorem sealed_block {action : Action α} (h : action.Tidy) : (block.around action).Sealed := by
  rw [around_block]
  exact Action.confined_get.bind fun session =>
    Action.sealed_openScope (fun scope => Action.confined_within h scope) session.scope

/-- If no call was left open inside, then leaving is going back. -/
theorem leave_eq_back (enclosure : Enclosure) {outer inner : Session}
    (h : inner.callDepth = (enclosure.start outer).callDepth) :
    enclosure.leave outer inner = outer.back inner := by
  cases enclosure with
  | block =>
    have hdepth : inner.callDepth = outer.callDepth := h
    rw [leave, Session.back, ← hdepth]
  | body function arguments =>
    have hdepth : inner.callDepth - 1 = outer.callDepth := congrArg (· - 1) h
    rw [leave, Session.back, hdepth]

/-- What puts all else back ends back in the scope and in the call outside. -/
theorem around_of_tidy (enclosure : Enclosure) {action : Action α} (h : action.Tidy)
    (session : Session) :
    enclosure.around action session = onState session.back (action (enclosure.start session)) := by
  have hdepth := (h (enclosure.start session)).callDepth
  rw [around]
  unfold stateAfter at hdepth
  generalize action (enclosure.start session) = outcome at hdepth ⊢
  cases outcome with
  | ok result inner => rw [onState, onState, enclosure.leave_eq_back hdepth]
  | error stop inner => rw [onState, onState, enclosure.leave_eq_back hdepth]

end Enclosure

/-! ## Runners -/

/-- What can be entered. -/
inductive Task where
  | eval (expr : Expr)
  | exec (stmt : Stmt)
  | call (location : Location) (callee : Value) (arguments : List Value)

/-- How an expression is come to from the one that it is a part of. -/
inductive Side where
  /-- It is a left operand, or what is called. -/
  | left
  /-- It is any other part. -/
  | right
deriving DecidableEq

/-- The parts of an expression, and how each is come to. -/
def Expr.sides : Expr → List (Side × Expr)
  | binary left _ right | logical left _ right => [(.left, left), (.right, right)]
  | unary _ operand => [(.right, operand)]
  | literal _ | var _ => []
  | assign _ value => [(.right, value)]
  | call callee _ arguments => (.left, callee) :: arguments.map (.right, ·)

/-- A way to run scripts. -/
structure Runner (m : Type → Type u) where
  /-- Makes a move. -/
  perform {α : Type} : Move α → m α
  /-- Stops. -/
  stop {α : Type} : Stop → m α
  /-- Runs inside of a block or of the body of a function. -/
  inside {α : Type} : Enclosure → m α → m α
  /-- Enters something. -/
  enter {α : Type} : Task → m α → m α
  /-- Goes into a part of an expression. -/
  part {α : Type} : Side → m α → m α

namespace Runner

section Forms

variable {m : Type → Type u} [Monad m] {α : Type} (runner : Runner m)

/-- Stops with a fault. -/
def fault (cause : FaultCause) (location : Location) : m α :=
  runner.stop (.fault ⟨cause, location⟩)

/-- Gives the result of an operation, or stops with its fault. -/
def ofExcept (location : Location) : Except FaultCause α → m α
  | .ok result => return result
  | .error cause => runner.fault cause location

/-- Executes statements up to the first that returns. -/
def execAll (exec : Stmt → m Flow) : List Stmt → m Flow
  | [] => return .normal
  | stmt :: rest => do
    match ← exec stmt with
    | .normal => execAll exec rest
    | .returned value => return .returned value

/-- Evaluates expressions from left to right. -/
def evalAll (eval : Expr → m Value) : List Expr → m (List Value)
  | [] => return []
  | expr :: rest => do
    let value ← eval expr
    return value :: (← evalAll eval rest)

/-- Calls a function that every script finds. -/
def callNative (location : Location) : Native → List Value → m Value
  | .print, arguments => do
    runner.perform (.utter (.native ((arguments.head?.map Value.text).getD "")))
    return .absent
  | .input, arguments => do
    runner.perform (.utter (.prompt location ((arguments.head?.map Value.text).getD "")))
    match ← runner.perform (.read location) with
    | some line => return .string line
    | none => return .absent

/-- Calls a function that a script declared. -/
def callFunction (exec : Stmt → m Flow) (location : Location) (function : Function)
    (arguments : List Value) : m Value := do
  runner.perform (.checkDepth location)
  match ← runner.inside (.body function arguments)
    (execAll exec function.declaration.body) with
  | .returned value => return value
  | .normal => runner.perform (.fallThrough function)

/-- Checks that a function gets as many arguments as it takes. -/
def checkArity (location : Location) (name : String) (arity : Nat) (arguments : List Value) :
    m Unit :=
  if arguments.length ≠ arity then
    runner.fault (.argumentCount name arity arguments.length) location
  else return ()

/-- Calls a value. -/
def call (exec : Stmt → m Flow) (location : Location) (callee : Value) (arguments : List Value) :
    m Value :=
  runner.enter (.call location callee arguments) do
    match callee with
    | .function f =>
      runner.checkArity location f.name f.arity arguments
      runner.callFunction exec location f arguments
    | .native f =>
      runner.checkArity location f.name f.arity arguments
      runner.callNative location f arguments
    | other => runner.fault (.notCallable other.typeName) location

/-- What an expression means, given what smaller runs mean. -/
def evalWith (eval : Expr → m Value) (exec : Stmt → m Flow) : Expr → m Value
  | .literal value => return .ofLiteral value
  | .var name => runner.perform (.lookup name)
  | .assign name expr => do
    let value ← runner.part .right (eval expr)
    runner.perform (.assign name.lexeme value)
    runner.perform (.complete (.assignment name.lexeme) value)
    return value
  | .unary operator operand => do
    let value ← runner.part .right (eval operand)
    runner.ofExcept operator.location (Value.unary operator value)
  | .binary left operator right => do
    let a ← runner.part .left (eval left)
    let b ← runner.part .right (eval right)
    runner.ofExcept operator.location (Value.binary operator a b)
  | .logical left operator right => do
    let value ← runner.part .left (eval left)
    match operator.kind with
    | .kwOr => if value.isTruthy then return .boolean true else runner.part .right (eval right)
    | .kwAnd => if value.isTruthy then runner.part .right (eval right) else return .boolean false
    | _ => runner.fault (.unsupportedOperator operator.lexeme) operator.location
  | .call callee paren arguments => do
    let function ← runner.part .left (eval callee)
    let values ← evalAll (fun expr => runner.part .right (eval expr)) arguments
    runner.call exec paren.location function values

/-- What a statement means, given what smaller runs mean. -/
def execWith (eval : Expr → m Value) (exec : Stmt → m Flow) : Stmt → m Flow
  | .expression expr => do
    let value ← eval expr
    runner.perform (.complete .expression value)
    return .normal
  | .print expr => do
    let value ← eval expr
    runner.perform (.utter (.statement expr.location value.text))
    runner.perform (.complete .print value)
    return .normal
  | .var name expr? => do
    let value ←
      match expr? with
      | some expr => eval expr
      | none => pure .absent
    runner.perform (.define name.lexeme value)
    runner.perform (.complete (.declaration name.lexeme) value)
    return .normal
  | .block body => runner.inside .block (execAll exec body)
  | .branch condition yes no? => do
    if (← eval condition).isTruthy then exec yes
    else
      match no? with
      | some no => exec no
      | none => return .normal
  | .loop condition body => do
    if (← eval condition).isTruthy then
      match ← exec body with
      | .normal => exec (.loop condition body)
      | .returned value => return .returned value
    else return .normal
  | .function name params body => do
    let function ← runner.perform (.makeFunction ⟨name, params, body⟩)
    runner.perform (.define name.lexeme (.function function))
    return .normal
  | .ret keyword expr? => do
    runner.perform (.checkCalled keyword.location)
    match expr? with
    | some expr => return .returned (← eval expr)
    | none => return .returned .absent

mutual

/-- Evaluates an expression with a number of steps. -/
def eval : Nat → Expr → m Value
  | 0, _ => runner.stop .exhausted
  | steps + 1, expr => runner.enter (.eval expr) (runner.evalWith (eval steps) (exec steps) expr)

/-- Executes a statement with a number of steps. -/
def exec : Nat → Stmt → m Flow
  | 0, _ => runner.stop .exhausted
  | steps + 1, stmt => runner.enter (.exec stmt) (runner.execWith (eval steps) (exec steps) stmt)

end

/-- Shows the last value if that was chosen and the statement is an expression. -/
def echo : Stmt → m Unit
  | .expression _ => do
    if ← runner.perform .dumps then
      let value ← runner.perform .lastValue
      runner.perform (.utter (.echo (">> " ++ value.text)))
  | _ => return

/-- Executes the statements at the top of a script. -/
def execTop (steps : Nat) : List Stmt → m Unit
  | [] => return
  | stmt :: rest => do
    let _ ← runner.exec steps stmt
    runner.echo stmt
    execTop steps rest

/-- Executes the statements of a script, and makes sure that everything written has arrived. -/
def interpret (steps : Nat) (statements : List Stmt) : m Unit := do
  runner.execTop steps statements
  runner.perform .flush

end Forms

/-! ## From one runner to another -/

/-- A map from one runner to another that respects single moves and what is entered. -/
structure Passage {m : Type → Type u} {n : Type → Type v} [Monad m] [Monad n] (runner : Runner m)
    (other : Runner n) (map : {α : Type} → m α → n α) : Prop where
  pure {α : Type} (result : α) : map (pure result) = pure result
  bind {α β : Type} (first : m α) (next : α → m β) :
    map (first >>= next) = map first >>= fun result => map (next result)
  perform {α : Type} (move : Move α) : map (runner.perform move) = other.perform move
  stop {α : Type} (reason : Stop) : map (runner.stop reason : m α) = other.stop reason
  enter {α : Type} (task : Task) (body : m α) :
    map (runner.enter task body) = other.enter task (map body)

namespace Passage

variable {m : Type → Type u} {n : Type → Type v} [Monad m] [Monad n] {runner : Runner m}
  {other : Runner n} {map : {α : Type} → m α → n α} (law : Passage runner other @map)
  {α β : Type}

include law

theorem bind_of {first : m α} {next : α → m β} {first' : n α} {next' : α → n β}
    (h : map first = first') (hnext : ∀ result, map (next result) = next' result) :
    map (first >>= next) = first' >>= next' := by
  rw [law.bind, h, funext hnext]

omit [Monad m] [Monad n] law in
theorem ite_of {condition : Prop} [Decidable condition] {yes no : m α} {yes' no' : n α}
    (hyes : map yes = yes') (hno : map no = no') :
    map (if condition then yes else no) = if condition then yes' else no' := by
  split
  · exact hyes
  · exact hno

theorem enter_of (task : Task) {body : m α} {body' : n α} (h : map body = body') :
    map (runner.enter task body) = other.enter task body' := by
  rw [law.enter, h]

theorem fault (cause : FaultCause) (location : Location) :
    map (runner.fault cause location : m α) = other.fault cause location := law.stop _

theorem ofExcept (location : Location) (result : Except FaultCause α) :
    map (runner.ofExcept location result) = other.ofExcept location result := by
  cases result with
  | ok result => exact law.pure result
  | error cause => exact law.fault cause location

theorem callNative (location : Location) (native : Native) (arguments : List Value) :
    map (runner.callNative location native arguments) =
      other.callNative location native arguments := by
  cases native with
  | print => exact law.bind_of (law.perform _) fun _ => law.pure _
  | input =>
    refine law.bind_of (law.perform _) fun _ => law.bind_of (law.perform _) fun line? => ?_
    cases line? <;> exact law.pure _

theorem checkArity (location : Location) (name : String) (arity : Nat) (arguments : List Value) :
    map (runner.checkArity location name arity arguments) =
      other.checkArity location name arity arguments :=
  ite_of (law.fault _ _) (law.pure _)

theorem echo (stmt : Stmt) : map (runner.echo stmt) = other.echo stmt := by
  cases stmt with
  | expression expr =>
    refine law.bind_of (law.perform _) fun dumps => ite_of ?_ (law.pure _)
    exact law.bind_of (law.perform _) fun value => law.perform _
  | _ => exact law.pure _

section Parts

variable {eval : Expr → m Value} {exec : Stmt → m Flow} {eval' : Expr → n Value}
  {exec' : Stmt → n Flow}

theorem evalAll {exprs : List Expr} (h : ∀ expr ∈ exprs, map (eval expr) = eval' expr) :
    map (evalAll eval exprs) = Runner.evalAll eval' exprs := by
  induction exprs with
  | nil => exact law.pure _
  | cons expr rest ih =>
    obtain ⟨hexpr, hrest⟩ := List.forall_mem_cons.mp h
    exact law.bind_of hexpr fun _ => law.bind_of (ih hrest) fun _ => law.pure _

/-- Calls are made alike if the bodies of functions are run alike. -/
theorem call
    (hinside : ∀ (function : Function) (arguments : List Value),
      map (runner.inside (.body function arguments) (execAll exec function.declaration.body)) =
        other.inside (.body function arguments) (execAll exec' function.declaration.body))
    (location : Location) (callee : Value) (arguments : List Value) :
    map (runner.call exec location callee arguments) =
      other.call exec' location callee arguments := by
  cases callee with
  | function f =>
    refine law.enter_of _ (law.bind_of (law.checkArity _ _ _ _) fun _ =>
      law.bind_of (law.perform _) fun _ => law.bind_of (hinside f arguments) fun flow => ?_)
    cases flow with
    | normal => exact law.perform _
    | returned value => exact law.pure _
  | native f =>
    exact law.enter_of _ (law.bind_of (law.checkArity _ _ _ _) fun _ =>
      law.callNative location f arguments)
  | _ => exact law.enter_of _ (law.fault _ _)

/-- An expression is evaluated alike if its parts are, and if calls are made alike. -/
theorem evalWith {expr : Expr}
    (hpart : ∀ part ∈ expr.sides,
      map (runner.part part.1 (eval part.2)) = other.part part.1 (eval' part.2))
    (hcall : ∀ location callee arguments, map (runner.call exec location callee arguments) =
      other.call exec' location callee arguments) :
    map (runner.evalWith eval exec expr) = other.evalWith eval' exec' expr := by
  cases expr with
  | literal value => exact law.pure _
  | var name => exact law.perform _
  | assign name value =>
    exact law.bind_of (hpart _ (.head _)) fun _ => law.bind_of (law.perform _) fun _ =>
      law.bind_of (law.perform _) fun _ => law.pure _
  | unary operator operand =>
    exact law.bind_of (hpart _ (.head _)) fun _ => law.ofExcept _ _
  | binary left operator right =>
    exact law.bind_of (hpart _ (.head _)) fun _ =>
      law.bind_of (hpart _ (.tail _ (.head _))) fun _ => law.ofExcept _ _
  | logical left operator right =>
    have hright := hpart _ (.tail _ (.head _))
    refine law.bind_of (hpart _ (.head _)) fun value => ?_
    cases operator.kind with
    | kwOr => exact ite_of (law.pure _) hright
    | kwAnd => exact ite_of hright (law.pure _)
    | _ => exact law.fault _ _
  | call callee paren arguments =>
    obtain ⟨hcallee, harguments⟩ := List.forall_mem_cons.mp hpart
    exact law.bind_of hcallee fun function =>
      law.bind_of (law.evalAll fun argument hmem => harguments _ (List.mem_map_of_mem hmem))
        fun values => hcall _ function values

end Parts

end Passage

/-- A map from one runner to another that also respects how things stand inside each other. -/
structure Morphism {m : Type → Type u} {n : Type → Type v} [Monad m] [Monad n] (runner : Runner m)
    (other : Runner n) (map : {α : Type} → m α → n α) : Prop
    extends Passage runner other @map where
  inside {α : Type} (enclosure : Enclosure) (body : m α) :
    map (runner.inside enclosure body) = other.inside enclosure (map body)
  part {α : Type} (side : Side) (body : m α) :
    map (runner.part side body) = other.part side (map body)

namespace Morphism

variable {m : Type → Type u} {n : Type → Type v} [Monad m] [Monad n] {runner : Runner m}
  {other : Runner n} {map : {α : Type} → m α → n α} (law : Morphism runner other @map)
  {α β : Type}

include law

section Parts

variable {eval : Expr → m Value} {exec : Stmt → m Flow} {eval' : Expr → n Value}
  {exec' : Stmt → n Flow}

theorem execAll (hexec : ∀ stmt, map (exec stmt) = exec' stmt) (body : List Stmt) :
    map (execAll exec body) = Runner.execAll exec' body := by
  induction body with
  | nil => exact law.pure _
  | cons stmt rest ih =>
    refine law.bind_of (hexec stmt) fun flow => ?_
    cases flow with
    | normal => exact ih
    | returned value => exact law.pure _

theorem call (hexec : ∀ stmt, map (exec stmt) = exec' stmt) (location : Location) (callee : Value)
    (arguments : List Value) :
    map (runner.call exec location callee arguments) =
      other.call exec' location callee arguments := by
  refine law.toPassage.call (fun function values => ?_) location callee arguments
  rw [law.inside, law.execAll hexec]

theorem execWith (heval : ∀ expr, map (eval expr) = eval' expr)
    (hexec : ∀ stmt, map (exec stmt) = exec' stmt) (stmt : Stmt) :
    map (runner.execWith eval exec stmt) = other.execWith eval' exec' stmt := by
  have hlast (completion : Completion) (value : Value) :
      map (do runner.perform (.complete completion value); return Flow.normal) =
        do other.perform (.complete completion value); return Flow.normal :=
    law.bind_of (law.perform _) fun _ => law.pure _
  cases stmt with
  | expression expr => exact law.bind_of (heval expr) (hlast _)
  | print expr =>
    exact law.bind_of (heval expr) fun value => law.bind_of (law.perform _) fun _ => hlast _ value
  | var name expr? =>
    cases expr? with
    | some expr =>
      exact law.bind_of (heval expr) fun value => law.bind_of (law.perform _) fun _ => hlast _ value
    | none =>
      exact law.bind_of (law.pure _) fun value => law.bind_of (law.perform _) fun _ => hlast _ value
  | block body =>
    change map (runner.inside .block (Runner.execAll exec body)) = _
    rw [law.inside, law.execAll hexec]
    rfl
  | branch condition yes no? =>
    refine law.bind_of (heval condition) fun value => Passage.ite_of (hexec yes) ?_
    cases no? with
    | some no => exact hexec no
    | none => exact law.pure _
  | loop condition body =>
    refine law.bind_of (heval condition) fun value => Passage.ite_of ?_ (law.pure _)
    refine law.bind_of (hexec body) fun flow => ?_
    cases flow with
    | normal => exact hexec (.loop condition body)
    | returned value => exact law.pure _
  | function name params body =>
    exact law.bind_of (law.perform _) fun _ => law.bind_of (law.perform _) fun _ => law.pure _
  | ret keyword expr? =>
    refine law.bind_of (law.perform _) fun _ => ?_
    cases expr? with
    | some expr => exact law.bind_of (heval expr) fun _ => law.pure _
    | none => exact law.pure _

end Parts

theorem steps (steps : Nat) :
    (∀ expr, map (runner.eval steps expr) = other.eval steps expr) ∧
      ∀ stmt, map (runner.exec steps stmt) = other.exec steps stmt := by
  induction steps with
  | zero => exact ⟨fun _ => law.stop _, fun _ => law.stop _⟩
  | succ steps ih =>
    refine ⟨fun expr => ?_, fun stmt => ?_⟩
    · rw [Runner.eval, Runner.eval]
      refine law.enter_of _ (law.evalWith (fun part _ => ?_) (law.call ih.2))
      rw [law.part, ih.1]
    · rw [Runner.exec, Runner.exec, law.enter, law.execWith ih.1 ih.2]

/-- **Expressions are evaluated alike.** -/
theorem eval (steps : Nat) (expr : Expr) :
    map (runner.eval steps expr) = other.eval steps expr := (law.steps steps).1 expr

/-- **Statements are executed alike.** -/
theorem exec (steps : Nat) (stmt : Stmt) :
    map (runner.exec steps stmt) = other.exec steps stmt := (law.steps steps).2 stmt

theorem execTop (steps : Nat) (statements : List Stmt) :
    map (runner.execTop steps statements) = other.execTop steps statements := by
  induction statements with
  | nil => exact law.pure _
  | cons stmt rest ih =>
    exact law.bind_of (law.exec steps stmt) fun _ => law.bind_of (law.echo stmt) fun _ => ih

/-- **Scripts are run alike.** -/
theorem interpret (steps : Nat) (statements : List Stmt) :
    map (runner.interpret steps statements) = other.interpret steps statements :=
  law.bind_of (law.execTop steps statements) fun _ => law.perform _

end Morphism

end Runner

/-! ## Running in a session -/

namespace Action

/-- The runner of sessions. -/
def runner : Runner Action where
  perform := Move.action
  stop := throw
  inside := Enclosure.around
  enter _ body := body
  part _ body := body

variable (eval : Expr → Action Value) (exec : Stmt → Action Flow)

theorem runner_ofExcept {α : Type} (location : Location) (result : Except FaultCause α) :
    runner.ofExcept location result = ofExcept location result := by
  cases result <;> rfl

theorem runner_execAll (body : List Stmt) : Runner.execAll exec body = execAll exec body := by
  induction body with
  | nil => rfl
  | cons stmt rest ih =>
    refine bind_congr fun flow => ?_
    cases flow with
    | normal => exact ih
    | returned value => rfl

theorem runner_evalAll (exprs : List Expr) : Runner.evalAll eval exprs = evalAll eval exprs := by
  induction exprs with
  | nil => rfl
  | cons expr rest ih => rw [Runner.evalAll, evalAll, ih]

theorem runner_callNative (location : Location) (native : Native) (arguments : List Value) :
    runner.callNative location native arguments = callNative location native arguments := by
  cases native with
  | print => rfl
  | input => rfl

theorem runner_callFunction (location : Location) (function : Function) (arguments : List Value) :
    runner.callFunction exec location function arguments =
      callFunction exec location function arguments := by
  rw [callFunction_eq, Runner.callFunction, runner_execAll]
  refine bind_congr fun _ => ?_
  change (Enclosure.body function arguments).around _ >>= _ = _
  rw [Enclosure.around_body]
  simp only [bind_assoc]
  rfl

theorem runner_call (location : Location) (callee : Value) (arguments : List Value) :
    runner.call exec location callee arguments = call exec location callee arguments := by
  cases callee with
  | function f => exact bind_congr fun _ => runner_callFunction exec location f arguments
  | native f => exact bind_congr fun _ => runner_callNative location f arguments
  | _ => rfl

theorem runner_evalWith (expr : Expr) :
    runner.evalWith eval exec expr = evalWith eval exec expr := by
  cases expr with
  | unary operator operand => exact bind_congr fun _ => runner_ofExcept _ _
  | binary left operator right =>
    exact bind_congr fun _ => bind_congr fun _ => runner_ofExcept _ _
  | call callee paren arguments =>
    refine bind_congr fun function => ?_
    change Runner.evalAll eval arguments >>= _ = _
    rw [runner_evalAll]
    exact bind_congr fun values => runner_call exec _ function values
  | _ => rfl

/-- A return is refused before its value is looked at. -/
theorem runner_ret (keyword : Token) (expr? : Option Expr) :
    runner.execWith eval exec (.ret keyword expr?) = execWith eval exec (.ret keyword expr?) := by
  funext session
  by_cases hdepth : session.callDepth = 0
  · rw [execWith_ret_outside keyword expr? hdepth]
    exact bind_of_error (@Move.checkCalled_of_eq keyword.location session hdepth)
  · refine (bind_of_ok (@Move.checkCalled_of_ne keyword.location session hdepth)).trans ?_
    cases expr? with
    | some expr => rw [execWith_ret_some keyword expr hdepth]
    | none => rw [execWith_ret_none keyword hdepth]; rfl

theorem runner_execWith (stmt : Stmt) :
    runner.execWith eval exec stmt = execWith eval exec stmt := by
  cases stmt with
  | block body =>
    change Enclosure.block.around (Runner.execAll exec body) = _
    rw [runner_execAll, Enclosure.around_block]
    rfl
  | ret keyword expr? => exact runner_ret eval exec keyword expr?
  | _ => rfl

theorem runner_steps (steps : Nat) :
    (∀ expr, runner.eval steps expr = Action.eval steps expr) ∧
      ∀ stmt, runner.exec steps stmt = Action.exec steps stmt := by
  induction steps with
  | zero => exact ⟨fun _ => rfl, fun _ => rfl⟩
  | succ steps ih =>
    have heval := funext ih.1
    have hexec := funext ih.2
    refine ⟨fun expr => ?_, fun stmt => ?_⟩
    · rw [Runner.eval, Action.eval, ← heval, ← hexec]
      exact runner_evalWith _ _ expr
    · rw [Runner.exec, Action.exec, ← heval, ← hexec]
      exact runner_execWith _ _ stmt

theorem runner_echo (stmt : Stmt) : runner.echo stmt = echo stmt := by
  cases stmt with
  | expression expr =>
    funext session
    change (if session.options.dump = true then _ else _ : Action Unit) session =
      (if session.options.dump = true then _ else _ : Action Unit) session
    cases session.options.dump <;> rfl
  | _ => rfl

theorem runner_execTop (steps : Nat) (statements : List Stmt) :
    runner.execTop steps statements = execTop steps statements := by
  induction statements with
  | nil => rfl
  | cons stmt rest ih =>
    rw [Runner.execTop, execTop, ih, runner_echo, (runner_steps steps).2]

end Action

namespace Runner.Morphism

variable {m : Type → Type u} [Monad m] {runner : Runner m} {map : {α : Type} → m α → Action α}
  (law : Morphism runner Action.runner @map)
  {eval : Expr → m Value} {exec : Stmt → m Flow} {eval' : Expr → Action Value}
  {exec' : Stmt → Action Flow}

include law

theorem run_execAll (hexec : ∀ stmt, map (exec stmt) = exec' stmt) (body : List Stmt) :
    map (Runner.execAll exec body) = Action.execAll exec' body :=
  (law.execAll hexec body).trans (Action.runner_execAll exec' body)

theorem run_call (hexec : ∀ stmt, map (exec stmt) = exec' stmt) (location : Location)
    (callee : Value) (arguments : List Value) :
    map (runner.call exec location callee arguments) =
      Action.call exec' location callee arguments :=
  (law.call hexec location callee arguments).trans
    (Action.runner_call exec' location callee arguments)

theorem run_execWith (heval : ∀ expr, map (eval expr) = eval' expr)
    (hexec : ∀ stmt, map (exec stmt) = exec' stmt) (stmt : Stmt) :
    map (runner.execWith eval exec stmt) = Action.execWith eval' exec' stmt :=
  (law.execWith heval hexec stmt).trans (Action.runner_execWith eval' exec' stmt)

/-- **A map to the runner of sessions leads to evaluation.** -/
theorem run_eval (steps : Nat) (expr : Expr) :
    map (runner.eval steps expr) = Action.eval steps expr :=
  (law.eval steps expr).trans ((Action.runner_steps steps).1 expr)

/-- **A map to the runner of sessions leads to execution.** -/
theorem run_exec (steps : Nat) (stmt : Stmt) :
    map (runner.exec steps stmt) = Action.exec steps stmt :=
  (law.exec steps stmt).trans ((Action.runner_steps steps).2 stmt)

/-- **A map to the runner of sessions leads to running scripts.** -/
theorem run_interpret (steps : Nat) (statements : List Stmt) :
    map (runner.interpret steps statements) = Action.interpret steps statements := by
  refine (law.interpret steps statements).trans ?_
  rw [Runner.interpret, Action.runner_execTop]
  rfl

end Runner.Morphism

end Scriptlet
