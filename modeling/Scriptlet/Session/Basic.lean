import Scriptlet.Store
import Scriptlet.Terminal.Basic
import Scriptlet.Value.Operator

/-!
# Sessions

A session is everything a running script can change: the scopes, the terminal, the last value,
and how many calls are open. It outlives a run, so that several scripts can be run one after the
other and see what the earlier ones left behind.

An action changes a session and gives a result, or stops. The session survives a stop: what was
written and bound up to then stays, while the current scope and the number of open calls are put
back on the way out.

## Main definitions

* `Options`, `Session`, `Session.start` — a session, and how it starts
* `Stop`, `Action` — why an action stops, and actions
* `Action.within`, `Action.calling` — an action in another scope, and in a call
* `Action.onTerminal` — what a terminal does, with its errors as faults
-/

namespace Scriptlet

/-- What can be chosen about a session. -/
structure Options where
  /-- Whether the value of each expression statement at the top of a script is shown. -/
  dump : Bool := false
  /-- How many calls may be open at once. -/
  maxCallDepth : Nat := 128
deriving DecidableEq, Inhabited

/-- What a running script can change. -/
structure Session where
  /-- All scopes. -/
  store : Store
  /-- The scope of the names that every script finds and of those bound at its top. -/
  globals : ScopeId
  /-- The scope of the statement that runs. -/
  scope : ScopeId
  /-- Where the script writes to and reads from. -/
  terminal : Terminal
  /-- What was chosen about the session. -/
  options : Options
  /-- The value of the last expression statement, printed expression or assignment. -/
  lastValue : Value
  /-- How many calls are open. -/
  callDepth : Nat
  /-- How many functions were made; the next one gets this number as its identity. -/
  functions : Nat
deriving Inhabited

namespace Session

/-- A new session, in which only the functions that every script finds are bound. -/
def start (terminal : Terminal) (options : Options) : Session :=
  let (globals, store) := Store.openOutermost {}
  let bind (store : Store) (f : Native) : Store := store.define globals f.name (.native f)
  { store := Native.all.foldl bind store
    globals, scope := globals, terminal, options
    lastValue := .absent, callDepth := 0, functions := 0 }

/-- The value of a name at the top of a script. -/
def global? (session : Session) (name : String) : Option Value :=
  session.store.get? session.globals name

/-- The session with a name bound at the top of a script. -/
def defineGlobal (session : Session) (name : String) (value : Value) : Session :=
  { session with store := session.store.define session.globals name value }

/-- The session after an assignment at the top of a script. -/
def assignGlobal (session : Session) (name : String) (value : Value) : Session :=
  { session with store := session.store.assign session.globals name value }

/-- The line that describes the names bound at the top of a script. -/
def describeGlobals (session : Session) : String := session.store.describe session.globals

end Session

/-- Why an action stops. -/
inductive Stop where
  /-- The script is at fault. -/
  | fault (fault : Fault)
  /-- The run was given too few steps to end. -/
  | exhausted
deriving DecidableEq

/-- A change of a session that gives a result or stops. -/
abbrev Action (α : Type) := EStateM Stop Session α

namespace Action

variable {α : Type}

/-- Stops with a fault. -/
def fault (cause : FaultCause) (location : Location) : Action α := throw (.fault ⟨cause, location⟩)

/-- Gives the result of an operation, or stops with its fault. -/
def ofExcept (location : Location) : Except FaultCause α → Action α
  | .ok result => pure result
  | .error cause => fault cause location

/-! ## Names -/

/-- The value of a name in the current scope. -/
def lookup (name : Token) : Action Value := do
  let session ← get
  match session.store.get? session.scope name.lexeme with
  | some value => return value
  | none => fault (.undefinedVariable name.lexeme) name.location

/-- Binds a name in the current scope. -/
def define (name : String) (value : Value) : Action Unit :=
  modify fun session => { session with store := session.store.define session.scope name value }

/-- Assigns to a name from the current scope. -/
def assign (name : String) (value : Value) : Action Unit :=
  modify fun session => { session with store := session.store.assign session.scope name value }

/-- Makes a value the last value. -/
def remember (value : Value) : Action Unit :=
  modify fun session => { session with lastValue := value }

/-- Makes a function of a declaration that is executed in the current scope. -/
def makeFunction (declaration : FunctionDecl) : Action Function :=
  modifyGet fun session =>
    (⟨session.functions, declaration, session.scope⟩,
      { session with functions := session.functions + 1 })

/-! ## Scopes and calls -/

/-- Opens a scope inside another, without entering it. -/
def openScope (enclosing : ScopeId) : Action ScopeId :=
  modifyGet fun session =>
    let (scope, store) := session.store.openEnclosed enclosing
    (scope, { session with store })

/-- Binds parameters to arguments in a scope. Of two parameters with one name the later wins. -/
def bindParams (scope : ScopeId) (params : List Token) (arguments : List Value) : Action Unit :=
  modify fun session =>
    { session with
      store := (params.zip arguments).foldl (fun store (param, argument) =>
        store.define scope param.lexeme argument) session.store }

/-- Acts in a scope, and goes back to the current one however the action ends. -/
def within (scope : ScopeId) (action : Action α) : Action α := fun session =>
  let outer := session.scope
  match action { session with scope } with
  | .ok result session => .ok result { session with scope := outer }
  | .error stop session => .error stop { session with scope := outer }

/-- Acts with one more call open, which is closed however the action ends. -/
def calling (action : Action α) : Action α := fun session =>
  match action { session with callDepth := session.callDepth + 1 } with
  | .ok result session => .ok result { session with callDepth := session.callDepth - 1 }
  | .error stop session => .error stop { session with callDepth := session.callDepth - 1 }

/-! ## The terminal -/

/-- Does something with the terminal; an error is a fault at a place of the script. -/
def onTerminal (location : Location) (action : EStateM IoError Terminal α) : Action α :=
  fun session =>
    match action session.terminal with
    | .ok result terminal => .ok result { session with terminal }
    | .error error terminal =>
      .error (.fault ⟨.io error, location⟩) { session with terminal }

/-- Does something with the terminal and takes no notice of an error. -/
def onTerminalQuietly (action : EStateM IoError Terminal Unit) : Action Unit := fun session =>
  match action session.terminal with
  | .ok _ terminal => .ok () { session with terminal }
  | .error _ terminal => .ok () { session with terminal }

end Action

end Scriptlet
