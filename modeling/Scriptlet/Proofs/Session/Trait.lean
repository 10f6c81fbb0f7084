import Scriptlet.Proofs.Session.Activity
import Scriptlet.Proofs.Session.Layout
import Scriptlet.Proofs.Session.Replay
import Scriptlet.Proofs.Session.Trace
import Scriptlet.Proofs.Store.Region
import Scriptlet.Proofs.Syntax.Parts

/-!
# What runs pass on from the trees

A run comes across the expressions and statements of the script, and across those of functions that
were declared earlier, maybe by another script. A trait is a property of trees that their parts have
as well. If the script has it, and every function that is bound somewhere, then everything that is
entered has it, every function made has it, and the faults that can arise are those that trees with
the trait can cause.

## Main definitions

* `Trait` — a property of expressions and statements, and of the faults they can cause
* `Trait.Lawful` — the parts of a tree with the trait have it, and its faults are as stated
* `Trait.Values`, `Trait.Holds` — values and sessions in which all functions have the trait
* `Trait.Keeps`, `Trait.Bears` — the trait is left behind, and whatever is entered has it
* `Session.afterRuns` — a session in which several scripts were run

## Main results

* `Trait.Lawful.lawful` — all runs of trees with the trait bear it
* `Trait.Lawful.run`, `Trait.Lawful.afterRuns` — scripts that are read and run, one after the other
-/

namespace Scriptlet

open Scriptlet.Action

/-- Why a call can fail before the body of a function is entered. -/
inductive FaultCause.OfCall : FaultCause → Prop
  | notCallable (found : String) : OfCall (.notCallable found)
  | argumentCount (function : String) (expected found : Nat) :
      OfCall (.argumentCount function expected found)
  | stackOverflow (limit : Nat) : OfCall (.stackOverflow limit)
  | io (error : IoError) : OfCall (.io error)

/-- A property of expressions and statements, and of the faults they can cause. -/
structure Trait where
  exprs : Expr → Prop
  stmts : Stmt → Prop
  faults : Fault → Prop

/-- The session after scripts were run in it, each with a number of steps. -/
def Session.afterRuns (session : Session) (history : List (Nat × String)) : Session :=
  session.afterAll (history.map fun step => (step.1, .run step.2))

namespace Trait

variable (trait : Trait)

/-- **What has to be shown about a trait.** -/
structure Lawful : Prop where
  part : ∀ {expr part}, trait.exprs expr → part ∈ expr.parts → trait.exprs part
  value : ∀ {stmt expr}, trait.stmts stmt → expr ∈ stmt.exprs → trait.exprs expr
  inside : ∀ {stmt part}, trait.stmts stmt → part ∈ stmt.parts → trait.stmts part
  var : ∀ {name}, trait.exprs (.var name) →
    trait.faults ⟨.undefinedVariable name.lexeme, name.location⟩
  unary : ∀ {operator operand value cause}, trait.exprs (.unary operator operand) →
    Value.unary operator value = .error cause → trait.faults ⟨cause, operator.location⟩
  binary : ∀ {left operator right a b cause}, trait.exprs (.binary left operator right) →
    Value.binary operator a b = .error cause → trait.faults ⟨cause, operator.location⟩
  logical : ∀ {left operator right}, trait.exprs (.logical left operator right) →
    operator.kind ≠ .kwOr → operator.kind ≠ .kwAnd →
      trait.faults ⟨.unsupportedOperator operator.lexeme, operator.location⟩
  call : ∀ {callee paren arguments cause}, trait.exprs (.call callee paren arguments) →
    cause.OfCall → trait.faults ⟨cause, paren.location⟩
  print : ∀ {value error}, trait.stmts (.print value) → trait.faults ⟨.io error, value.location⟩
  ret : ∀ {keyword value?}, trait.stmts (.ret keyword value?) →
    trait.faults ⟨.returnOutsideFunction, keyword.location⟩
  /-- Showing a value and flushing have no place in the script. -/
  terminal : ∀ error, trait.faults ⟨.io error, .unknown⟩

/-- A value that is no function, or one whose body has the trait. -/
def Values : Value → Prop
  | .function f => ∀ stmt ∈ f.declaration.body, trait.stmts stmt
  | _ => True

theorem values_ofLiteral (literal : Literal) : trait.Values (.ofLiteral literal) := by
  cases literal <;> trivial

/-- What a run may stop with. -/
def Stops : Stop → Prop
  | .fault fault => trait.faults fault
  | .exhausted => True

/-- What may be entered. -/
def Tasks : Task → Prop
  | .eval expr => trait.exprs expr
  | .exec stmt => trait.stmts stmt
  | .call _ callee arguments => trait.Values callee ∧ ∀ argument ∈ arguments, trait.Values argument

/-- What statements may be run inside of. -/
def Encloses : Enclosure → Prop
  | .block => True
  | .body _ arguments => ∀ argument ∈ arguments, trait.Values argument

/-- A script whose statements have the trait, if it can be read. -/
def Sources (source : String) : Prop :=
  ∀ ⦃parser statements stop⦄, Parser.ofSource source = .ok parser →
    Parse.program parser = .ok statements stop → ∀ stmt ∈ statements, trait.stmts stmt

/-- Every function of a session has the trait: all those bound in a scope, and the last value. -/
structure Holds (session : Session) : Prop where
  bound : ∀ ⦃id name value⦄, session.store.binding? id name = some value → trait.Values value
  lastValue : trait.Values session.lastValue

variable {α β : Type}

/-- An outcome that leaves the trait behind. -/
inductive Ends (post : α → Prop) : EStateM.Result Stop Session α → Prop
  | ok {result : α} {after : Session} : trait.Holds after → post result →
      Ends post (.ok result after)
  | error {stop : Stop} {after : Session} : trait.Holds after → trait.Stops stop →
      Ends post (.error stop after)

/-- An action that leaves the trait behind. -/
def Keeps (post : α → Prop) (action : Action α) : Prop :=
  ∀ ⦃session⦄, trait.Holds session → trait.Ends post (action session)

/-- Next to leaving the trait behind, whatever is entered has it, in a session that has it. -/
structure Bears (post : α → Prop) (traced : Traced α) : Prop where
  log : ∀ ⦃session⦄, trait.Holds session → ∀ event ∈ traced.log session,
    trait.Tasks event.task ∧ trait.Holds event.session
  run : trait.Keeps post traced.run

/-- Bearing the trait, as a discipline for the trees that have it. -/
def discipline : Discipline Traced Unit where
  le _ _ := True
  exprs := trait.exprs
  stmts := trait.stmts
  values _ := trait.Values
  Runs _ post := trait.Bears (post ())

variable {trait} {post : α → Prop} {post' : β → Prop}

/-! ## Sessions -/

theorem Holds.get? {session : Session} (h : trait.Holds session) {id : ScopeId} {name : String}
    {value : Value} (hvalue : session.store.get? id name = some value) : trait.Values value := by
  obtain ⟨found, _, hbinding⟩ := List.exists_of_findSome?_eq_some hvalue
  exact h.bound hbinding

theorem Holds.define {session : Session} (h : trait.Holds session) (id : ScopeId) (name : String)
    {value : Value} (hvalue : trait.Values value) :
    trait.Holds { session with store := session.store.define id name value } where
  bound _ _ _ hbinding := by
    rcases Store.eq_or_of_binding?_define hbinding with ⟨_, rfl⟩ | hold
    · exact hvalue
    · exact h.bound hold
  lastValue := h.lastValue

theorem Holds.openEnclosed {session : Session} (h : trait.Holds session) (scope : ScopeId) :
    trait.Holds { session with store := (session.store.openEnclosed scope).2 } where
  bound _ _ _ hbinding := h.bound (Store.of_binding?_add hbinding).2
  lastValue := h.lastValue

theorem Holds.bindParams {session : Session} (h : trait.Holds session) (scope : ScopeId)
    {bindings : List (Token × Value)} (hvalues : ∀ binding ∈ bindings, trait.Values binding.2) :
    trait.Holds { session with
      store := bindings.foldl (fun store (param, argument) =>
        store.define scope param.lexeme argument) session.store } := by
  induction bindings generalizing session with
  | nil => exact h
  | cons binding bindings ih =>
    have hfirst := h.define scope binding.1.lexeme (hvalues binding List.mem_cons_self)
    exact ih hfirst fun binding hmem => hvalues binding (List.mem_cons_of_mem _ hmem)

/-- Only the bindings and the last value matter. -/
theorem Holds.of_eq {session other : Session} (h : trait.Holds session)
    (hstore : other.store = session.store) (hlast : other.lastValue = session.lastValue) :
    trait.Holds other := by
  refine ⟨fun id name value hbinding => ?_, hlast ▸ h.lastValue⟩
  rw [hstore] at hbinding
  exact h.bound hbinding

/-- Statements of blocks and of bodies start in a session with the trait. -/
theorem Holds.start {session : Session} (h : trait.Holds session) {enclosure : Enclosure}
    (henclosure : trait.Encloses enclosure) : trait.Holds (enclosure.start session) := by
  cases enclosure with
  | block => exact (h.openEnclosed session.scope).of_eq rfl rfl
  | body function arguments =>
    have hvalues (binding : Token × Value)
        (hmem : binding ∈ function.declaration.params.zip arguments) : trait.Values binding.2 :=
      henclosure binding.2 (List.of_mem_zip hmem).2
    have hbound := (h.openEnclosed function.scope).bindParams
      (session.store.openEnclosed function.scope).1 hvalues
    exact hbound.of_eq rfl rfl

theorem Holds.leave {inner : Session} (h : trait.Holds inner) (enclosure : Enclosure)
    (outer : Session) : trait.Holds (enclosure.leave outer inner) := by
  cases enclosure with
  | block => exact h.of_eq rfl rfl
  | body function arguments => exact h.of_eq rfl rfl

/-- In a new session no function is bound that a script declared. -/
theorem holds_start (terminal : Terminal) (options : Options) :
    trait.Holds (Session.start terminal options) := by
  refine ⟨fun id name value hvalue => ?_, trivial⟩
  rcases Store.eq_or_of_binding?_define hvalue with ⟨_, rfl⟩ | hvalue
  · trivial
  rcases Store.eq_or_of_binding?_define hvalue with ⟨_, rfl⟩ | hvalue
  · trivial
  · obtain ⟨_, hempty⟩ := Store.of_binding?_add hvalue
    simp [Store.binding?, Store.scope?] at hempty

/-! ## Actions -/

namespace Keeps

theorem pure {result : α} (h : post result) : trait.Keeps post (pure result : Action α) :=
  fun _ hsession => .ok hsession h

theorem bind {action : Action α} {next : α → Action β} (h : trait.Keeps post action)
    (hnext : ∀ result, post result → trait.Keeps post' (next result)) :
    trait.Keeps post' (action >>= next) := by
  intro session hsession
  have hends := h hsession
  cases haction : action session with
  | ok result middle =>
    rw [haction] at hends
    rw [bind_of_ok haction]
    cases hends with
    | ok hmiddle hresult => exact hnext result hresult hmiddle
  | error stop middle =>
    rw [haction] at hends
    rw [bind_of_error haction]
    cases hends with
    | error hmiddle hstop => exact .error hmiddle hstop

theorem ite {action other : Action α} {condition : Prop} [Decidable condition]
    (h : trait.Keeps post action) (hother : trait.Keeps post other) :
    trait.Keeps post (if condition then action else other) := by
  split
  · exact h
  · exact hother

theorem get : trait.Keeps trait.Holds (get : Action Session) :=
  fun _ hsession => .ok hsession hsession

theorem modify {change : Session → Session}
    (h : ∀ ⦃session⦄, trait.Holds session → trait.Holds (change session)) :
    trait.Keeps (fun _ => True) (modify change : Action Unit) :=
  fun _ hsession => .ok (h hsession) trivial

theorem fault {cause : FaultCause} {location : Location} (h : trait.faults ⟨cause, location⟩) :
    trait.Keeps post (fault cause location : Action α) :=
  fun _ hsession => .error hsession h

theorem ofExcept {location : Location} {result : Except FaultCause α}
    (hok : ∀ value, result = .ok value → post value)
    (herror : ∀ cause, result = .error cause → trait.faults ⟨cause, location⟩) :
    trait.Keeps post (ofExcept location result) := by
  cases result with
  | ok value => exact .pure (hok value rfl)
  | error cause => exact .fault (herror cause rfl)

theorem onTerminal {location : Location} (h : ∀ error, trait.faults ⟨.io error, location⟩)
    (action : EStateM IoError Terminal α) :
    trait.Keeps (fun _ => True) (onTerminal location action) := by
  intro session hsession
  unfold Action.onTerminal
  cases action session.terminal with
  | ok result terminal => exact .ok (hsession.of_eq rfl rfl) trivial
  | error error terminal => exact .error (hsession.of_eq rfl rfl) (h error)

theorem onTerminalQuietly (action : EStateM IoError Terminal Unit) :
    trait.Keeps (fun _ => True) (onTerminalQuietly action) := by
  intro session hsession
  unfold Action.onTerminalQuietly
  cases action session.terminal with
  | ok result terminal => exact .ok (hsession.of_eq rfl rfl) trivial
  | error error terminal => exact .ok (hsession.of_eq rfl rfl) trivial

theorem lookup {name : Token}
    (h : trait.faults ⟨.undefinedVariable name.lexeme, name.location⟩) :
    trait.Keeps trait.Values (lookup name) := by
  intro session hsession
  have hget : (MonadState.get : Action Session) session = .ok session session := rfl
  rw [Action.lookup, bind_of_ok hget]
  cases hvalue : session.store.get? session.scope name.lexeme with
  | some value => exact .ok hsession (hsession.get? hvalue)
  | none => exact .error hsession h

theorem remember {value : Value} (h : trait.Values value) :
    trait.Keeps (fun _ => True) (remember value) :=
  modify fun _ hsession => ⟨hsession.bound, h⟩

theorem define (name : String) {value : Value} (h : trait.Values value) :
    trait.Keeps (fun _ => True) (define name value) :=
  modify fun _ hsession => hsession.define _ name h

theorem assign (name : String) {value : Value} (h : trait.Values value) :
    trait.Keeps (fun _ => True) (assign name value) :=
  modify fun _ hsession => hsession.define _ name h

theorem makeFunction {declaration : FunctionDecl}
    (h : ∀ stmt ∈ declaration.body, trait.stmts stmt) :
    trait.Keeps (fun f => trait.Values (.function f)) (makeFunction declaration) :=
  fun _ hsession => .ok (hsession.of_eq rfl rfl) h

theorem checkDepth {location : Location}
    (h : ∀ limit, trait.faults ⟨.stackOverflow limit, location⟩) :
    trait.Keeps (fun _ => True) (checkDepth location) := by
  intro session hsession
  unfold Action.checkDepth
  split
  · exact .error hsession (h _)
  · exact .ok hsession trivial

theorem checkCalled {location : Location} (h : trait.faults ⟨.returnOutsideFunction, location⟩) :
    trait.Keeps (fun _ => True) (Move.checkCalled location).action := by
  intro session hsession
  by_cases hdepth : session.callDepth = 0
  · rw [Move.checkCalled_of_eq hdepth]
    exact .error hsession h
  · rw [Move.checkCalled_of_ne hdepth]
    exact .ok hsession trivial

theorem checkArity {location : Location} {name : String} {arity : Nat} {arguments : List Value}
    (h : trait.faults ⟨.argumentCount name arity arguments.length, location⟩) :
    trait.Keeps (fun _ => True) (checkArity location name arity arguments) :=
  .ite (.fault h) (.pure trivial)

theorem callNative {location : Location} (h : ∀ error, trait.faults ⟨.io error, location⟩)
    (f : Native) (arguments : List Value) :
    trait.Keeps trait.Values (callNative location f arguments) := by
  cases f with
  | print => exact (onTerminalQuietly _).bind fun _ _ => .pure trivial
  | input =>
    refine (onTerminal h _).bind fun _ _ => (onTerminal h _).bind fun line? _ => ?_
    cases line? with
    | some line => exact .pure trivial
    | none => exact .pure trivial

theorem echo (h : ∀ error, trait.faults ⟨.io error, .unknown⟩) (stmt : Stmt) :
    trait.Keeps (fun _ => True) (echo stmt) := by
  cases stmt with
  | expression value => exact get.bind fun session _ => .ite (onTerminal h _) (.pure trivial)
  | _ => exact .pure trivial

end Keeps

/-! ## Traced actions -/

namespace Bears

theorem silent {action : Action α} (h : trait.Keeps post action) :
    trait.Bears post (Traced.silent action) where
  log _ _ _ hmem := nomatch hmem
  run := h

theorem bind {first : Traced α} {next : α → Traced β} (h : trait.Bears post first)
    (hnext : ∀ result, post result → trait.Bears post' (next result)) :
    trait.Bears post' (first >>= next) where
  log session hsession event hmem := by
    rcases Traced.mem_log_bind hmem with hfirst | ⟨result, middle, hfirst, hsecond⟩
    · exact h.log hsession event hfirst
    · have hends := h.run hsession
      rw [hfirst] at hends
      cases hends with
      | ok hmiddle hresult => exact (hnext result hresult).log hmiddle event hsecond
  run := h.run.bind fun result hresult => (hnext result hresult).run

theorem enter {task : Task} {traced : Traced α} (htask : trait.Tasks task)
    (h : trait.Bears post traced) : trait.Bears post (Traced.enter task traced) where
  log session hsession event hmem := by
    rcases List.mem_cons.mp hmem with rfl | hmem
    · exact ⟨htask, hsession⟩
    · exact h.log hsession event hmem
  run := h.run

theorem inside {enclosure : Enclosure} {traced : Traced α}
    (henclosure : trait.Encloses enclosure) (h : trait.Bears post traced) :
    trait.Bears post (Traced.inside enclosure traced) where
  log _ hsession := h.log (hsession.start henclosure)
  run session hsession := by
    have hends := h.run (hsession.start henclosure)
    change trait.Ends post (onState _ _)
    generalize traced.run (enclosure.start session) = outcome at hends
    cases hends with
    | ok hinner hresult => exact .ok (hinner.leave enclosure session) hresult
    | error hinner hstop => exact .error (hinner.leave enclosure session) hstop

end Bears

/-! ## Evaluation and execution -/

namespace Lawful

variable (law : trait.Lawful)
include law

/-- **Bearing the trait is a discipline of single moves.** -/
theorem moves : trait.discipline.Moves Traced.runner where
  trans _ _ := trivial
  values_mono h _ := h
  literal _ := trait.values_ofLiteral
  part := law.part
  value := law.value
  inside := law.inside
  pure h := .silent (.pure (h () trivial))
  bind h hnext := h.bind fun result => hnext () result trivial
  side _ h := h
  lookup h := .silent (.lookup (law.var h))
  assign name h := .silent (.assign name h)
  define name h := .silent (.define name h)
  complete _ h := .silent (.remember h)
  makeFunction h := .silent (.makeFunction fun _ hmem => law.inside h hmem)
  unary value h := by
    rw [Traced.ofExcept_eq]
    refine .silent (.ofExcept (fun result hresult => ?_) fun _ hcause => law.unary h hcause)
    obtain ⟨literal, rfl⟩ := Value.exists_literal_of_unary hresult
    exact trait.values_ofLiteral literal
  binary a b h := by
    rw [Traced.ofExcept_eq]
    refine .silent (.ofExcept (fun result hresult => ?_) fun _ hcause => law.binary h hcause)
    obtain ⟨literal, rfl⟩ := Value.exists_literal_of_binary hresult
    exact trait.values_ofLiteral literal
  logical h hor hand := .silent (.fault (law.logical h hor hand))
  print _ h := .silent (.onTerminal (fun _ => law.print h) _)
  checkCalled h := .silent (.checkCalled (law.ret h))

section Calls

variable {exec : Stmt → Traced Flow}
  (hexec : ∀ stmt, trait.stmts stmt → trait.Bears (trait.discipline.Flows ()) (exec stmt))
include hexec

theorem bears_execAll {body : List Stmt} (hbody : ∀ stmt ∈ body, trait.stmts stmt) :
    trait.Bears (trait.discipline.Flows ()) (Runner.execAll exec body) :=
  law.moves.execAll (fun stmt hmem _ => hexec stmt (hbody stmt hmem)) ()

variable {location : Location}
  (hfaults : ∀ cause, cause.OfCall → trait.faults ⟨cause, location⟩)
include hfaults

/-- A body that ends without returning gives the last value. -/
theorem bears_callFunction {f : Function} (hf : trait.Values (.function f)) {arguments : List Value}
    (harguments : ∀ argument ∈ arguments, trait.Values argument) :
    trait.Bears trait.Values (Traced.runner.callFunction exec location f arguments) := by
  have hcheck := Bears.silent (.checkDepth fun limit => hfaults _ (.stackOverflow limit))
  have henclosure : trait.Encloses (.body f arguments) := harguments
  have hbody := (law.bears_execAll hexec hf).inside henclosure
  refine hcheck.bind fun _ _ => hbody.bind fun flow hflow => ?_
  cases flow with
  | returned value => exact .silent (.pure hflow)
  | normal => exact .silent (Keeps.get.bind fun session hsession => .pure hsession.lastValue)

theorem bears_call {callee : Value} (hcallee : trait.Values callee) {arguments : List Value}
    (harguments : ∀ argument ∈ arguments, trait.Values argument) :
    trait.Bears trait.Values (Traced.call exec location callee arguments) := by
  have harity (name : String) (arity : Nat) : trait.Bears (fun _ => True)
      (Traced.runner.checkArity location name arity arguments) := by
    rw [Traced.checkArity_eq]
    exact .silent (.checkArity (hfaults _ (.argumentCount ..)))
  refine .enter ⟨hcallee, harguments⟩ ?_
  cases callee with
  | function f =>
    exact (harity _ _).bind fun _ _ => law.bears_callFunction hexec hfaults hcallee harguments
  | native f =>
    refine (harity _ _).bind fun _ _ => ?_
    rw [Traced.callNative_eq]
    exact .silent (.callNative (fun error => hfaults _ (.io error)) f arguments)
  | integer n | string s | boolean b | absent =>
    exact .silent (.fault (hfaults _ (.notCallable _)))

end Calls

/-- **Trees with the trait bear it through every run.** -/
theorem lawful : trait.discipline.Lawful Traced.runner where
  toMoves := law.moves
  exhausted := .silent fun _ hsession => .error hsession trivial
  enter {_ _ _ task _} htask h := .enter (by cases task <;> exact htask) h
  block h hexec :=
    .inside trivial (law.bears_execAll (fun stmt => hexec () stmt) fun _ hmem => law.inside h hmem)
  call h hexec hfunction hvalues :=
    law.bears_call (fun stmt => hexec () stmt) (fun _ hcause => law.call h hcause) hfunction hvalues
  echo stmt := by
    rw [Traced.echo_eq]
    exact .silent (.echo law.terminal stmt)
  flush := .silent (.onTerminal law.terminal _)

/-! ## Sessions over time -/

/-- A session that has the trait keeps it when a script is run whose statements have it, and the run
stops with what the trait allows. -/
theorem run (steps : Nat) {source : String} (h : trait.Sources source) {session : Session}
    (hsession : trait.Holds session) :
    trait.Holds (stateAfter (Session.run steps source) session) ∧
      ∀ ⦃stop after⦄, Session.run steps source session = .error (.stop stop) after →
        trait.Stops stop := by
  cases hread : Parser.ofSource source with
  | error error =>
    rw [stateAfter, Session.run_of_lex hread]
    refine ⟨hsession, fun stop after hstop => ?_⟩
    cases (EStateM.Result.error.inj hstop).1
  | ok parser =>
    cases hprogram : Parse.program parser with
    | error fatal stop =>
      rw [stateAfter, Session.run_of_error hread hprogram]
      refine ⟨hsession, fun reason after hstop => ?_⟩
      cases (EStateM.Result.error.inj hstop).1
    | ok statements stop =>
      have hends := (law.lawful.interpret steps (h hread hprogram) ()).run hsession
      rw [Traced.run_interpret] at hends
      cases hinterpret : Action.interpret steps statements session with
      | ok result after =>
        rw [hinterpret] at hends
        rw [stateAfter, Session.run_of_ok hread hprogram hinterpret]
        cases hends with
        | ok hafter => exact ⟨hafter, fun reason after hstop => by cases hstop⟩
      | error reason after =>
        rw [hinterpret] at hends
        rw [stateAfter, Session.run_of_stop hread hprogram hinterpret]
        cases hends with
        | error hafter hreason =>
          refine ⟨hafter, fun stop after hstop => ?_⟩
          cases (EStateM.Result.error.inj hstop).1
          exact hreason

theorem afterRuns {history : List (Nat × String)} (h : ∀ step ∈ history, trait.Sources step.2)
    {session : Session} (hsession : trait.Holds session) :
    trait.Holds (session.afterRuns history) := by
  induction history generalizing session with
  | nil => exact hsession
  | cons step history ih =>
    obtain ⟨hstep, hrest⟩ := List.forall_mem_cons.mp h
    exact ih hrest (law.run step.1 hstep hsession).1

end Lawful

end Trait

end Scriptlet
