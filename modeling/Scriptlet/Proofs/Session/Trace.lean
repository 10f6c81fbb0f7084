import Scriptlet.Proofs.Session.Discipline
import Scriptlet.Proofs.Session.Stops

/-!
# What is entered in a run

Some things that are to be said about a run are about what happens on the way and in which order,
which the session at its end does not show. So a run is traced: next to what it does stands the log
of the expressions and statements that were entered and the values that were called, one after the
other, each with the session in which that happened.

Tracing is a way to run scripts: single moves are made as they are and leave nothing in the log, and
whatever is entered is put in front of what is entered inside of it. But for the log, it is
evaluation.

## Main definitions

* `Event` — something was entered
* `Traced` — an action with a log
* `Traced.runner` — the runner that keeps a log
* `Traced.eval`, `Traced.exec`, `Traced.interpret` — expressions, statements and scripts, traced
* `Traced.Inherited` — a property that traced actions pass on to what is made of them

## Main results

* `Traced.run_eval`, `Traced.run_exec`, `Traced.run_interpret` — tracing changes nothing
* `Traced.log_call_function`, `Traced.log_block` — the logs of calls and blocks
-/

namespace Scriptlet

/-- Something that was entered, and the session in which it was. -/
structure Event where
  task : Task
  session : Session

/-- An action, and what is entered while it runs. -/
structure Traced (α : Type) where
  run : Action α
  log : Session → List Event

namespace Traced

variable {α β : Type}

/-- An action in which nothing is entered. -/
def silent (action : Action α) : Traced α := ⟨action, fun _ => []⟩

/-- Of two actions the second only adds to the log if it is run. -/
def bind (first : Traced α) (next : α → Traced β) : Traced β where
  run := first.run >>= fun result => (next result).run
  log session := first.log session ++
    match first.run session with
    | .ok result middle => (next result).log middle
    | .error _ _ => []

instance : Monad Traced where
  pure result := silent (pure result)
  bind := bind

/-- An action with an entry in front. -/
def enter (task : Task) (traced : Traced α) : Traced α where
  run := traced.run
  log session := ⟨task, session⟩ :: traced.log session

/-- Acts inside of a block or of a body, and leaves however the action ends. -/
def inside (enclosure : Enclosure) (traced : Traced α) : Traced α where
  run := enclosure.around traced.run
  log session := traced.log (enclosure.start session)

/-- The runner that keeps a log. -/
def runner : Runner Traced where
  perform move := silent move.action
  stop reason := silent (throw reason)
  inside := inside
  enter := enter
  part _ traced := traced

/-- An expression, traced. -/
abbrev eval (steps : Nat) (expr : Expr) : Traced Value := runner.eval steps expr

/-- A statement, traced. -/
abbrev exec (steps : Nat) (stmt : Stmt) : Traced Flow := runner.exec steps stmt

/-- A call, traced, given traced statements. -/
abbrev call (exec : Stmt → Traced Flow) (location : Location) (callee : Value)
    (arguments : List Value) : Traced Value := runner.call exec location callee arguments

/-- A block, traced, given traced statements. -/
abbrev block (exec : Stmt → Traced Flow) (body : List Stmt) : Traced Flow :=
  runner.inside .block (Runner.execAll exec body)

/-- A script, traced. -/
abbrev interpret (steps : Nat) (statements : List Stmt) : Traced Unit :=
  runner.interpret steps statements

/-! ## Tracing changes nothing -/

theorem morphism_run : runner.Morphism Action.runner @Traced.run where
  pure _ := rfl
  bind _ _ := rfl
  perform _ := rfl
  stop _ := rfl
  inside _ _ := rfl
  enter _ _ := rfl
  part _ _ := rfl

/-- **Traced evaluation is evaluation.** -/
theorem run_eval (steps : Nat) (expr : Expr) : (eval steps expr).run = Action.eval steps expr :=
  morphism_run.run_eval steps expr

/-- **Traced execution is execution.** -/
theorem run_exec (steps : Nat) (stmt : Stmt) : (exec steps stmt).run = Action.exec steps stmt :=
  morphism_run.run_exec steps stmt

/-- **A script that is traced is run.** -/
theorem run_interpret (steps : Nat) (statements : List Stmt) :
    (interpret steps statements).run = Action.interpret steps statements :=
  morphism_run.run_interpret steps statements

/-! ## Logs -/

theorem run_bind_of_ok {first : Traced α} {next : α → Traced β} {session middle : Session}
    {result : α} (h : first.run session = .ok result middle) :
    (first >>= next).run session = (next result).run middle := bind_of_ok h

theorem run_bind_of_error {first : Traced α} {next : α → Traced β} {session middle : Session}
    {stop : Stop} (h : first.run session = .error stop middle) :
    (first >>= next).run session = .error stop middle := bind_of_error h

theorem log_bind_of_ok {first : Traced α} {next : α → Traced β} {session middle : Session}
    {result : α} (h : first.run session = .ok result middle) :
    (first >>= next).log session = first.log session ++ (next result).log middle := by
  change first.log session ++ _ = _
  rw [h]

theorem log_bind_of_error {first : Traced α} {next : α → Traced β} {session middle : Session}
    {stop : Stop} (h : first.run session = .error stop middle) :
    (first >>= next).log session = first.log session := by
  change first.log session ++ _ = _
  rw [h, List.append_nil]

theorem log_bind_of_nil {first : Traced α} {next : α → Traced β}
    (h : ∀ result middle, (next result).log middle = []) (session : Session) :
    (first >>= next).log session = first.log session := by
  cases hfirst : first.run session with
  | ok result middle => rw [log_bind_of_ok hfirst, h, List.append_nil]
  | error stop middle => exact log_bind_of_error hfirst

/-- What is entered in two actions is entered in the first or behind it. -/
theorem mem_log_bind {first : Traced α} {next : α → Traced β} {session : Session} {event : Event}
    (h : event ∈ (first >>= next).log session) :
    event ∈ first.log session ∨ ∃ result middle, first.run session = .ok result middle ∧
      event ∈ (next result).log middle := by
  cases hfirst : first.run session with
  | ok result middle =>
    rw [log_bind_of_ok hfirst] at h
    exact (List.mem_append.mp h).imp_right fun hnext => ⟨result, middle, rfl, hnext⟩
  | error stop middle =>
    rw [log_bind_of_error hfirst] at h
    exact .inl h

/-- Actions in which nothing is entered, one behind the other. -/
theorem silent_bind (action : Action α) (next : α → Action β) :
    (silent action >>= fun result => silent (next result)) = silent (action >>= next) := by
  have hlog : (silent action >>= fun result => silent (next result)).log = fun _ => [] :=
    funext (log_bind_of_nil fun _ _ => rfl)
  exact congrArg (Traced.mk (action >>= next)) hlog

/-- Functions that every script finds enter nothing. -/
theorem callNative_eq (location : Location) (native : Native) (arguments : List Value) :
    runner.callNative location native arguments =
      silent (Action.callNative location native arguments) := by
  cases native with
  | print => exact silent_bind _ fun _ => pure Value.absent
  | input =>
    refine (bind_congr fun _ => ?_).trans (silent_bind _ _)
    refine (bind_congr fun line? => ?_).trans (silent_bind _ _)
    cases line? <;> rfl

theorem checkArity_eq (location : Location) (name : String) (arity : Nat)
    (arguments : List Value) :
    runner.checkArity location name arity arguments =
      silent (Action.checkArity location name arity arguments) :=
  (apply_ite silent _ _ _).symm

theorem ofExcept_eq (location : Location) (result : Except FaultCause α) :
    runner.ofExcept location result = silent (Action.ofExcept location result) := by
  cases result <;> rfl

/-- Showing a value enters nothing. -/
theorem echo_eq (stmt : Stmt) : runner.echo stmt = silent (Action.echo stmt) := by
  rw [← Action.runner_echo]
  cases stmt with
  | expression expr =>
    refine (bind_congr fun dumps => ?_).trans (silent_bind _ _)
    cases dumps with
    | true =>
      exact silent_bind _ fun (value : Value) =>
        Move.action (.utter (.echo (">> " ++ value.text)))
    | false => rfl
  | _ => rfl

section Log

variable (exec : Stmt → Traced Flow) (session : Session)

/-- The statements of a block are entered in a new scope. -/
theorem log_block (body : List Stmt) :
    (block exec body).log session = (Runner.execAll exec body).log session.nested := rfl

theorem log_callFunction (location : Location) (function : Function) (arguments : List Value) :
    (runner.callFunction exec location function arguments).log session =
      if session.callDepth < session.options.maxCallDepth then
        (Runner.execAll exec function.declaration.body).log (session.entered function arguments)
      else [] := by
  rcases Nat.lt_or_ge session.callDepth session.options.maxCallDepth with h | h
  · rw [if_pos h]
    refine (log_bind_of_ok (@Move.checkDepth_of_lt location session h)).trans ?_
    exact log_bind_of_nil (fun flow _ => by cases flow <;> rfl) session
  · rw [if_neg (Nat.not_lt.mpr h)]
    exact log_bind_of_error (@Move.checkDepth_of_le location session h)

/-- The body of a function is entered if the number of arguments is right and one more call may be
open. -/
theorem log_call_function (location : Location) (function : Function) (arguments : List Value) :
    (call exec location (.function function) arguments).log session =
      ⟨.call location (.function function) arguments, session⟩ ::
        if arguments.length = function.arity ∧
          session.callDepth < session.options.maxCallDepth then
          (Runner.execAll exec function.declaration.body).log
            (session.entered function arguments)
        else [] := by
  refine congrArg (List.cons _) ?_
  change (runner.checkArity _ _ _ _ >>= fun _ => _).log session = _
  rw [checkArity_eq]
  by_cases h : arguments.length = function.arity
  · have hcheck : (silent (Action.checkArity location function.name function.arity
        arguments)).run session = .ok () session :=
      congrFun (Action.checkArity_of_eq h _ _) session
    refine (log_bind_of_ok hcheck).trans ((log_callFunction exec session location _ _).trans ?_)
    simp only [h, true_and]
  · have hcheck : (silent (Action.checkArity location function.name function.arity
        arguments)).run session = .error (.fault
          ⟨.argumentCount function.name function.arity arguments.length, location⟩) session :=
      congrFun (Action.checkArity_of_ne h _ _) session
    refine (log_bind_of_error hcheck).trans ?_
    simp only [h, false_and, if_false]
    rfl

end Log

section Inside

variable {exec : Stmt → Traced Flow} (hexec : ∀ stmt, (exec stmt).run.Tidy)
include hexec

theorem tidy_execAll (body : List Stmt) : (Runner.execAll exec body).run.Tidy := by
  rw [morphism_run.run_execAll (fun _ => rfl)]
  exact Action.confined_execAll hexec body

theorem tidy_block (body : List Stmt) : (block exec body).run.Tidy :=
  (Enclosure.sealed_block (tidy_execAll hexec body)).confined _

theorem tidy_call (location : Location) (callee : Value) (arguments : List Value) :
    (call exec location callee arguments).run.Tidy := by
  rw [morphism_run.run_call (fun _ => rfl)]
  exact (Action.sealed_call hexec location callee arguments).confined _

/-- A block ends like its statements. -/
theorem run_block (body : List Stmt) (session : Session) :
    (block exec body).run session =
      onState session.back ((Runner.execAll exec body).run session.nested) :=
  Enclosure.block.around_of_tidy (tidy_execAll hexec body) session

/-- A call ends like the body of the function. -/
theorem run_call_entered (location : Location) {function : Function} {arguments : List Value}
    {session : Session} (harity : arguments.length = function.arity)
    (hdepth : session.callDepth < session.options.maxCallDepth) :
    (call exec location (.function function) arguments).run session =
      session.finished ((Runner.execAll exec function.declaration.body).run
        (session.entered function arguments)) := by
  rw [morphism_run.run_call (fun _ => rfl), morphism_run.run_execAll (fun _ => rfl),
    Action.call_function _ _ harity]
  exact Action.callFunction_entered hexec location function arguments hdepth

end Inside

/-! ## What is passed on -/

/-- A property of traced actions that everything has in which nothing is entered, and that actions
pass on to what is made of them. -/
structure Inherited (property : ∀ {α : Type}, Traced α → Prop) : Prop where
  silent : ∀ {α : Type} {action : Action α}, action.Tidy → action.Brief → property (silent action)
  bind : ∀ {α β : Type} {first : Traced α} {next : α → Traced β}, property first →
    (∀ ⦃start result middle⦄, first.run start = .ok result middle → property (next result)) →
    property (first >>= next)

/-- A property of traced actions as a discipline, for all trees and values. -/
def discipline (property : ∀ {α : Type}, Traced α → Prop) : Discipline Traced Unit where
  le _ _ := True
  exprs _ := True
  stmts _ := True
  values _ _ := True
  Runs _ post traced :=
    property traced ∧ ∀ ⦃start result after⦄, traced.run start = .ok result after → post () result

namespace Inherited

open Scriptlet.Action

variable {property : ∀ {α : Type}, Traced α → Prop} (law : Inherited property)

theorem flows (flow : Flow) : (discipline property).Flows () flow := by
  cases flow <;> trivial

include law

theorem fault {cause : FaultCause} {location : Location}
    (h : ∀ limit, cause ≠ .stackOverflow limit) :
    property (Traced.silent (fault cause location : Action α)) :=
  law.silent (confined_fault cause location) (brief_fault h)

theorem checkCalled (location : Location) :
    property (Traced.silent (Move.checkCalled location).action) := by
  refine law.silent (fun session => ?_) fun session stop after herror => ?_
  · rw [Move.stateAfter_checkCalled]
    exact .refl _ session
  · by_cases h : session.callDepth = 0
    · rw [Move.checkCalled_of_eq h] at herror
      cases herror
      rintro ⟨_, ⟨⟩⟩
    · rw [Move.checkCalled_of_ne h] at herror
      cases herror

theorem pure (result : α) : property (pure result : Traced α) :=
  law.silent (confined_pure result) (brief_pure result)

/-- **The discipline of an inherited property is kept by single moves.** -/
theorem moves : (discipline property).Moves runner where
  trans _ _ := trivial
  values_mono _ _ := trivial
  literal _ _ := trivial
  part _ _ := trivial
  value _ _ := trivial
  inside _ _ := trivial
  pure h := ⟨law.pure _, by rintro _ _ _ ⟨⟩; exact h () trivial⟩
  bind h hnext := by
    refine ⟨law.bind h.1 fun _ result _ hfirst => (hnext () result trivial (h.2 hfirst)).1, ?_⟩
    intro start result after hrun
    obtain ⟨first, middle, hfirst, hsecond⟩ := ok_of_bind hrun
    exact (hnext () first trivial (h.2 hfirst)).2 hsecond
  side _ h := h
  lookup _ := ⟨law.silent (confined_lookup _) (brief_lookup _), fun _ _ _ _ => trivial⟩
  assign _ _ := ⟨law.silent (tidy_assign _ _) (brief_modify _), fun _ _ _ _ => trivial⟩
  define _ _ := ⟨law.silent (tidy_define _ _) (brief_modify _), fun _ _ _ _ => trivial⟩
  complete _ _ := ⟨law.silent (confined_remember _) (brief_modify _), fun _ _ _ _ => trivial⟩
  makeFunction _ :=
    ⟨law.silent (confined_makeFunction _) (brief_makeFunction _), fun _ _ _ _ => trivial⟩
  unary value _ := by
    rw [ofExcept_eq]
    exact ⟨law.silent (confined_ofExcept _ _) (brief_unary _ _ value), fun _ _ _ _ => trivial⟩
  binary a b _ := by
    rw [ofExcept_eq]
    exact ⟨law.silent (confined_ofExcept _ _) (brief_binary _ _ a b), fun _ _ _ _ => trivial⟩
  logical _ _ _ := ⟨law.fault nofun, fun _ _ _ _ => trivial⟩
  print _ _ := ⟨law.silent (confined_onTerminal _ _) (brief_onTerminal _ _), fun _ _ _ _ => trivial⟩
  checkCalled _ := ⟨law.checkCalled _, fun _ _ _ _ => trivial⟩

theorem execAll {exec : Stmt → Traced Flow} (h : ∀ stmt, property (exec stmt)) (body : List Stmt) :
    property (Runner.execAll exec body) :=
  (law.moves.execAll (fun stmt _ _ => ⟨h stmt, fun _ flow _ _ => flows flow⟩) ()).1

theorem evalWith {eval : Expr → Traced Value} {exec : Stmt → Traced Flow}
    (heval : ∀ expr, property (eval expr))
    (hcall : ∀ location callee arguments, property (call exec location callee arguments))
    (expr : Expr) : property (runner.evalWith eval exec expr) :=
  (law.moves.evalWith (fun _ expr _ => ⟨heval expr, fun _ _ _ _ => trivial⟩)
    (fun _ _ _ => ⟨hcall _ _ _, fun _ _ _ _ => trivial⟩) trivial ()).1

end Inherited

end Traced

end Scriptlet
