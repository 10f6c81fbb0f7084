import Scriptlet.Proofs.Session.Upkeep

/-!
# Runs as plans

A plan tells which move comes next, given what the moves before it gave. Expressions, statements and
scripts are turned into plans here without a look at any session, and carrying a plan out is running
the script.

So what is to be shown of all runs is shown of all plans, by induction on the plan: it is enough to
say what single moves do, and what entering a block or the body of a function does. No form of the
language is looked at again.

Next to what a plan does stands a record of its deeds: which statements and assignments were
completed with which value, which calls ended without a return, and what was written. A text is
recorded when it is about to be written, since part of it may arrive even if the write fails.

## Main definitions

* `Deed` — what is recorded of a run
* `Plan` — moves, and blocks and bodies of them, one behind the other
* `Plan.run` — what carrying a plan out does
* `Plan.logOf`, `Plan.log` — what is recorded of its moves, and its deeds
* `Plan.runner` — the runner that lays down plans
* `Plan.eval`, `Plan.exec`, `Plan.call`, `Plan.interpret` — the plans of scripts
* `Plan.Chronicle` — something that the deeds of a plan say about the session behind them
* `Activity.deeds` — the deeds of whatever is done with a session

## Main results

* `Plan.run_eval`, `Plan.run_exec`, `Plan.run_call`, `Plan.run_interpret` — carrying out the plan of
  a script is running the script
* `Plan.Chronicle.holds`, `Plan.Chronicle.after` — what the deeds of single moves say, those of
  every plan and of whatever is done with a session say
-/

namespace Scriptlet

universe u

/-! ## Deeds -/

/-- What is recorded of a run. -/
inductive Deed where
  /-- Something was completed with a value. -/
  | completed (completion : Completion) (value : Value)
  /-- A call ended without a return, and gave a value. -/
  | fellThrough (function : Function) (value : Value)
  /-- A text was about to be written. -/
  | uttered (utterance : Utterance)

/-- What is recorded of a move in a session. -/
def Move.deeds {α : Type} : Move α → Session → List Deed
  | complete completion value, _ => [.completed completion value]
  | fallThrough function, session => [.fellThrough function session.lastValue]
  | utter utterance, _ => [.uttered utterance]
  | _, _ => []

/-! ## Plans -/

/-- What is to be done, depending on what was done before gave. -/
inductive Plan : Type → Type 1 where
  /-- Nothing more is to be done. -/
  | done {α : Type} (result : α) : Plan α
  /-- The run stops. -/
  | stop {α : Type} (reason : Stop) : Plan α
  /-- A move comes next. -/
  | move {α β : Type} (move : Move α) (next : α → Plan β) : Plan β
  /-- A block or a body comes next. -/
  | inside {α β : Type} (enclosure : Enclosure) (body : Plan α) (next : α → Plan β) : Plan β

namespace Plan

variable {α β : Type}

/-- Does one thing after the other. -/
def bind : Plan α → (α → Plan β) → Plan β
  | done result, then' => then' result
  | stop reason, _ => stop reason
  | move single next, then' => move single fun result => bind (next result) then'
  | inside enclosure body next, then' =>
    inside enclosure body fun result => bind (next result) then'

instance : Monad Plan where
  pure := done
  bind := bind

/-- A move and nothing else. -/
def perform (single : Move α) : Plan α := move single done

/-- A block or a body and nothing else. -/
def enclosed (enclosure : Enclosure) (body : Plan α) : Plan α := inside enclosure body done

/-- Carries a plan out. -/
def run : {α : Type} → Plan α → Action α
  | _, done result => pure result
  | _, stop reason => throw reason
  | _, move single next => single.action >>= fun result => run (next result)
  | _, inside enclosure body next =>
    enclosure.around (run body) >>= fun result => run (next result)

/-- What is recorded behind an outcome: nothing if it is a stop. -/
def logBehind {τ : Type u} (log : α → Session → List τ) :
    EStateM.Result Stop Session α → List τ
  | .ok result after => log result after
  | .error _ _ => []

/-- What is recorded of a plan that is carried out in a session, in the order of its moves, if it is
known what is recorded of a move. -/
def logOf {τ : Type u} (note : {α : Type} → Move α → Session → List τ) :
    {α : Type} → Plan α → Session → List τ
  | _, done _, _ => []
  | _, stop _, _ => []
  | _, move single next, session =>
    note single session ++
      logBehind (fun result => logOf note (next result)) (single.action session)
  | _, inside enclosure body next, session =>
    logOf note body (enclosure.start session) ++
      logBehind (fun result => logOf note (next result)) (enclosure.around (run body) session)

/-- The deeds of a plan that is carried out in a session, in their order. -/
def log (plan : Plan α) : Session → List Deed := plan.logOf Move.deeds

/-! ## The plans of scripts -/

/-- The runner that lays down plans. -/
def runner : Runner Plan where
  perform := perform
  stop := stop
  inside := enclosed
  enter _ plan := plan
  part _ plan := plan

/-- The plan of an expression, for a number of steps. -/
abbrev eval (steps : Nat) (expr : Expr) : Plan Value := runner.eval steps expr

/-- The plan of a statement, for a number of steps. -/
abbrev exec (steps : Nat) (stmt : Stmt) : Plan Flow := runner.exec steps stmt

/-- The plan of a call, given the plans of statements. -/
abbrev call (exec : Stmt → Plan Flow) (location : Location) (callee : Value)
    (arguments : List Value) : Plan Value := runner.call exec location callee arguments

/-- The plan of the statements of a script. -/
abbrev interpret (steps : Nat) (statements : List Stmt) : Plan Unit :=
  runner.interpret steps statements

/-! ## Carrying out the plan of a script -/

theorem run_bind (plan : Plan α) (then' : α → Plan β) :
    (plan >>= then').run = plan.run >>= fun result => (then' result).run := by
  induction plan with
  | done result => rfl
  | stop reason => rfl
  | move single next ih =>
    funext session
    change (single.action >>= fun result => (next result >>= then').run) session = _
    simp only [ih, run, bind_assoc]
  | inside enclosure body next _ ih =>
    funext session
    change (enclosure.around body.run >>= fun result => (next result >>= then').run) session = _
    simp only [ih, run, bind_assoc]

theorem morphism_run : runner.Morphism Action.runner @Plan.run where
  pure _ := rfl
  bind := run_bind
  perform single := bind_pure single.action
  stop _ := rfl
  inside enclosure body := bind_pure (enclosure.around body.run)
  enter _ _ := rfl
  part _ _ := rfl

/-- **Carrying out the plan of an expression is evaluating it.** -/
theorem run_eval (steps : Nat) (expr : Expr) : (eval steps expr).run = Action.eval steps expr :=
  morphism_run.run_eval steps expr

/-- **Carrying out the plan of a statement is executing it.** -/
theorem run_exec (steps : Nat) (stmt : Stmt) : (exec steps stmt).run = Action.exec steps stmt :=
  morphism_run.run_exec steps stmt

/-- **Carrying out the plan of a call is making the call.** -/
theorem run_call (steps : Nat) (location : Location) (callee : Value) (arguments : List Value) :
    (call (exec steps) location callee arguments).run =
      Action.call (Action.exec steps) location callee arguments :=
  morphism_run.run_call (run_exec steps) location callee arguments

/-- **Carrying out the plan of a script is running it.** -/
theorem run_interpret (steps : Nat) (statements : List Stmt) :
    (interpret steps statements).run = Action.interpret steps statements :=
  morphism_run.run_interpret steps statements

/-! ## Deeds one behind the other -/

section Records

variable {τ : Type u} (note : {α : Type} → Move α → Session → List τ)

/-- What is recorded behind two actions is recorded behind the second, if the first got there. -/
theorem logBehind_bind (action : Action α) (next : α → Action β) (log : β → Session → List τ)
    (session : Session) :
    logBehind log ((action >>= next) session) =
      logBehind (fun result middle => logBehind log (next result middle)) (action session) := by
  cases haction : action session with
  | ok result middle => rw [bind_of_ok haction]; rfl
  | error reason middle => rw [bind_of_error haction]; rfl

theorem logBehind_append (first second : α → Session → List τ)
    (outcome : EStateM.Result Stop Session α) :
    logBehind (fun result middle => first result middle ++ second result middle) outcome =
      logBehind first outcome ++ logBehind second outcome := by
  cases outcome <;> rfl

/-- What is recorded of two plans is recorded of the first and, if it gives a result, of the
second. -/
theorem logOf_bind (plan : Plan α) (then' : α → Plan β) (session : Session) :
    (plan >>= then').logOf note session = plan.logOf note session ++
      logBehind (fun result => (then' result).logOf note) (plan.run session) := by
  induction plan generalizing session with
  | done result => rfl
  | stop reason => rfl
  | move single next ih =>
    change _ ++ logBehind (fun result middle => (next result >>= then').logOf note middle) _ = _
    simp only [ih, logBehind_append, run, logBehind_bind, logOf, List.append_assoc]
  | inside enclosure body next _ ih =>
    change _ ++ logBehind (fun result middle => (next result >>= then').logOf note middle) _ = _
    simp only [ih, logBehind_append, run, logBehind_bind, logOf, List.append_assoc]

end Records

/-- The deeds of two plans are those of the first and, if it gives a result, of the second. -/
theorem log_bind (plan : Plan α) (then' : α → Plan β) (session : Session) :
    (plan >>= then').log session =
      plan.log session ++ logBehind (fun result => (then' result).log) (plan.run session) :=
  logOf_bind Move.deeds plan then' session

/-! ## What deeds say -/

/-- Something that deeds say about the session before them and the one behind them. -/
structure Chronicle (tells : Session → List Deed → Session → Prop) : Prop where
  /-- Where nothing is done the session is as before. -/
  refl (session : Session) : tells session [] session
  /-- Deeds one behind the other. -/
  trans {first second : List Deed} {before middle after : Session} :
    tells before first middle → tells middle second after → tells before (first ++ second) after
  /-- The deeds of a move say what it does. -/
  move {α : Type} (single : Move α) (session : Session) :
    tells session (single.deeds session) (stateAfter single.action session)
  /-- What is done inside of something is done. -/
  inside (enclosure : Enclosure) {deeds : List Deed} {session inner : Session} :
    tells (enclosure.start session) deeds inner →
      tells session deeds (enclosure.leave session inner)

/-- What the deeds of a first action say, and behind it those of a second. -/
theorem Chronicle.behind {tells : Session → List Deed → Session → Prop} (law : Chronicle tells)
    {action : Action α} {next : α → Plan β} {deeds : List Deed} {session : Session}
    (h : tells session deeds (stateAfter action session))
    (hnext : ∀ result middle, tells middle ((next result).log middle)
      (stateAfter (next result).run middle)) :
    tells session (deeds ++ logBehind (fun result => (next result).log) (action session))
      (stateAfter (action >>= fun result => (next result).run) session) := by
  cases haction : action session with
  | ok result middle =>
    rw [stateAfter, haction] at h
    rw [stateAfter, bind_of_ok haction]
    exact law.trans h (hnext result middle)
  | error reason middle =>
    rw [stateAfter, haction] at h
    rw [stateAfter, bind_of_error haction]
    simpa [logBehind] using h

/-- What the deeds of a body say is said of what it is run inside of. -/
theorem Chronicle.around {tells : Session → List Deed → Session → Prop} (law : Chronicle tells)
    (enclosure : Enclosure) {action : Action α} {deeds : List Deed} {session : Session}
    (h : tells (enclosure.start session) deeds (stateAfter action (enclosure.start session))) :
    tells session deeds (stateAfter (enclosure.around action) session) := by
  rw [Enclosure.stateAfter_around]
  exact law.inside enclosure h

/-- **What the deeds of single moves say, those of every plan say.** -/
theorem Chronicle.holds {tells : Session → List Deed → Session → Prop} (law : Chronicle tells)
    (plan : Plan α) (session : Session) :
    tells session (plan.log session) (stateAfter plan.run session) := by
  induction plan generalizing session with
  | done result => exact law.refl session
  | stop reason => exact law.refl session
  | move single next ih => exact law.behind (law.move single session) ih
  | inside enclosure body next ihbody ih =>
    exact law.behind (law.around enclosure (ihbody (enclosure.start session))) ih

end Plan

/-- What is recorded of whatever is done with a session, if it is known what is recorded of a
move. -/
def Activity.logOf {τ : Type u} (note : {α : Type} → Move α → Session → List τ) (steps : Nat) :
    Activity → Session → List τ
  | eval expr => (Plan.eval steps expr).logOf note
  | exec stmt => (Plan.exec steps stmt).logOf note
  | call callee location arguments =>
    (Plan.call (Plan.exec steps) location callee arguments).logOf note
  | interpret statements => (Plan.interpret steps statements).logOf note
  | run source => fun session =>
    (script? source).elim [] fun statements => (Plan.interpret steps statements).logOf note session

/-- The deeds of whatever is done with a session. -/
def Activity.deeds : Nat → Activity → Session → List Deed := logOf Move.deeds

/-- **What the deeds of single moves say, those of whatever is done with a session say.** -/
theorem Plan.Chronicle.after {tells : Session → List Deed → Session → Prop}
    (law : Chronicle tells) (steps : Nat) (activity : Activity) (session : Session) :
    tells session (activity.deeds steps session) (activity.after steps session) := by
  cases activity with
  | eval expr =>
    rw [Activity.after, ← run_eval]
    exact law.holds (Plan.eval steps expr) session
  | exec stmt =>
    rw [Activity.after, ← run_exec]
    exact law.holds (Plan.exec steps stmt) session
  | call callee location arguments =>
    rw [Activity.after, ← run_call]
    exact law.holds (Plan.call (Plan.exec steps) location callee arguments) session
  | interpret statements =>
    rw [Activity.after, ← run_interpret]
    exact law.holds (Plan.interpret steps statements) session
  | run source =>
    rw [Activity.after, stateAfter_run, Activity.deeds, Activity.logOf]
    cases script? source with
    | none => exact law.refl session
    | some statements =>
      change tells session ((Plan.interpret steps statements).log session)
        (stateAfter (Action.interpret steps statements) session)
      rw [← run_interpret]
      exact law.holds (Plan.interpret steps statements) session

end Scriptlet
