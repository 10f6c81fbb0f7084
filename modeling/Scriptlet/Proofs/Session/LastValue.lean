import Scriptlet.Proofs.Session.Plan

/-!
# The last value

The last value is that of whatever was completed last: an expression statement, a print statement, a
declaration of a variable or an assignment, in the script itself or in a function that it called. It
does not matter how the run went on, and whether it stopped. A call that ends without a return gives
the last value of that moment, which may be older than the call.

## Main definitions

* `Deed.value?`, `latest` — the value of what was completed, and of what was completed last
* `Remembers` — what the deeds say about last values
* `Plan.RecordsCompletions` — when something is recorded as completed

## Main results

* `Plan.remembers` — the last value is that of what was completed last
* `Plan.call_of_normal` — what a call gives that ends without a return
* `Plan.recordsCompletions` — whatever is completed is recorded, and nothing that is not
* `last_value_is_latest` — all of this, for whatever is done with a session
-/

namespace Scriptlet

/-- The value of what was completed. -/
def Deed.value? : Deed → Option Value
  | completed _ value => some value
  | _ => none

/-- The value of what was completed last, or a given one if nothing was completed. -/
def latest (initial : Value) (deeds : List Deed) : Value :=
  (deeds.filterMap Deed.value?).getLast?.getD initial

@[simp] theorem latest_nil (initial : Value) : latest initial [] = initial := rfl

@[simp] theorem latest_append (initial : Value) (first second : List Deed) :
    latest initial (first ++ second) = latest (latest initial first) second := by
  simp only [latest, List.filterMap_append, List.getLast?_append]
  cases (second.filterMap Deed.value?).getLast? <;> simp

/-- What deeds say about last values. -/
structure Remembers (before : Session) (deeds : List Deed) (after : Session) : Prop where
  /-- The last value is that of what was completed last. -/
  lastValue : after.lastValue = latest before.lastValue deeds
  /-- Calls that end without a return give the value of what was completed last by then. -/
  fellThrough : ∀ earlier function value later,
    deeds = earlier ++ .fellThrough function value :: later →
      value = latest before.lastValue earlier

namespace Remembers

variable {before middle after : Session} {deeds first second : List Deed}

/-- Nothing was recorded and the last value is the same. -/
theorem nil (h : after.lastValue = before.lastValue) : Remembers before [] after where
  lastValue := h
  fellThrough earlier function value later hdeeds := by simp at hdeeds

theorem trans (h : Remembers before first middle) (hnext : Remembers middle second after) :
    Remembers before (first ++ second) after where
  lastValue := by rw [hnext.lastValue, h.lastValue, latest_append]
  fellThrough earlier function value later hdeeds := by
    -- The call ended in the second part, or in the first, or first thing in the second.
    rcases List.append_eq_append_iff.mp hdeeds with
      ⟨between, rfl, hsecond⟩ | ⟨between, hfirst, hrest⟩
    · rw [hnext.fellThrough between function value later hsecond, h.lastValue, latest_append]
    · cases between with
      | nil =>
        rw [hnext.fellThrough [] function value later hrest.symm, h.lastValue, hfirst]
        simp
      | cons deed between =>
        obtain ⟨rfl, -⟩ := List.cons.inj hrest
        exact h.fellThrough earlier function value between hfirst

end Remembers

theorem Action.lastValue_onTerminal {α : Type} (location : Location)
    (action : EStateM IoError Terminal α) (session : Session) :
    (stateAfter (onTerminal location action) session).lastValue = session.lastValue := by
  simp only [stateAfter, onTerminal]
  cases action session.terminal <;> rfl

theorem Utterance.lastValue_send (utterance : Utterance) (session : Session) :
    (stateAfter utterance.send session).lastValue = session.lastValue := by
  cases utterance with
  | native text =>
    simp only [stateAfter, send, Action.onTerminalQuietly]
    cases Terminal.writeLine text session.terminal <;> rfl
  | _ => exact Action.lastValue_onTerminal _ _ session

/-- A move changes the last value only by completing something. -/
theorem Move.remembers {α : Type} (single : Move α) (session : Session) :
    Remembers session (single.deeds session) (stateAfter single.action session) := by
  cases single with
  | complete completion value =>
    refine ⟨rfl, fun earlier function result later hdeeds => ?_⟩
    simp [deeds, List.singleton_eq_append_iff] at hdeeds
  | fallThrough function =>
    refine ⟨rfl, fun earlier function result later hdeeds => ?_⟩
    simp [deeds, List.singleton_eq_append_iff] at hdeeds
    simp [hdeeds]
  | utter utterance =>
    refine ⟨utterance.lastValue_send session, fun earlier function result later hdeeds => ?_⟩
    simp [deeds, List.singleton_eq_append_iff] at hdeeds
  | lookup name => exact .nil (by rw [stateAfter_lookup])
  | checkDepth location => exact .nil (by rw [stateAfter_checkDepth])
  | checkCalled location => exact .nil (by rw [stateAfter_checkCalled])
  | read location => exact .nil (Action.lastValue_onTerminal ..)
  | flush => exact .nil (Action.lastValue_onTerminal ..)
  | _ => exact .nil rfl

namespace Plan

/-- What is recorded of a run says what the last value is. -/
theorem chronicle_remembers : Chronicle Remembers where
  refl session := .nil rfl
  trans := Remembers.trans
  move := Move.remembers
  inside enclosure {_ _ _} h := by
    cases enclosure with
    | block => exact ⟨h.lastValue, h.fellThrough⟩
    | body function arguments => exact ⟨h.lastValue, h.fellThrough⟩

/-- **The last value is that of what was completed last**, whatever is planned. -/
theorem remembers {α : Type} (plan : Plan α) (session : Session) :
    Remembers session (plan.log session) (stateAfter plan.run session) :=
  chronicle_remembers.holds plan session

/-- When something is recorded as completed: behind what its expression did, if that gave a value
and, in the case of a print statement, if the line of that value was written. -/
structure RecordsCompletions (steps : Nat) (session : Session) : Prop where
  expression (expr : Expr) :
    (exec (steps + 1) (.expression expr)).log session = (eval steps expr).log session ++
      logBehind (fun value _ => [.completed .expression value]) (Action.eval steps expr session)
  print (expr : Expr) :
    (exec (steps + 1) (.print expr)).log session = (eval steps expr).log session ++
      logBehind (fun value middle => .uttered (.statement expr.location value.text) ::
          logBehind (fun _ _ => [.completed .print value])
            (Action.onTerminal expr.location (Terminal.writeLine value.text) middle))
        (Action.eval steps expr session)
  declaration (name : Token) (expr : Expr) :
    (exec (steps + 1) (.var name (some expr))).log session = (eval steps expr).log session ++
      logBehind (fun value _ => [.completed (.declaration name.lexeme) value])
        (Action.eval steps expr session)
  bareDeclaration (name : Token) :
    (exec (steps + 1) (.var name none)).log session =
      [.completed (.declaration name.lexeme) .absent]
  assignment (name : Token) (expr : Expr) :
    (eval (steps + 1) (.assign name expr)).log session = (eval steps expr).log session ++
      logBehind (fun value _ => [.completed (.assignment name.lexeme) value])
        (Action.eval steps expr session)

/-- Whatever is completed is recorded, and nothing that is not. -/
theorem recordsCompletions (steps : Nat) (session : Session) :
    RecordsCompletions steps session := by
  have hlog {α : Type} (expr : Expr) (then' : Value → Plan α) :
      (eval steps expr >>= then').log session = (eval steps expr).log session ++
        logBehind (fun value => (then' value).log) (Action.eval steps expr session) := by
    rw [log_bind, run_eval]
  refine ⟨fun expr => hlog expr _, fun expr => ?_, fun name expr => hlog expr _, fun name => rfl,
    fun name expr => hlog expr _⟩
  refine (hlog expr _).trans (congrArg _ ?_)
  cases Action.eval steps expr session with
  | ok value middle => rfl
  | error reason middle => rfl

/-- The plan of the body of a function. -/
abbrev body (steps : Nat) (function : Function) : Plan Flow :=
  Runner.execAll (exec steps) function.declaration.body

/-- A call whose body ends without a return is recorded behind what the body did. -/
theorem log_call_of_normal (steps : Nat) (location : Location) {function : Function}
    {arguments : List Value} {session inner : Session}
    (harity : arguments.length = function.arity)
    (hdepth : session.callDepth < session.options.maxCallDepth)
    (hbody : (body steps function).run (session.entered function arguments) = .ok .normal inner) :
    (call (exec steps) location (.function function) arguments).log session =
      (body steps function).log (session.entered function arguments) ++
        [.fellThrough function inner.lastValue] := by
  have hcheck : runner.checkArity location function.name function.arity arguments = done () :=
    if_neg fun hne => hne harity
  have haround : (Enclosure.body function arguments).around (body steps function).run session =
      .ok .normal ((Enclosure.body function arguments).leave session inner) := by
    rw [Enclosure.around, Enclosure.start, hbody]
    rfl
  change (runner.checkArity location function.name function.arity arguments >>= fun _ =>
    runner.callFunction (exec steps) location function arguments).log session = _
  rw [hcheck]
  change logBehind (fun _ => (enclosed (.body function arguments) (body steps function) >>= _).log)
    ((Move.checkDepth location).action session) = _
  rw [Move.checkDepth_of_lt hdepth]
  change _ ++ logBehind _ ((Enclosure.body function arguments).around (body steps function).run
    session) = _
  rw [haround]
  rfl

/-- **A call that ends without a return** gives the value of what was completed last, be it in the
body or before the call. -/
theorem call_of_normal (steps : Nat) (location : Location) {function : Function}
    {arguments : List Value} {session inner : Session}
    (harity : arguments.length = function.arity)
    (hdepth : session.callDepth < session.options.maxCallDepth)
    (hbody : Action.execAll (Action.exec steps) function.declaration.body
      (session.entered function arguments) = .ok .normal inner) :
    Action.call (Action.exec steps) location (.function function) arguments session =
        .ok (latest session.lastValue
          ((body steps function).log (session.entered function arguments))) (session.back inner) ∧
      (call (exec steps) location (.function function) arguments).log session =
        (body steps function).log (session.entered function arguments) ++
          [.fellThrough function (latest session.lastValue
            ((body steps function).log (session.entered function arguments)))] := by
  have hrun : (body steps function).run (session.entered function arguments) = .ok .normal inner :=
    (congrFun (morphism_run.run_execAll (run_exec steps) function.declaration.body) _).trans hbody
  have hvalue : inner.lastValue = latest session.lastValue
      ((body steps function).log (session.entered function arguments)) := by
    have h := ((body steps function).remembers (session.entered function arguments)).lastValue
    rwa [stateAfter, hrun] at h
  rw [← hvalue]
  refine ⟨?_, log_call_of_normal steps location harity hdepth hrun⟩
  rw [Action.call_function _ location harity,
    Action.callFunction_entered (Action.tidy_exec steps) location function arguments hdepth, hbody]
  rfl

end Plan

/-- **The last value is that of what was completed last.** Whatever is done with a session, and
whether it ends with a result or stops: let it be recorded each time an expression statement, a
print statement whose line was written, a declaration of a variable or an assignment is completed,
in the order in which that happens and through all calls. Then the last value at the end is the last
one recorded, or that from before if there is none; and each call that ends without a return gives
the last value recorded by then, or that from before. For a single call this says which value it
gives: the last one recorded in the body or, if there is none, the last value from before the
call. -/
theorem last_value_is_latest (steps : Nat) (session : Session) :
    Plan.RecordsCompletions steps session ∧
    (∀ activity : Activity,
      (activity.after steps session).lastValue =
        latest session.lastValue (activity.deeds steps session) ∧
      ∀ earlier function value later,
        activity.deeds steps session = earlier ++ .fellThrough function value :: later →
          value = latest session.lastValue earlier) ∧
    ∀ location function arguments inner, arguments.length = function.arity →
      session.callDepth < session.options.maxCallDepth →
      Action.execAll (Action.exec steps) function.declaration.body
        (session.entered function arguments) = .ok .normal inner →
      let value := latest session.lastValue
        ((Plan.body steps function).log (session.entered function arguments))
      Action.call (Action.exec steps) location (.function function) arguments session =
          .ok value (session.back inner) ∧
        (Activity.call (.function function) location arguments).deeds steps session =
          (Plan.body steps function).log (session.entered function arguments) ++
            [.fellThrough function value] := by
  refine ⟨Plan.recordsCompletions steps session, fun activity => ?_,
    fun location function arguments inner harity hdepth hbody => ?_⟩
  · obtain ⟨hlast, hfell⟩ := Plan.chronicle_remembers.after steps activity session
    exact ⟨hlast, hfell⟩
  · exact Plan.call_of_normal steps location harity hdepth hbody

namespace Sample

/-- A session in which the last value is 7. -/
def recalling : Session := { Session.start {} {} with lastValue := .integer 7 }

/-- A function that does nothing. -/
def idle : Function := ⟨0, ⟨⟨.identifier, "idle", .unknown⟩, [], []⟩, 0⟩

/-- A statement that divides an integer by zero. -/
def failing : Stmt :=
  .expression (.binary (.literal (.integer 1)) ⟨.slash, "/", .unknown⟩ (.literal (.integer 0)))

/-- Doing nothing gives the last value from before the call. A script that stops leaves that of its
last statement that was completed. -/
theorem idle_recalls :
    Action.call (Action.exec 1) .unknown (.function idle) [] recalling =
        .ok (.integer 7) (recalling.back (recalling.entered idle [])) ∧
      (Activity.interpret [.expression (.literal (.integer 5)), failing]).deeds 3 recalling =
        [.completed .expression (.integer 5)] ∧
      (Activity.after 3 (.interpret [.expression (.literal (.integer 5)), failing])
        recalling).lastValue = .integer 5 := by
  have hcall := (last_value_is_latest 1 recalling).2.2 .unknown idle [] (recalling.entered idle [])
    rfl (by decide) rfl
  have hscript := ((last_value_is_latest 3 recalling).2.1
    (.interpret [.expression (.literal (.integer 5)), failing])).1
  exact ⟨hcall.1, rfl, hscript⟩

end Sample

end Scriptlet
