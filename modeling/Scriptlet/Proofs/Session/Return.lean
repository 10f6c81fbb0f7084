import Scriptlet.Proofs.Session.CallDepth

/-!
# Returning

A return ends the call that it stands in, and nothing but that call. As soon as it is reached, all
that still happens in the call is that its value is found. No statement and no round of a loop comes
after it, and the value is the value of the call. Outside of calls there is nothing to end, so a
return that is reached there is a fault, and no statement at the top of a script ever ends by
returning.

Which call a return stands in is told by how many calls are open. What is evaluated on the way to a
return only enters statements in calls that are opened for that, so a return with as many calls open
as at the start is one that the run has come to by itself.

## Main definitions

* `Traced.Enclosed` — statements are entered in new calls only
* `Traced.Settled`, `Traced.Reached` — a run ends as a return says, and a return is come to
* `Traced.Decided` — a return that is reached decides how the run ends
* `Traced.returnValue` — the value of a return

## Main results

* `Traced.enclosed_eval` — expressions
* `Traced.decided_exec` — statements
* `return_ends_call` — returns end the innermost call
-/

namespace Scriptlet

open Scriptlet.Action

namespace Traced

/-! ## Expressions -/

/-- Statements are entered in calls that are opened on the way only. -/
structure Enclosed {α : Type} (traced : Traced α) : Prop where
  tidy : traced.run.Tidy
  deeper : ∀ ⦃start stmt inner⦄, ⟨.exec stmt, inner⟩ ∈ traced.log start →
    start.callDepth < inner.callDepth

theorem Enclosed.bind {α β : Type} {first : Traced α} {next : α → Traced β} (h : first.Enclosed)
    (hnext : ∀ ⦃start result middle⦄, first.run start = .ok result middle →
      (next result).Enclosed) : (first >>= next).Enclosed := by
  refine ⟨h.tidy.bind_of fun _ _ _ hfirst => (hnext hfirst).tidy, ?_⟩
  intro start stmt inner hevent
  rcases mem_log_bind hevent with hevent | ⟨result, middle, hfirst, hevent⟩
  · exact h.deeper hevent
  · exact (h.tidy.of_ok hfirst).callDepth ▸ (hnext hfirst).deeper hevent

theorem enclosed_silent {α : Type} {action : Action α} (h : action.Tidy) :
    (silent action).Enclosed :=
  ⟨h, fun _ _ _ hevent => absurd hevent List.not_mem_nil⟩

theorem inherited_enclosed : Inherited @Enclosed where
  silent h _ := enclosed_silent h
  bind := Enclosed.bind

theorem Enclosed.enter {α : Type} {traced : Traced α} (h : traced.Enclosed) {task : Task}
    (htask : ∀ stmt, task ≠ .exec stmt) : (enter task traced).Enclosed := by
  refine ⟨h.tidy, fun start stmt inner hevent => ?_⟩
  rcases List.mem_cons.mp hevent with heq | hevent
  · cases heq
    exact absurd rfl (htask stmt)
  · exact h.deeper hevent

/-- The statements of a function are entered in the call that is opened for it. -/
theorem enclosed_call {exec : Stmt → Traced Flow} (hexec : ∀ stmt, (exec stmt).Guarded)
    (location : Location) (callee : Value) (arguments : List Value) :
    (call exec location callee arguments).Enclosed := by
  cases callee with
  | function f =>
    have htidy := tidy_call (fun stmt => (hexec stmt).tidy) location (.function f) arguments
    refine ⟨htidy, fun start stmt inner hevent => ?_⟩
    rw [log_call_function] at hevent
    rcases List.mem_cons.mp hevent with heq | hevent
    · cases heq
    · split at hevent
      · exact ((inherited_guarded.execAll hexec f.declaration.body).opens hevent).callDepth
      · cases hevent
  | native f =>
    have hcheck := enclosed_silent (confined_checkArity location f.name f.arity arguments)
    have hcall := enclosed_silent (confined_callNative location f arguments)
    rw [← checkArity_eq] at hcheck
    rw [← callNative_eq] at hcall
    exact (hcheck.bind fun _ _ _ _ => hcall).enter (by rintro _ ⟨⟩)
  | _ =>
    refine Enclosed.enter ?_ (by rintro _ ⟨⟩)
    exact enclosed_silent (confined_fault _ _)

theorem enclosed_eval (steps : Nat) (expr : Expr) : (eval steps expr).Enclosed := by
  induction steps generalizing expr with
  | zero => exact enclosed_silent (confined_throw _)
  | succ steps ih =>
    have hcall := enclosed_call (guarded_exec steps)
    rw [eval, Runner.eval]
    exact (inherited_enclosed.evalWith ih hcall expr).enter (by rintro _ ⟨⟩)

/-! ## Returns -/

/-- The value of a return: that of its expression, or the absent value if it has none. -/
def returnValue (steps : Nat) : Option Expr → Traced Value
  | some expr => eval steps expr
  | none => return .absent

/-- A return, once it has been entered. -/
abbrev ret (steps : Nat) (keyword : Token) (expr? : Option Expr) : Traced Flow :=
  runner.execWith (eval steps) (exec steps) (.ret keyword expr?)

section Ret

variable {steps : Nat} {keyword : Token} {expr? : Option Expr} {session : Session}

/-- Outside of calls a return is a fault, and its value is not found. -/
theorem ret_outside (h : session.callDepth = 0) :
    (ret steps keyword expr?).log session = [] ∧
      (ret steps keyword expr?).run session =
        .error (.fault ⟨.returnOutsideFunction, keyword.location⟩) session := by
  have hcheck := @Move.checkCalled_of_eq keyword.location session h
  exact ⟨log_bind_of_error hcheck, run_bind_of_error hcheck⟩

/-- In a call the value of a return is found and returned. -/
theorem ret_inside (h : session.callDepth ≠ 0) :
    (ret steps keyword expr?).log session = (returnValue steps expr?).log session ∧
      (ret steps keyword expr?).run session =
        (do return Flow.returned (← (returnValue steps expr?).run)) session := by
  have hcheck := @Move.checkCalled_of_ne keyword.location session h
  refine ⟨(log_bind_of_ok hcheck).trans ?_, (run_bind_of_ok hcheck).trans ?_⟩
  · cases expr? with
    | some expr => exact log_bind_of_nil (fun _ _ => rfl) session
    | none => rfl
  · cases expr? with
    | some expr => rfl
    | none => rfl

/-- A return does not go on with the next statement. -/
theorem ret_ne_normal (after : Session) :
    (ret steps keyword expr?).run session ≠ .ok .normal after := by
  intro hnormal
  by_cases h : session.callDepth = 0
  · rw [(ret_outside h).2] at hnormal
    cases hnormal
  · rw [(ret_inside h).2] at hnormal
    obtain ⟨value, middle, _, hpure⟩ := ok_of_bind hnormal
    cases hpure

theorem enclosed_ret : (ret steps keyword expr?).Enclosed := by
  refine ⟨?_, ?_⟩
  · rw [morphism_run.run_execWith (run_eval steps) (run_exec steps)]
    exact tidy_execWith (tidy_eval steps) (tidy_exec steps) (.ret keyword expr?)
  · intro start stmt inner hevent
    by_cases h : start.callDepth = 0
    · rw [(ret_outside h).1] at hevent
      cases hevent
    · rw [(ret_inside h).1] at hevent
      cases expr? with
      | some expr => exact (enclosed_eval steps expr).deeper hevent
      | none => cases hevent

end Ret

/-! ## Statements -/

/-- A run that started in a session ends as a return says that was reached in another: all that is
entered after the return is what it enters itself. -/
def Settled (outcome : EStateM.Result Stop Session Flow) (start : Session) (keyword : Token)
    (expr? : Option Expr) (inner : Session) (later : List Event) : Prop :=
  ∃ steps, later = (ret steps keyword expr?).log inner ∧
    outcome = onState start.back ((ret steps keyword expr?).run inner)

/-- A return was entered with as many calls open as at the start. -/
def Reached (log : List Event) (start : Session) : Prop :=
  ∃ keyword expr? inner, ⟨.exec (.ret keyword expr?), inner⟩ ∈ log ∧
    inner.callDepth = start.callDepth

/-- **A return that is reached decides how the run ends.** And a run ends by returning only if one
is reached. -/
structure Decided (traced : Traced Flow) : Prop where
  tidy : traced.run.Tidy
  settled : ∀ ⦃start earlier keyword expr? inner later⦄,
    traced.log start = earlier ++ ⟨.exec (.ret keyword expr?), inner⟩ :: later →
    inner.callDepth = start.callDepth →
    Settled (traced.run start) start keyword expr? inner later
  reached : ∀ ⦃start value after⦄, traced.run start = .ok (.returned value) after →
    Reached (traced.log start) start

section Later

variable {owned : ScopeId → Prop} {start middle inner : Session} {log later : List Event}
  {keyword : Token} {expr? : Option Expr} {outcome : EStateM.Result Stop Session Flow}

theorem Settled.of_advances (h : Settled outcome middle keyword expr? inner later)
    (hmiddle : start.Advances owned middle) : Settled outcome start keyword expr? inner later := by
  obtain ⟨steps, hlater, hrun⟩ := h
  refine ⟨steps, hlater, ?_⟩
  rw [hrun, funext hmiddle.back_eq]

theorem Settled.back (h : Settled outcome middle keyword expr? inner later) :
    Settled (onState start.back outcome) start keyword expr? inner later := by
  obtain ⟨steps, hlater, rfl⟩ := h
  exact ⟨steps, hlater, Session.onState_back_back start middle _⟩

theorem Settled.ne_normal (h : Settled outcome start keyword expr? inner later)
    (after : Session) : outcome ≠ .ok .normal after := by
  obtain ⟨steps, _, rfl⟩ := h
  intro hnormal
  obtain ⟨after, hret, _⟩ := ok_of_onState hnormal
  exact ret_ne_normal after hret

theorem Reached.behind (h : Reached log middle) (earlier : List Event)
    (hmiddle : start.Advances owned middle) : Reached (earlier ++ log) start := by
  obtain ⟨keyword, expr?, inner, hevent, hdepth⟩ := h
  exact ⟨keyword, expr?, inner, List.mem_append_right earlier hevent,
    hdepth.trans hmiddle.callDepth⟩

theorem Reached.before (h : Reached log start) (later : List Event) :
    Reached (log ++ later) start := by
  obtain ⟨keyword, expr?, inner, hevent, hdepth⟩ := h
  exact ⟨keyword, expr?, inner, List.mem_append_left later hevent, hdepth⟩

end Later

/-- An entry of a log that was put together is in its first or in its second part. -/
theorem append_eq_append_cons {first second earlier later : List Event} {event : Event}
    (h : first ++ second = earlier ++ event :: later) :
    (∃ between, first = earlier ++ event :: between ∧ later = between ++ second) ∨
      ∃ between, earlier = first ++ between ∧ second = between ++ event :: later := by
  rcases List.append_eq_append_iff.mp h with hinside | ⟨between, hfirst, hlater⟩
  · exact .inr hinside
  · cases between with
    | nil => exact .inr ⟨[], by simpa using hfirst.symm, by simpa using hlater.symm⟩
    | cons found rest =>
      obtain ⟨rfl, hrest⟩ := List.cons.inj hlater
      exact .inl ⟨rest, hfirst, hrest⟩

theorem decided_silent {action : Action Flow} (htidy : action.Tidy)
    (h : ∀ ⦃start value after⦄, action start ≠ .ok (.returned value) after) :
    (silent action).Decided := by
  refine ⟨htidy, ?_, ?_⟩
  · intro start earlier keyword expr? inner later hlog
    simp [silent] at hlog
  · exact fun start value after hrun => absurd hrun (@h start value after)

theorem decided_normal : (pure .normal : Traced Flow).Decided :=
  decided_silent (confined_pure _) (by rintro _ _ _ ⟨⟩)

/-- What is evaluated first decides nothing. -/
theorem Enclosed.decided {α : Type} {first : Traced α} {next : α → Traced Flow} (h : first.Enclosed)
    (hnext : ∀ result, (next result).Decided) : (first >>= next).Decided := by
  refine ⟨h.tidy.bind fun result => (hnext result).tidy, ?_, ?_⟩
  · intro start earlier keyword expr? inner later hlog hdepth
    have hnever : ⟨.exec (.ret keyword expr?), inner⟩ ∉ first.log start := fun hevent =>
      Nat.ne_of_gt (h.deeper hevent) hdepth
    cases hfirst : first.run start with
    | ok result middle =>
      rw [log_bind_of_ok hfirst] at hlog
      rw [run_bind_of_ok hfirst]
      rcases append_eq_append_cons hlog with ⟨between, hin, _⟩ | ⟨between, _, hin⟩
      · exact absurd (by rw [hin]; simp) hnever
      · have hmiddle := h.tidy.of_ok hfirst
        exact ((hnext result).settled hin (hdepth.trans hmiddle.callDepth.symm)).of_advances hmiddle
    | error stop middle =>
      rw [log_bind_of_error hfirst] at hlog
      exact absurd (by rw [hlog]; simp) hnever
  · intro start value after hrun
    obtain ⟨result, middle, hfirst, hsecond⟩ := ok_of_bind hrun
    rw [log_bind_of_ok hfirst]
    exact ((hnext result).reached hsecond).behind _ (h.tidy.of_ok hfirst)

/-- Statements one behind the other: the second is only executed if the first does not return. -/
theorem Decided.bind {first : Traced Flow} {next : Flow → Traced Flow} (h : first.Decided)
    (hnormal : (next .normal).Decided)
    (hreturned : ∀ value, next (.returned value) = pure (.returned value)) :
    (first >>= next).Decided := by
  refine ⟨h.tidy.bind fun flow => ?_, ?_, ?_⟩
  · cases flow with
    | normal => exact hnormal.tidy
    | returned value =>
      rw [hreturned]
      exact confined_pure _
  · intro start earlier keyword expr? inner later hlog hdepth
    cases hfirst : first.run start with
    | ok flow middle =>
      rw [log_bind_of_ok hfirst] at hlog
      rw [run_bind_of_ok hfirst]
      cases flow with
      | normal =>
        rcases append_eq_append_cons hlog with ⟨between, hin, _⟩ | ⟨between, _, hin⟩
        · exact absurd hfirst ((h.settled hin hdepth).ne_normal middle)
        · have hmiddle := h.tidy.of_ok hfirst
          exact (hnormal.settled hin (hdepth.trans hmiddle.callDepth.symm)).of_advances hmiddle
      | returned value =>
        -- nothing comes behind a statement that returned
        rw [hreturned] at hlog ⊢
        have hsettled := h.settled ((List.append_nil _).symm.trans hlog) hdepth
        rwa [hfirst] at hsettled
    | error stop middle =>
      rw [log_bind_of_error hfirst] at hlog
      rw [run_bind_of_error hfirst]
      exact hfirst ▸ h.settled hlog hdepth
  · intro start value after hrun
    obtain ⟨flow, middle, hfirst, hsecond⟩ := ok_of_bind hrun
    rw [log_bind_of_ok hfirst]
    cases flow with
    | normal => exact (hnormal.reached hsecond).behind _ (h.tidy.of_ok hfirst)
    | returned value => exact (h.reached hfirst).before _

section Statements

variable {eval : Expr → Traced Value} {exec : Stmt → Traced Flow}

theorem decided_execAll (hexec : ∀ stmt, (exec stmt).Decided) (body : List Stmt) :
    (Runner.execAll exec body).Decided := by
  induction body with
  | nil => exact decided_normal
  | cons stmt rest ih => exact (hexec stmt).bind ih fun _ => rfl

theorem decided_block (hexec : ∀ stmt, (exec stmt).Decided) (body : List Stmt) :
    (block exec body).Decided := by
  have hbody := decided_execAll hexec body
  have htidy : ∀ stmt, (exec stmt).run.Tidy := fun stmt => (hexec stmt).tidy
  refine ⟨tidy_block htidy body, ?_, ?_⟩
  · intro start earlier keyword expr? inner later hlog hdepth
    rw [log_block] at hlog
    rw [run_block htidy]
    exact (hbody.settled hlog hdepth).back
  · intro start value after hrun
    rw [run_block htidy] at hrun
    obtain ⟨inner, hinner, _⟩ := ok_of_onState hrun
    exact hbody.reached hinner

/-- Statements other than a return leave the decision to their parts. -/
theorem decided_execWith (heval : ∀ expr, (eval expr).Enclosed)
    (hexec : ∀ stmt, (exec stmt).Decided) {stmt : Stmt}
    (hstmt : ∀ keyword expr?, stmt ≠ .ret keyword expr?) :
    (runner.execWith eval exec stmt).Decided := by
  have hcompleted (completion : Completion) (value : Value) :
      (do runner.perform (.complete completion value); return Flow.normal).Decided :=
    (enclosed_silent (confined_remember value)).decided fun _ => decided_normal
  cases stmt with
  | expression expr => exact (heval expr).decided (hcompleted _)
  | print expr =>
    exact (heval expr).decided fun value =>
      (enclosed_silent (confined_onTerminal _ _)).decided fun _ => hcompleted _ value
  | var name expr? =>
    have hrest (value : Value) : (do
        runner.perform (.define name.lexeme value)
        runner.perform (.complete (.declaration name.lexeme) value)
        return Flow.normal).Decided :=
      (enclosed_silent (tidy_define _ value)).decided fun _ => hcompleted _ value
    cases expr? with
    | some expr => exact (heval expr).decided hrest
    | none => exact (enclosed_silent (confined_pure _)).decided hrest
  | block body => exact decided_block hexec body
  | branch condition yes no? =>
    refine (heval condition).decided fun value => ?_
    cases value.isTruthy with
    | true => exact hexec yes
    | false =>
      cases no? with
      | some no => exact hexec no
      | none => exact decided_normal
  | loop condition body =>
    refine (heval condition).decided fun value => ?_
    cases value.isTruthy with
    | true => exact (hexec body).bind (hexec (.loop condition body)) fun _ => rfl
    | false => exact decided_normal
  | function name params body =>
    exact (enclosed_silent (confined_makeFunction _)).decided fun f =>
      (enclosed_silent (tidy_define _ (.function f))).decided fun _ => decided_normal
  | ret keyword expr? => exact absurd rfl (hstmt keyword expr?)

theorem Decided.enter {traced : Traced Flow} {stmt : Stmt} (h : traced.Decided)
    (hstmt : ∀ keyword expr?, stmt ≠ .ret keyword expr?) : (enter (.exec stmt) traced).Decided := by
  refine ⟨h.tidy, ?_, ?_⟩
  · intro start earlier keyword expr? inner later hlog hdepth
    cases earlier with
    | nil => exact absurd (by cases hlog; rfl) (hstmt keyword expr?)
    | cons event earlier => exact h.settled (List.cons.inj hlog).2 hdepth
  · intro start value after hrun
    exact (h.reached hrun).behind [_] (.refl (fun _ => False) start)

/-- A return that is reached is the decision. -/
theorem decided_ret (steps : Nat) (keyword : Token) (expr? : Option Expr) :
    (enter (.exec (.ret keyword expr?)) (ret steps keyword expr?)).Decided := by
  have henclosed := @enclosed_ret steps keyword expr?
  refine ⟨henclosed.tidy, ?_, ?_⟩
  · intro start earlier keyword' expr?' inner later hlog hdepth
    cases earlier with
    | nil =>
      obtain ⟨heq, hlater⟩ := List.cons.inj hlog
      cases heq
      exact ⟨steps, hlater.symm, (onState_back henclosed.tidy start).symm⟩
    | cons event earlier =>
      have hevent :
          ⟨.exec (.ret keyword' expr?'), inner⟩ ∈ (ret steps keyword expr?).log start := by
        rw [(List.cons.inj hlog).2]
        simp
      exact absurd hdepth (Nat.ne_of_gt (henclosed.deeper hevent))
  · intro start value after _
    exact ⟨keyword, expr?, start, List.mem_cons_self, rfl⟩

end Statements

theorem decided_exec (steps : Nat) (stmt : Stmt) : (exec steps stmt).Decided := by
  induction steps generalizing stmt with
  | zero => exact decided_silent (confined_throw _) (by rintro _ _ _ ⟨⟩)
  | succ steps ih =>
    by_cases hstmt : ∃ keyword expr?, stmt = .ret keyword expr?
    · obtain ⟨keyword, expr?, rfl⟩ := hstmt
      rw [exec, Runner.exec]
      exact decided_ret steps keyword expr?
    · have hother : ∀ keyword expr?, stmt ≠ .ret keyword expr? := fun keyword expr? heq =>
        hstmt ⟨keyword, expr?, heq⟩
      rw [exec, Runner.exec]
      exact (decided_execWith (enclosed_eval steps) ih hother).enter hother

/-! ## Calls and scripts -/

/-- Outside of calls a return that is reached is the end of the run. -/
theorem exec_outside {steps : Nat} {stmt : Stmt} {start inner : Session}
    {earlier later : List Event} {keyword : Token} {expr? : Option Expr}
    (hstart : start.callDepth = 0)
    (hlog : (exec steps stmt).log start = earlier ++ ⟨.exec (.ret keyword expr?), inner⟩ :: later)
    (hinner : inner.callDepth = 0) :
    later = [] ∧ Action.exec steps stmt start =
      .error (.fault ⟨.returnOutsideFunction, keyword.location⟩) (start.back inner) := by
  obtain ⟨fewer, rfl, hrun⟩ := (decided_exec steps stmt).settled hlog (hinner.trans hstart.symm)
  refine ⟨(ret_outside hinner).1, ?_⟩
  rw [← run_exec, hrun, (ret_outside hinner).2]
  rfl

/-- Outside of calls no statement ends by returning. -/
theorem exec_ne_returned {steps : Nat} {stmt : Stmt} {start : Session}
    (hstart : start.callDepth = 0) (value : Value) (after : Session) :
    Action.exec steps stmt start ≠ .ok (.returned value) after := by
  intro hrun
  obtain ⟨keyword, expr?, inner, hevent, hdepth⟩ :=
    (decided_exec steps stmt).reached ((run_exec steps stmt).symm ▸ hrun)
  obtain ⟨earlier, later, hlog⟩ := List.append_of_mem hevent
  have houtside := (exec_outside hstart hlog (hdepth.trans hstart)).2
  rw [hrun] at houtside
  cases houtside

/-- In a call a return that is reached gives the value of the call. -/
theorem call_returned {steps : Nat} {location : Location} {function : Function}
    {arguments : List Value} {start inner : Session} {earlier later : List Event} {keyword : Token}
    {expr? : Option Expr}
    (hlog : (call (exec steps) location (.function function) arguments).log start =
      earlier ++ ⟨.exec (.ret keyword expr?), inner⟩ :: later)
    (hdepth : inner.callDepth = start.callDepth + 1) :
    ∃ fewer, later = (returnValue fewer expr?).log inner ∧
      Action.call (Action.exec steps) location (.function function) arguments start =
        onState start.back ((returnValue fewer expr?).run inner) := by
  have hinside : inner.callDepth ≠ 0 := by omega
  rw [log_call_function] at hlog
  cases earlier with
  | nil => cases (List.cons.inj hlog).1
  | cons event earlier =>
    replace hlog := (List.cons.inj hlog).2
    split at hlog
    · next hopen =>
      have hbody := decided_execAll (decided_exec steps) function.declaration.body
      obtain ⟨fewer, rfl, hrun⟩ := hbody.settled hlog hdepth
      refine ⟨fewer, (ret_inside hinside).1, ?_⟩
      rw [← morphism_run.run_call (run_exec steps),
        run_call_entered (fun stmt => (decided_exec steps stmt).tidy)
        location hopen.1 hopen.2, hrun, Session.finished_onState_back, (ret_inside hinside).2,
        Session.finished_returned]
    · simp at hlog

end Traced

namespace Action

/-- Executes the statements at the top of a script, and does something with what they return. -/
def execTopWith (handle : Value → Action Unit) (steps : Nat) : List Stmt → Action Unit
  | [] => return
  | stmt :: rest => do
    match ← exec steps stmt with
    | .normal => pure ()
    | .returned value => handle value
    echo stmt
    execTopWith handle steps rest

/-- Nothing is ever returned at the top of a script. -/
theorem execTopWith_eq (handle : Value → Action Unit) (steps : Nat) (statements : List Stmt)
    {start : Session} (hstart : start.callDepth = 0) :
    execTopWith handle steps statements start = execTop steps statements start := by
  induction statements generalizing start with
  | nil => rfl
  | cons stmt rest ih =>
    cases hexec : exec steps stmt start with
    | ok flow middle =>
      cases flow with
      | normal =>
        refine (bind_of_ok hexec).trans (Eq.trans ?_ (bind_of_ok hexec).symm)
        change (echo stmt >>= fun _ => execTopWith handle steps rest) middle =
          (echo stmt >>= fun _ => execTop steps rest) middle
        cases hecho : echo stmt middle with
        | ok result after =>
          have hdepth := (confined_echo stmt : Tidy (echo stmt)).of_ok hecho |>.callDepth
          rw [bind_of_ok hecho, bind_of_ok hecho]
          exact ih (hdepth.trans ((tidy_exec steps stmt).of_ok hexec |>.callDepth.trans hstart))
        | error stop after => rw [bind_of_error hecho, bind_of_error hecho]
      | returned value => exact absurd hexec (Traced.exec_ne_returned hstart value middle)
    | error stop middle => exact (bind_of_error hexec).trans (bind_of_error hexec).symm

end Action

/-- **A return ends the innermost call, and nothing else.** Outside of calls no statement ends by
returning, and a return that is reached there is a fault at its keyword: nothing is entered after
it, not even its expression. In a call, as soon as a return of the function that is called is
reached, all that is still entered is its expression, and the value of the call is the value of that
expression, or the absent value if there is none. So whatever were done at the top of a script
with a value that is returned, it would never be done. -/
theorem return_ends_call (steps : Nat) :
    (∀ stmt, (Traced.exec steps stmt).run = exec steps stmt) ∧
    (∀ stmt start, start.callDepth = 0 →
      (∀ value after, exec steps stmt start ≠ .ok (.returned value) after) ∧
      ∀ earlier keyword expr? inner later,
        (Traced.exec steps stmt).log start =
          earlier ++ ⟨.exec (.ret keyword expr?), inner⟩ :: later →
        inner.callDepth = 0 →
        later = [] ∧ exec steps stmt start =
          .error (.fault ⟨.returnOutsideFunction, keyword.location⟩) (start.back inner)) ∧
    (∀ location function arguments start earlier keyword expr? inner later,
      (Traced.call (Traced.exec steps) location (.function function) arguments).log start =
        earlier ++ ⟨.exec (.ret keyword expr?), inner⟩ :: later →
      inner.callDepth = start.callDepth + 1 →
      ∃ fewer, later = (Traced.returnValue fewer expr?).log inner ∧
        call (exec steps) location (.function function) arguments start =
          onState start.back ((Traced.returnValue fewer expr?).run inner)) ∧
    ∀ handle statements start, start.callDepth = 0 →
      execTopWith handle steps statements start = execTop steps statements start := by
  refine ⟨Traced.run_exec steps, fun stmt start hstart => ⟨?_, ?_⟩, ?_, ?_⟩
  · exact Traced.exec_ne_returned hstart
  · exact fun _ _ _ _ _ => Traced.exec_outside hstart
  · exact fun _ _ _ _ _ _ _ _ _ => Traced.call_returned
  · exact fun handle statements _ => execTopWith_eq handle steps statements

namespace Sample

/-- Returns an integer. -/
def returning (n : Int64) : Stmt :=
  .ret ⟨.kwReturn, "return", .unknown⟩ (some (.literal (.integer n)))

/-- A function that returns 7 from a block in a loop that has no other end, and would return 8
after the loop. -/
def seven : Function :=
  ⟨0, ⟨⟨.identifier, "seven", .unknown⟩, [],
    [.loop (.literal (.boolean true)) (.block [returning 7]), returning 8]⟩, 0⟩

/-- The first return is reached, and is the last statement of the function. -/
theorem seven_returned :
    ∃ earlier inner later,
      (Traced.call (Traced.exec 4) .unknown (.function seven) []).log (Session.start {} {}) =
        earlier ++ ⟨.exec (returning 7), inner⟩ :: later ∧
      inner.callDepth = (Session.start {} {}).callDepth + 1 ∧
      ∃ fewer, later = (Traced.eval fewer (.literal (.integer 7))).log inner ∧
        call (exec 4) .unknown (.function seven) [] (Session.start {} {}) =
          onState (Session.start {} {}).back
            ((Traced.eval fewer (.literal (.integer 7))).run inner) := by
  have hlog :
      (Traced.call (Traced.exec 4) .unknown (.function seven) []).log (Session.start {} {}) =
        [_, _, _, _] ++ ⟨.exec (returning 7), _⟩ :: _ := rfl
  exact ⟨_, _, _, hlog, rfl, (return_ends_call 4).2.2.1 _ _ _ _ _ _ _ _ _ hlog rfl⟩

end Sample

end Scriptlet
