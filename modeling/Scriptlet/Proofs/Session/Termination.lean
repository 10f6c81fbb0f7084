import Scriptlet.Proofs.Session.CallDepth
import Scriptlet.Proofs.Store.Region

/-!
# Only loops can go on forever

A script without loops ends, however its functions call each other and themselves, because only so
many calls may be open. With each call that is opened one fewer can be opened, and between two calls
a run only goes down into smaller trees. The bodies of functions come out of the store, though, so
this needs that no function has a loop, in the script or in any scope, and that it stays so.

## Main definitions

* `Stmt.LoopFree`, `Session.LoopFree` — no loop, in a statement or in any function of a session
* `Action.Ends` — runs that end if they are given enough steps

## Main results

* `Session.Ready.eval`, `Session.Ready.exec` — no function with a loop comes up
* `Action.ends_call`, `Action.ends_eval`, `Action.ends_exec` — calls end if bodies do, expressions
  and statements if calls do
* `interpret_ends` — a script without loops ends
-/

namespace Scriptlet

open Scriptlet.Action

/-! ## No loops -/

/-- A statement with no loop in it, nor in any function that it declares. -/
inductive Stmt.LoopFree : Stmt → Prop
  | expression (expr : Expr) : LoopFree (.expression expr)
  | print (expr : Expr) : LoopFree (.print expr)
  | var (name : Token) (expr? : Option Expr) : LoopFree (.var name expr?)
  | block {body : List Stmt} : (∀ stmt ∈ body, LoopFree stmt) → LoopFree (.block body)
  | branch {condition : Expr} {yes : Stmt} {no? : Option Stmt} : LoopFree yes →
      (∀ no, no? = some no → LoopFree no) → LoopFree (.branch condition yes no?)
  | function {name : Token} {params : List Token} {body : List Stmt} :
      (∀ stmt ∈ body, LoopFree stmt) → LoopFree (.function name params body)
  | ret (keyword : Token) (expr? : Option Expr) : LoopFree (.ret keyword expr?)

/-- A value that is no function with a loop in its body. -/
def Value.LoopFree : Value → Prop
  | .function f => ∀ stmt ∈ f.declaration.body, stmt.LoopFree
  | _ => True

namespace Session

/-- No function that is bound in a scope, and not the last value, has a loop in its body. -/
structure LoopFree (session : Session) : Prop where
  bound : ∀ ⦃id name value⦄, session.store.binding? id name = some value → value.LoopFree
  lastValue : session.lastValue.LoopFree

/-- No function has a loop in its body, and at most so many more calls may be opened. -/
structure Ready (remaining : Nat) (session : Session) : Prop where
  loopFree : session.LoopFree
  limit : session.options.maxCallDepth ≤ session.callDepth + remaining

end Session

/-- A run of statements and functions without loops, next to itself. -/
def withoutLoops : Replay Unit where
  le _ _ := True
  stmts := Stmt.LoopFree
  values _ := Value.LoopFree
  scopes _ _ := True
  stores _ store store' := store' = store ∧
    ∀ ⦃id name value⦄, store.binding? id name = some value → value.LoopFree
  limits := Eq
  excused _ := False

theorem withoutLoops_lawful : withoutLoops.Lawful where
  refl _ := trivial
  trans _ _ := trivial
  values_mono h _ := h
  scopes_mono h _ := h
  block h := by
    cases h with
    | block hbody => exact hbody
  yes h := by
    cases h with
    | branch hyes _ => exact hyes
  no h := by
    cases h with
    | branch _ hno => exact hno _ rfl
  loop h := nomatch h
  declared h := by
    cases h with
    | function hbody => exact hbody
  literal _ literal := by cases literal <;> trivial
  function := ⟨fun h => ⟨h, trivial⟩, fun h => h.1⟩
  get? name h _ := by
    refine ⟨by rw [h.1], fun value hvalue => ?_⟩
    obtain ⟨found, _, hbinding⟩ := List.exists_of_findSome?_eq_some hvalue
    exact h.2 hbinding
  target name h _ := ⟨by rw [h.1], trivial⟩
  define := by
    rintro _ store _ scope value name ⟨rfl, hbound⟩ _ hvalue
    refine ⟨rfl, fun id wanted result hresult => ?_⟩
    rcases Store.eq_or_of_binding?_define hresult with ⟨_, rfl⟩ | hold
    · exact hvalue
    · exact hbound hold
  openEnclosed := by
    rintro _ store _ scope ⟨rfl, hbound⟩ _
    refine ⟨rfl, (), trivial, trivial, rfl, fun id name value hvalue => ?_⟩
    exact hbound (Store.of_binding?_add hvalue).2
  limits_le h := Nat.le_of_eq h
  overflow _ h := .inl h

namespace Session

variable {remaining : Nat} {before after : Session}

theorem loopFree_iff : withoutLoops.Sessions () before before ↔ before.LoopFree :=
  ⟨fun h => ⟨h.stores.2, h.value⟩,
    fun h => ⟨⟨rfl, h.bound⟩, rfl, h.lastValue, rfl, rfl, rfl, rfl, rfl, rfl⟩⟩

/-- What a run without loops leaves behind and gives. -/
theorem Ready.of_alike {α : Type} {action : Action α} {post : Unit → α → α → Prop} {result : α}
    (h : before.Ready remaining) (halike : withoutLoops.likeness.Alike True () post action action)
    (htidy : Tidy action) (haction : action before = .ok result after) :
    after.Ready remaining ∧ ∃ result', post () result result' := by
  have houtcome := halike (loopFree_iff.mpr h.loopFree) fun _ => ⟨rfl, trivial⟩
  have hafter := htidy.of_ok haction
  rw [haction] at houtcome
  cases houtcome with
  | ok hlater hpost =>
    refine ⟨⟨⟨hlater.sessions.stores.2, hlater.sessions.value⟩, ?_⟩, _, hpost⟩
    rw [hafter.options, hafter.callDepth]
    exact h.limit

theorem alike_steps (steps : Nat) :
    withoutLoops.likeness.Evals (Action.eval steps) (Action.eval steps) ∧
      withoutLoops.likeness.Execs (Action.exec steps) (Action.exec steps) :=
  withoutLoops_lawful.likeness.steps (.inl rfl)

theorem Ready.eval (h : before.Ready remaining) {steps : Nat} {expr : Expr} {value : Value}
    (heval : Action.eval steps expr before = .ok value after) :
    after.Ready remaining ∧ value.LoopFree := by
  obtain ⟨hafter, _, _, hvalue⟩ :=
    h.of_alike ((alike_steps steps).1 rfl) (tidy_eval steps expr) heval
  exact ⟨hafter, hvalue⟩

theorem Ready.evalAll (h : before.Ready remaining) {steps : Nat} {exprs : List Expr}
    {values : List Value}
    (heval : Action.evalAll (Action.eval steps) exprs before = .ok values after) :
    after.Ready remaining ∧ ∀ value ∈ values, value.LoopFree := by
  have law := withoutLoops_lawful.likeness
  have halike := @Likeness.Lawful.evalAll _ _ () law _ _ (alike_steps steps).1 exprs exprs
    (List.forall₂_same.mpr fun _ _ => rfl)
  obtain ⟨hafter, _, hvalues⟩ :=
    h.of_alike halike (confined_evalAll (tidy_eval steps) exprs) heval
  refine ⟨hafter, ?_⟩
  clear heval halike
  induction hvalues with
  | nil => nofun
  | cons hvalue _ ih => exact List.forall_mem_cons.mpr ⟨hvalue.2, ih⟩

theorem Ready.exec (h : before.Ready remaining) {steps : Nat} {stmt : Stmt} {flow : Flow}
    (hstmt : stmt.LoopFree) (hexec : Action.exec steps stmt before = .ok flow after) :
    after.Ready remaining :=
  (h.of_alike ((alike_steps steps).2 ⟨rfl, hstmt⟩) (tidy_exec steps stmt) hexec).1

theorem Ready.echo (h : before.Ready remaining) {stmt : Stmt} (hstmt : stmt.LoopFree)
    (hecho : Action.echo stmt before = .ok () after) : after.Ready remaining :=
  (h.of_alike (withoutLoops_lawful.likeness.echo ⟨rfl, hstmt⟩ fun hsessions => hsessions.dump.symm)
    (confined_echo stmt) hecho).1

theorem Ready.nested (h : before.Ready remaining) : before.nested.Ready remaining := by
  have law := withoutLoops_lawful.likeness
  obtain ⟨_, _, hopened, _⟩ := law.openScope (loopFree_iff.mpr h.loopFree)
    (⟨rfl, trivial⟩ : withoutLoops.likeness.scopes () before.scope before.scope)
  exact ⟨loopFree_iff.mp (law.rescope _ _ hopened), h.limit⟩

/-- A function is entered with one fewer call that may be opened. -/
theorem Ready.entered (h : before.Ready (remaining + 1)) (function : Function)
    {arguments : List Value} (harguments : ∀ argument ∈ arguments, argument.LoopFree) :
    (before.entered function arguments).Ready remaining := by
  have law := withoutLoops_lawful.likeness
  obtain ⟨_, _, hopened, hnew⟩ := law.openScope (loopFree_iff.mpr h.loopFree)
    (⟨rfl, trivial⟩ : withoutLoops.likeness.scopes () function.scope function.scope)
  have hbound := law.bound hopened hnew
    (List.forall₂_same.mpr fun param (_ : param ∈ function.declaration.params) => rfl)
    (List.forall₂_same.mpr fun argument hargument => ⟨rfl, harguments argument hargument⟩)
  refine ⟨loopFree_iff.mp (law.begun (law.rescope _ _ hbound)), ?_⟩
  have hlimit := h.limit
  change before.options.maxCallDepth ≤ before.callDepth + 1 + remaining
  omega

end Session

/-! ## Runs that end -/

namespace Action

variable {α β : Type} {before : Session}

/-- Runs that end if they are given enough steps, and then always in the same way. -/
def Ends (run : Nat → Action α) (before : Session) : Prop :=
  ∃ steps outcome, (∀ after, outcome ≠ .error .exhausted after) ∧
    ∀ more, steps ≤ more → run more before = outcome

theorem Brief.ends {action : Action α} (h : Brief action) : Ends (fun _ => action) before :=
  ⟨0, action before, fun _ hexhausted => h hexhausted trivial, fun _ _ => rfl⟩

/-- The first step may be taken apart. -/
theorem Ends.of_succ {run : Nat → Action α} (h : Ends (fun steps => run (steps + 1)) before) :
    Ends run before := by
  obtain ⟨steps, outcome, hends, hsame⟩ := h
  refine ⟨steps + 1, outcome, hends, fun more hmore => ?_⟩
  obtain ⟨more, rfl⟩ : ∃ fewer, more = fewer + 1 := ⟨more - 1, by omega⟩
  exact hsame more (by omega)

theorem Ends.bind {run : Nat → Action α} {next : Nat → α → Action β} (h : Ends run before)
    (hnext : ∀ {steps result after}, run steps before = .ok result after →
      Ends (fun more => next more result) after) :
    Ends (fun more => run more >>= next more) before := by
  obtain ⟨steps, outcome, hends, hsame⟩ := h
  cases outcome with
  | ok result middle =>
    obtain ⟨steps', outcome, hends', hsame'⟩ := hnext (hsame steps (Nat.le_refl steps))
    refine ⟨max steps steps', outcome, hends', fun more hmore => ?_⟩
    exact (bind_of_ok (hsame more (by omega))).trans (hsame' more (by omega))
  | error stop middle =>
    refine ⟨steps, .error stop middle, ?_, fun more hmore => bind_of_error (hsame more hmore)⟩
    rintro _ ⟨⟩
    exact hends middle rfl

theorem Ends.congr {run run' : Nat → Action α} (h : Ends run before)
    (heq : ∀ steps, run' steps before = run steps before) : Ends run' before := by
  obtain ⟨steps, outcome, hends, hsame⟩ := h
  exact ⟨steps, outcome, hends, fun more hmore => (heq more).trans (hsame more hmore)⟩

/-- What is made of an outcome that is no matter of steps is none either. -/
theorem Ends.map {run : Nat → Action α} {run' : Nat → Action β} {inside : Session}
    {change : EStateM.Result Stop Session α → EStateM.Result Stop Session β}
    (h : Ends run inside) (heq : ∀ steps, run' steps before = change (run steps inside))
    {restore : Session → Session}
    (hchange : ∀ {outcome stop after}, change outcome = .error stop after →
      ∃ inner, outcome = .error stop inner ∧ after = restore inner) : Ends run' before := by
  obtain ⟨steps, outcome, hends, hsame⟩ := h
  refine ⟨steps, change outcome, fun after hafter => ?_, fun more hmore => ?_⟩
  · obtain ⟨inner, hinner, _⟩ := hchange hafter
    exact hends inner hinner
  · rw [heq, hsame more hmore]

/-! ## Calls, expressions and statements -/

variable {remaining : Nat}

theorem ends_execAll {body : List Stmt} (hbody : ∀ stmt ∈ body, stmt.LoopFree)
    (h : ∀ stmt ∈ body, ∀ ⦃before : Session⦄, before.Ready remaining →
      Ends (fun steps => exec steps stmt) before) (hready : before.Ready remaining) :
    Ends (fun steps => execAll (exec steps) body) before := by
  induction body generalizing before with
  | nil => exact (brief_pure _).ends
  | cons stmt rest ih =>
    obtain ⟨hstmt, hrest⟩ := List.forall_mem_cons.mp hbody
    refine (h stmt List.mem_cons_self hready).bind fun {steps flow after} hexec => ?_
    cases flow with
    | normal =>
      exact ih hrest (fun next hnext => h next (List.mem_cons_of_mem _ hnext))
        (hready.exec hstmt hexec)
    | returned value => exact (brief_pure _).ends

/-- Calls of functions without loops end. -/
def CallsEnd (remaining : Nat) : Prop :=
  ∀ ⦃location callee arguments before⦄, callee.LoopFree →
    (∀ argument ∈ arguments, argument.LoopFree) → Session.Ready remaining before →
    Ends (fun steps => call (exec steps) location callee arguments) before

/-- Statements without loops end. -/
def ExecsEnd (remaining : Nat) : Prop :=
  ∀ ⦃stmt before⦄, stmt.LoopFree → Session.Ready remaining before →
    Ends (fun steps => exec steps stmt) before

/-- **Calls end** if statements do with one fewer call that may be opened. -/
theorem ends_call (h : ∀ fewer, remaining = fewer + 1 → ExecsEnd fewer) : CallsEnd remaining := by
  intro location callee arguments before hcallee harguments hready
  cases callee with
  | function f =>
    by_cases harity : arguments.length = f.arity
    · simp only [call_function _ location harity]
      by_cases hfull : before.options.maxCallDepth ≤ before.callDepth
      · refine ⟨0, _, ?_, fun steps _ => callFunction_full location f arguments hfull⟩
        rintro _ ⟨⟩
      · have hlimit := hready.limit
        obtain ⟨fewer, rfl⟩ : ∃ fewer, remaining = fewer + 1 := ⟨remaining - 1, by omega⟩
        have hends := ends_execAll hcallee (fun stmt hstmt _ => h fewer rfl (hcallee stmt hstmt))
          (hready.entered f harguments)
        exact hends.map (fun steps => callFunction_entered (tidy_exec steps) location f arguments
          (Nat.not_le.mp hfull)) Session.error_of_finished
    · simp only [call_function_of_ne _ location harity]
      exact Brief.ends (brief_fault nofun)
  | native f =>
    exact ((brief_checkArity _ _ _ _).bind fun _ => brief_callNative _ _ _).ends
  | integer n => exact Brief.ends (brief_fault nofun)
  | string s => exact Brief.ends (brief_fault nofun)
  | boolean b => exact Brief.ends (brief_fault nofun)
  | absent => exact Brief.ends (brief_fault nofun)

theorem ends_evalAll {exprs : List Expr}
    (h : ∀ expr ∈ exprs, ∀ before : Session, before.Ready remaining →
      Ends (fun steps => eval steps expr) before) (hready : before.Ready remaining) :
    Ends (fun steps => evalAll (eval steps) exprs) before := by
  induction exprs generalizing before with
  | nil => exact (brief_pure _).ends
  | cons expr rest ih =>
    refine (h expr List.mem_cons_self before hready).bind fun {steps value after} heval => ?_
    have hrest := ih (fun next hnext => h next (List.mem_cons_of_mem _ hnext))
      (hready.eval heval).1
    exact hrest.bind fun _ => (brief_pure _).ends

/-- **Expressions end** if calls do. -/
theorem ends_eval (h : CallsEnd remaining) (expr : Expr) (before : Session)
    (hready : before.Ready remaining) : Ends (fun steps => eval steps expr) before := by
  refine .of_succ ?_
  match expr with
  | .literal value => exact (brief_pure _).ends
  | .var name => exact (brief_lookup name).ends
  | .assign name expr =>
    refine (ends_eval h expr before hready).bind fun {_ value after} _ => ?_
    exact ((brief_modify _).bind fun _ => (brief_modify _).bind fun _ => brief_pure _).ends
  | .unary operator operand =>
    exact (ends_eval h operand before hready).bind fun _ => (brief_unary _ _ _).ends
  | .binary left operator right =>
    refine (ends_eval h left before hready).bind fun {_ _ middle} hleft => ?_
    exact (ends_eval h right middle (hready.eval hleft).1).bind fun _ => (brief_binary _ _ _ _).ends
  | .logical left operator right =>
    refine (ends_eval h left before hready).bind fun {_ value middle} hleft => ?_
    have hright := ends_eval h right middle (hready.eval hleft).1
    cases operator.kind with
    | kwOr =>
      cases value.isTruthy with
      | true => exact (brief_pure _).ends
      | false => exact hright
    | kwAnd =>
      cases value.isTruthy with
      | true => exact hright
      | false => exact (brief_pure _).ends
    | _ => exact Brief.ends (brief_fault nofun)
  | .call callee paren arguments =>
    refine (ends_eval h callee before hready).bind fun {_ function middle} hcallee => ?_
    obtain ⟨hmiddle, hfunction⟩ := hready.eval hcallee
    have harguments := ends_evalAll (fun argument (_ : argument ∈ arguments) =>
      ends_eval h argument) hmiddle
    refine harguments.bind fun {_ values after} heval => ?_
    obtain ⟨hafter, hvalues⟩ := hmiddle.evalAll heval
    exact h hfunction hvalues hafter

/-- **Statements end** if calls do. -/
theorem ends_exec (h : CallsEnd remaining) : ExecsEnd remaining := by
  intro stmt before hstmt hready
  induction hstmt generalizing before with
  | expression expr =>
    refine .of_succ ((ends_eval h expr before hready).bind fun {_ value after} _ => ?_)
    exact ((brief_modify _).bind fun _ => brief_pure _).ends
  | print expr =>
    refine .of_succ ((ends_eval h expr before hready).bind fun {_ value after} _ => ?_)
    exact ((brief_onTerminal _ _).bind fun _ => (brief_modify _).bind fun _ =>
      brief_pure _).ends
  | var name expr? =>
    have hrest (value : Value) :
        Brief (do define name.lexeme value; remember value; return Flow.normal) :=
      (brief_modify _).bind fun _ => (brief_modify _).bind fun _ => brief_pure _
    cases expr? with
    | some expr => exact .of_succ ((ends_eval h expr before hready).bind fun _ => (hrest _).ends)
    | none => exact .of_succ (hrest .absent).ends
  | @block body hbody ih =>
    have hends := ends_execAll hbody ih hready.nested
    exact .of_succ (hends.map (fun steps => execWith_block (tidy_exec steps) body before)
      error_of_onState)
  | @branch condition yes no? hyes hno ihyes ihno =>
    refine .of_succ ((ends_eval h condition before hready).bind fun {_ value after} heval => ?_)
    have hafter := (hready.eval heval).1
    cases value.isTruthy with
    | true => exact ihyes hafter
    | false =>
      cases no? with
      | some no => exact ihno no rfl hafter
      | none => exact (brief_pure _).ends
  | @function name params body hbody ih =>
    have hdeclared := (brief_makeFunction ⟨name, params, body⟩).bind fun f =>
      (brief_modify fun session => { session with
        store := session.store.define session.scope name.lexeme (.function f) }).bind fun _ =>
          brief_pure Flow.normal
    exact .of_succ hdeclared.ends
  | ret keyword expr? =>
    refine .of_succ ?_
    by_cases hdepth : before.callDepth = 0
    · have hfault : Brief (fault .returnOutsideFunction keyword.location : Action Flow) :=
        brief_fault nofun
      exact hfault.ends.congr fun steps => execWith_ret_outside keyword expr? hdepth
    cases expr? with
    | some expr =>
      have hends := (ends_eval h expr before hready).bind fun {_ value after} _ =>
        (brief_pure (Flow.returned value)).ends
      exact hends.congr fun steps => execWith_ret_some keyword expr hdepth
    | none =>
      exact (brief_pure (Flow.returned .absent)).ends.congr fun steps =>
        execWith_ret_none keyword hdepth

/-- **Statements without loops end**: with each call that is opened one fewer may be opened. -/
theorem execsEnd (remaining : Nat) : ExecsEnd remaining := by
  induction remaining with
  | zero => exact ends_exec (ends_call nofun)
  | succ remaining ih =>
    refine ends_exec (ends_call fun fewer hfewer => ?_)
    obtain rfl := Nat.succ.inj hfewer
    exact ih

theorem ends_execTop {statements : List Stmt} (h : ∀ stmt ∈ statements, stmt.LoopFree)
    (hready : before.Ready remaining) :
    Ends (fun steps => execTop steps statements) before := by
  induction statements generalizing before with
  | nil => exact (brief_pure _).ends
  | cons stmt rest ih =>
    obtain ⟨hstmt, hrest⟩ := List.forall_mem_cons.mp h
    refine (execsEnd remaining hstmt hready).bind fun {_ _ middle} hexec => ?_
    refine (brief_echo stmt).ends.bind fun hecho => ?_
    exact ih hrest ((hready.exec hstmt hexec).echo hstmt hecho)

end Action

/-- **Only loops can go on forever.** Let there be no loop in the statements of a script, nor in any
function that is bound in a scope or is the last value. Then the script ends, with a result or with
a fault, whatever it calls and however many calls may be open. -/
theorem interpret_ends (statements : List Stmt) (session : Session)
    (hstatements : ∀ stmt ∈ statements, stmt.LoopFree) (hsession : session.LoopFree) :
    Ends (fun steps => interpret steps statements) session := by
  have hready : session.Ready session.options.maxCallDepth := ⟨hsession, Nat.le_add_left _ _⟩
  exact (ends_execTop hstatements hready).bind fun _ => (brief_onTerminal _ _).ends

/-- A new session has no loops: no function of a script is bound yet. -/
theorem Session.loopFree_start (terminal : Terminal) (options : Options) :
    (Session.start terminal options).LoopFree := by
  refine ⟨fun id name value hvalue => ?_, trivial⟩
  rcases Store.eq_or_of_binding?_define hvalue with ⟨_, rfl⟩ | hvalue
  · trivial
  rcases Store.eq_or_of_binding?_define hvalue with ⟨_, rfl⟩ | hvalue
  · trivial
  · obtain ⟨_, hempty⟩ := Store.of_binding?_add hvalue
    simp [Store.binding?, Store.scope?] at hempty

namespace Sample

/-- A function that calls itself over and over ends, because no more calls may be open. -/
theorem spinning_ends :
    (∀ stmt ∈ spinning, stmt.LoopFree) ∧ (Session.start {} {}).LoopFree ∧
      Ends (fun steps => interpret steps spinning) (Session.start {} {}) := by
  have hspin : spin.LoopFree := .expression _
  have hspinning : ∀ stmt ∈ spinning, stmt.LoopFree := by
    simp [spinning, hspin, Stmt.LoopFree.function]
  have hstart := Session.loopFree_start {} {}
  exact ⟨hspinning, hstart, interpret_ends spinning (Session.start {} {}) hspinning hstart⟩

end Sample

end Scriptlet
