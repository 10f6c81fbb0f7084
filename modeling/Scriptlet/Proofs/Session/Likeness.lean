import Mathlib.Data.List.Forall2
import Scriptlet.Proofs.Outcome
import Scriptlet.Session.Eval

/-!
# Two runs side by side

Much of what is to be said about running a script compares two runs: with another limit, in another
store, or simply with itself, to say what a run keeps. A likeness fixes what is compared: which
trees, values, scopes and sessions are alike, and which stops of the first run excuse it from being
followed by the second. What the two runs have in common may grow while they run, so all of this
depends on a world, and worlds follow one another.

Whoever states a likeness shows what single changes of a session do to it. That expressions,
statements, calls and scripts are then run alike is shown here once, with one case for each form of
expression and statement, and by induction on the number of steps.

## Main definitions

* `Likeness` — when trees, values, scopes, sessions and stops of two runs are alike
* `Likeness.Lawful` — single changes of two sessions keep them alike
* `Likeness.Alike` — two actions that are run alike

## Main results

* `Likeness.Lawful.bind` — actions one behind the other
* `Likeness.Lawful.evalWith`, `Likeness.Lawful.execWith` — one step
* `Likeness.Lawful.steps` — all steps
* `Likeness.Lawful.call` — calls, which do not look at the scope of the caller
* `Likeness.Lawful.interpret` — scripts
-/

namespace Scriptlet

open Scriptlet.Action

/-- What it means that two runs are alike. -/
structure Likeness (World : Type) where
  /-- The second world can come after the first. -/
  le : World → World → Prop
  /-- Places at which the two runs may report the same. -/
  places : Location → Location → Prop
  tokens : Token → Token → Prop
  exprs : Expr → Expr → Prop
  stmts : Stmt → Stmt → Prop
  values : World → Value → Value → Prop
  scopes : World → ScopeId → ScopeId → Prop
  /-- Sessions, apart from what their current scopes are. -/
  sessions : World → Session → Session → Prop
  stops : Stop → Stop → Prop
  /-- When the first run stops like this, nothing is said about the second. -/
  excused : Stop → Prop

namespace Likeness

variable {World α β γ δ : Type} (like : Likeness World)

/-! ## Trees and values, one layer at a time -/

/-- Declarations with names, parameters and bodies that are alike. -/
structure Decls (decl decl' : FunctionDecl) : Prop where
  name : like.tokens decl.name decl'.name
  params : List.Forall₂ like.tokens decl.params decl'.params
  body : List.Forall₂ like.stmts decl.body decl'.body

/-- Expressions of one form with parts that are alike. -/
inductive ExprParts : Expr → Expr → Prop
  | literal (value : Literal) : ExprParts (.literal value) (.literal value)
  | var {name name'} : like.tokens name name' → ExprParts (.var name) (.var name')
  | assign {name name' expr expr'} : like.tokens name name' → like.exprs expr expr' →
      ExprParts (.assign name expr) (.assign name' expr')
  | unary {operator operator' operand operand'} : like.tokens operator operator' →
      like.exprs operand operand' → ExprParts (.unary operator operand) (.unary operator' operand')
  | binary {left left' operator operator' right right'} : like.exprs left left' →
      like.tokens operator operator' → like.exprs right right' →
      ExprParts (.binary left operator right) (.binary left' operator' right')
  | logical {left left' operator operator' right right'} : like.exprs left left' →
      like.tokens operator operator' → like.exprs right right' →
      ExprParts (.logical left operator right) (.logical left' operator' right')
  | call {callee callee' paren paren' arguments arguments'} : like.exprs callee callee' →
      like.tokens paren paren' → List.Forall₂ like.exprs arguments arguments' →
      ExprParts (.call callee paren arguments) (.call callee' paren' arguments')

/-- Statements of one form with parts that are alike. -/
inductive StmtParts : Stmt → Stmt → Prop
  | expression {expr expr'} : like.exprs expr expr' →
      StmtParts (.expression expr) (.expression expr')
  | print {expr expr'} : like.exprs expr expr' → StmtParts (.print expr) (.print expr')
  | var {name name' expr? expr?'} : like.tokens name name' → Option.Rel like.exprs expr? expr?' →
      StmtParts (.var name expr?) (.var name' expr?')
  | block {body body'} : List.Forall₂ like.stmts body body' → StmtParts (.block body) (.block body')
  | branch {condition condition' yes yes' no? no?'} : like.exprs condition condition' →
      like.stmts yes yes' → Option.Rel like.stmts no? no?' →
      StmtParts (.branch condition yes no?) (.branch condition' yes' no?')
  | loop {condition condition' body body'} : like.exprs condition condition' →
      like.stmts body body' → StmtParts (.loop condition body) (.loop condition' body')
  | function {name name' params params' body body'} :
      like.Decls ⟨name, params, body⟩ ⟨name', params', body'⟩ →
      StmtParts (.function name params body) (.function name' params' body')
  | ret {keyword keyword' expr? expr?'} : like.tokens keyword keyword' →
      Option.Rel like.exprs expr? expr?' → StmtParts (.ret keyword expr?) (.ret keyword' expr?')

/-- Values of one kind with parts that are alike. -/
inductive ValueParts (w : World) : Value → Value → Prop
  | literal (literal : Literal) : ValueParts w (.ofLiteral literal) (.ofLiteral literal)
  | native (native : Native) : ValueParts w (.native native) (.native native)
  | function {f f' : Function} : like.Decls f.declaration f'.declaration →
      like.scopes w f.scope f'.scope → ValueParts w (.function f) (.function f')

section Same

variable {like} (htokens : ∀ token, like.tokens token token) (hexprs : ∀ expr, like.exprs expr expr)
include htokens hexprs

/-- An expression is made of the same parts as itself. -/
theorem ExprParts.refl (expr : Expr) : like.ExprParts expr expr := by
  cases expr with
  | literal value => exact .literal value
  | var name => exact .var (htokens name)
  | assign name value => exact .assign (htokens name) (hexprs value)
  | unary operator operand => exact .unary (htokens operator) (hexprs operand)
  | binary left operator right => exact .binary (hexprs left) (htokens operator) (hexprs right)
  | logical left operator right => exact .logical (hexprs left) (htokens operator) (hexprs right)
  | call callee paren arguments =>
    exact .call (hexprs callee) (htokens paren) (List.forall₂_same.mpr fun expr _ => hexprs expr)

variable (hstmts : ∀ stmt, like.stmts stmt stmt)
include hstmts

omit hexprs in
theorem Decls.refl (decl : FunctionDecl) : like.Decls decl decl :=
  ⟨htokens decl.name, List.forall₂_same.mpr fun token _ => htokens token,
    List.forall₂_same.mpr fun stmt _ => hstmts stmt⟩

/-- A statement is made of the same parts as itself. -/
theorem StmtParts.refl (stmt : Stmt) : like.StmtParts stmt stmt := by
  have hexpr? (expr? : Option Expr) : Option.Rel like.exprs expr? expr? := by
    cases expr? with
    | none => exact .none
    | some expr => exact .some (hexprs expr)
  cases stmt with
  | expression expr => exact .expression (hexprs expr)
  | print expr => exact .print (hexprs expr)
  | var name expr? => exact .var (htokens name) (hexpr? expr?)
  | block body => exact .block (List.forall₂_same.mpr fun stmt _ => hstmts stmt)
  | branch condition yes no? =>
    refine .branch (hexprs condition) (hstmts yes) ?_
    cases no? with
    | none => exact .none
    | some no => exact .some (hstmts no)
  | loop condition body => exact .loop (hexprs condition) (hstmts body)
  | function name params body => exact .function (Decls.refl htokens hstmts ⟨name, params, body⟩)
  | ret keyword expr? => exact .ret (htokens keyword) (hexpr? expr?)

omit hexprs in
/-- A value is made of the same parts as itself. -/
theorem ValueParts.refl {w : World} (hscopes : ∀ scope, like.scopes w scope scope) (value : Value) :
    like.ValueParts w value value := by
  cases value with
  | integer n => exact .literal (.integer n)
  | string s => exact .literal (.string s)
  | boolean b => exact .literal (.boolean b)
  | absent => exact .literal .absent
  | native f => exact .native f
  | function f => exact .function (Decls.refl htokens hstmts f.declaration) (hscopes f.scope)

end Same

/-! ## Outcomes and actions -/

/-- Where two sessions have got to: still alike, with the same current scopes as before. -/
structure Later (w : World) (before before' : Session) (w' : World) (after after' : Session) :
    Prop where
  le : like.le w w'
  sessions : like.sessions w' after after'
  scope : after.scope = before.scope
  scope' : after'.scope = before'.scope

/-- Two actions end alike, unless the first is excused. -/
inductive Outcomes (w : World) (before before' : Session) (post : World → α → β → Prop) :
    EStateM.Result Stop Session α → EStateM.Result Stop Session β → Prop
  | ok {w' : World} {result : α} {result' : β} {after after' : Session} :
      like.Later w before before' w' after after' → post w' result result' →
      Outcomes w before before' post (.ok result after) (.ok result' after')
  | error {w' : World} {stop stop' : Stop} {after after' : Session} :
      like.Later w before before' w' after after' → like.stops stop stop' →
      Outcomes w before before' post (.error stop after) (.error stop' after')
  | excused {stop : Stop} {after : Session} {outcome' : EStateM.Result Stop Session β} :
      like.excused stop → Outcomes w before before' post (.error stop after) outcome'

/-- Two actions that are run alike from sessions that are alike. An action that looks at the current
scope is attached to it: the current scopes have to be alike as well. -/
def Alike (attached : Prop) (w : World) (post : World → α → β → Prop) (action : Action α)
    (action' : Action β) : Prop :=
  ∀ ⦃before before' : Session⦄, like.sessions w before before' →
    (attached → like.scopes w before.scope before'.scope) →
      like.Outcomes w before before' post (action before) (action' before')

/-- Nothing is said about the results. -/
abbrev anything (_ : World) (_ : α) (_ : β) : Prop := True

/-- Statements end alike: both normally, or both by returning values that are alike. -/
inductive Flows (w : World) : Flow → Flow → Prop
  | normal : Flows w .normal .normal
  | returned {value value' : Value} : like.values w value value' →
      Flows w (.returned value) (.returned value')

/-- Operations at two places give values that are alike, or faults that are. -/
inductive Results (w : World) (place place' : Location) :
    Except FaultCause Value → Except FaultCause Value → Prop
  | ok {value value' : Value} : like.values w value value' →
      Results w place place' (.ok value) (.ok value')
  | error {cause cause' : FaultCause} :
      like.stops (.fault ⟨cause, place⟩) (.fault ⟨cause', place'⟩) →
      Results w place place' (.error cause) (.error cause')

end Likeness

namespace Action

/-- Stops if no more calls may be open. -/
def checkDepth (location : Location) : Action Unit := fun session =>
  if session.options.maxCallDepth ≤ session.callDepth then
    fault (.stackOverflow session.options.maxCallDepth) location session
  else .ok () session

/-- A call checks how many calls are open before it does anything else. -/
theorem callFunction_eq (exec : Stmt → Action Flow) (location : Location) (function : Function)
    (arguments : List Value) :
    callFunction exec location function arguments = (do
      checkDepth location
      let scope ← openScope function.scope
      bindParams scope function.declaration.params arguments
      let flow ← calling (within scope (execAll exec function.declaration.body))
      match flow with
      | .returned value => return value
      | .normal => return (← get).lastValue) := by
  funext session
  change (if session.options.maxCallDepth ≤ session.callDepth then _ else _ : Action Value)
    session = _
  by_cases h : session.options.maxCallDepth ≤ session.callDepth
  · have hcheck : checkDepth location session =
        .error (.fault ⟨.stackOverflow session.options.maxCallDepth, location⟩) session := if_pos h
    refine Eq.trans ?_ (bind_of_error hcheck).symm
    exact congrFun (if_pos h) session
  · have hcheck : checkDepth location session = .ok () session := if_neg h
    refine Eq.trans ?_ (bind_of_ok hcheck).symm
    exact congrFun (if_neg h) session

end Action

namespace Likeness

variable {World α β γ δ : Type} (like : Likeness World)

/-- **What single changes do to a likeness.** -/
structure Lawful : Prop where
  refl : ∀ w, like.le w w
  trans : ∀ {u v w}, like.le u v → like.le v w → like.le u w
  values_mono : ∀ {w w' value value'}, like.values w value value' → like.le w w' →
    like.values w' value value'
  scopes_mono : ∀ {w w' scope scope'}, like.scopes w scope scope' → like.le w w' →
    like.scopes w' scope scope'
  /-- What is alike has the same form. -/
  kind : ∀ {token token'}, like.tokens token token' → token.kind = token'.kind
  lexeme : ∀ {token token'}, like.tokens token token' → token.lexeme = token'.lexeme
  place : ∀ {token token'}, like.tokens token token' → like.places token.location token'.location
  unknown : like.places .unknown .unknown
  expr : ∀ {expr expr'}, like.exprs expr expr' → like.ExprParts expr expr'
  stmt : ∀ {stmt stmt'}, like.stmts stmt stmt' → like.StmtParts stmt stmt'
  value : ∀ {w value value'}, like.values w value value' → like.ValueParts w value value'
  literal : ∀ w literal, like.values w (.ofLiteral literal) (.ofLiteral literal)
  /-- Faults are raised alike. -/
  exhausted : like.stops .exhausted .exhausted
  fault : ∀ {cause place place'}, (∀ operator, cause ≠ .unsupportedOperator operator) →
    like.places place place' → like.stops (.fault ⟨cause, place⟩) (.fault ⟨cause, place'⟩)
  unary : ∀ {w operator operator' operand operand' value value'},
    like.exprs (.unary operator operand) (.unary operator' operand') → like.values w value value' →
    like.Results w operator.location operator'.location (Value.unary operator value)
      (Value.unary operator' value')
  binary : ∀ {w left left' operator operator' right right' a a' b b'},
    like.exprs (.binary left operator right) (.binary left' operator' right') →
    like.values w a a' → like.values w b b' →
    like.Results w operator.location operator'.location (Value.binary operator a b)
      (Value.binary operator' a' b')
  logical : ∀ {left left' operator operator' right right'},
    like.exprs (.logical left operator right) (.logical left' operator' right') →
    operator.kind ≠ .kwOr → operator.kind ≠ .kwAnd →
    like.stops (.fault ⟨.unsupportedOperator operator.lexeme, operator.location⟩)
      (.fault ⟨.unsupportedOperator operator'.lexeme, operator'.location⟩)
  /-- What sessions that are alike have in common. -/
  callDepth : ∀ {w before before'}, like.sessions w before before' →
    before.callDepth = before'.callDepth
  lastValue : ∀ {w before before'}, like.sessions w before before' →
    like.values w before.lastValue before'.lastValue
  get? : ∀ {w before before' scope scope'} (name : String), like.sessions w before before' →
    like.scopes w scope scope' →
    Option.Rel (like.values w) (before.store.get? scope name) (before'.store.get? scope' name)
  /-- Sessions stay alike when both are changed in the same way. -/
  rescope : ∀ {w before before'} (scope scope' : ScopeId), like.sessions w before before' →
    like.sessions w { before with scope := scope } { before' with scope := scope' }
  begun : ∀ {w before before'}, like.sessions w before before' →
    like.sessions w { before with callDepth := before.callDepth + 1 }
      { before' with callDepth := before'.callDepth + 1 }
  ended : ∀ {w before before'}, like.sessions w before before' →
    like.sessions w { before with callDepth := before.callDepth - 1 }
      { before' with callDepth := before'.callDepth - 1 }
  remember : ∀ {w before before' value value'}, like.sessions w before before' →
    like.values w value value' →
    like.sessions w { before with lastValue := value } { before' with lastValue := value' }
  define : ∀ {w before before' scope scope' value value'} (name : String),
    like.sessions w before before' → like.scopes w scope scope' → like.values w value value' →
    like.sessions w { before with store := before.store.define scope name value }
      { before' with store := before'.store.define scope' name value' }
  assign : ∀ {w before before' scope scope' value value'} (name : String),
    like.sessions w before before' → like.scopes w scope scope' → like.values w value value' →
    like.sessions w { before with store := before.store.assign scope name value }
      { before' with store := before'.store.assign scope' name value' }
  openScope : ∀ {w before before' scope scope'}, like.sessions w before before' →
    like.scopes w scope scope' →
    ∃ w', like.le w w' ∧
      like.sessions w' { before with store := (before.store.openEnclosed scope).2 }
        { before' with store := (before'.store.openEnclosed scope').2 } ∧
      like.scopes w' (before.store.openEnclosed scope).1 (before'.store.openEnclosed scope').1
  makeFunction : ∀ {w before before' decl decl'}, like.sessions w before before' →
    like.scopes w before.scope before'.scope → like.Decls decl decl' →
    ∃ w', like.le w w' ∧
      like.sessions w' { before with functions := before.functions + 1 }
        { before' with functions := before'.functions + 1 } ∧
      like.values w' (.function ⟨before.functions, decl, before.scope⟩)
        (.function ⟨before'.functions, decl', before'.scope⟩)
  checkDepth : ∀ {w place place'}, like.places place place' →
    like.Alike False w anything (Action.checkDepth place) (Action.checkDepth place')
  writeLine : ∀ {w place place'} (text : String), like.places place place' →
    like.Alike False w anything (onTerminal place (Terminal.writeLine text))
      (onTerminal place' (Terminal.writeLine text))
  writeLineQuietly : ∀ {w} (text : String),
    like.Alike False w anything (onTerminalQuietly (Terminal.writeLine text))
      (onTerminalQuietly (Terminal.writeLine text))
  writePrompt : ∀ {w place place'} (text : String), like.places place place' →
    like.Alike False w anything (onTerminal place (Terminal.writePrompt text))
      (onTerminal place' (Terminal.writePrompt text))
  readLine : ∀ {w place place'}, like.places place place' →
    like.Alike False w (fun _ => Eq) (onTerminal place Terminal.readLine)
      (onTerminal place' Terminal.readLine)

variable {like} {attached : Prop} {w : World}
variable {post : World → α → β → Prop} {post' : World → γ → δ → Prop}

/-! ## Actions one behind the other -/

/-- What does not look at the current scope may be used anywhere. -/
theorem Alike.anywhere {action : Action α} {action' : Action β}
    (h : like.Alike False w post action action') (attached : Prop) :
    like.Alike attached w post action action' :=
  fun _ _ hsessions _ => h hsessions False.elim

theorem Alike.imp {weaker : World → α → β → Prop} {action : Action α} {action' : Action β}
    (h : like.Alike attached w post action action')
    (himp : ∀ {w result result'}, post w result result' → weaker w result result') :
    like.Alike attached w weaker action action' := by
  intro before before' hsessions hscopes
  have houtcomes := h hsessions hscopes
  generalize action before = outcome, action' before' = outcome' at houtcomes ⊢
  cases houtcomes with
  | ok hlater hpost => exact .ok hlater (himp hpost)
  | error hlater hstops => exact .error hlater hstops
  | excused hstop => exact .excused hstop

namespace Lawful

variable (law : like.Lawful)
include law

theorem later_refl {before before' : Session} (h : like.sessions w before before') :
    like.Later w before before' w before before' :=
  ⟨law.refl w, h, rfl, rfl⟩

/-- An outcome seen from an earlier pair of sessions. -/
theorem outcomes_later {w' : World} {before before' middle middle' : Session}
    {outcome : EStateM.Result Stop Session α} {outcome' : EStateM.Result Stop Session β}
    (hlater : like.Later w before before' w' middle middle')
    (h : like.Outcomes w' middle middle' post outcome outcome') :
    like.Outcomes w before before' post outcome outcome' := by
  cases h with
  | ok hafter hpost =>
    exact .ok ⟨law.trans hlater.le hafter.le, hafter.sessions, hafter.scope.trans hlater.scope,
      hafter.scope'.trans hlater.scope'⟩ hpost
  | error hafter hstops =>
    exact .error ⟨law.trans hlater.le hafter.le, hafter.sessions, hafter.scope.trans hlater.scope,
      hafter.scope'.trans hlater.scope'⟩ hstops
  | excused hstop => exact .excused hstop

theorem bind {action : Action α} {action' : Action β} {next : α → Action γ} {next' : β → Action δ}
    (h : like.Alike attached w post action action')
    (hnext : ∀ {w' result result'}, like.le w w' → post w' result result' →
      like.Alike attached w' post' (next result) (next' result')) :
    like.Alike attached w post' (action >>= next) (action' >>= next') := by
  intro before before' hsessions hscopes
  have hfirst := h hsessions hscopes
  generalize haction : action before = outcome, haction' : action' before' = outcome' at hfirst
  cases hfirst with
  | ok hafter hpost =>
    rw [bind_of_ok haction, bind_of_ok haction']
    -- the current scopes are those from before, and they are still alike
    refine law.outcomes_later hafter (hnext hafter.le hpost hafter.sessions fun hattached => ?_)
    rw [hafter.scope, hafter.scope']
    exact law.scopes_mono (hscopes hattached) hafter.le
  | error hafter hstops =>
    rw [bind_of_error haction, bind_of_error haction']
    exact .error hafter hstops
  | excused hstop =>
    rw [bind_of_error haction]
    exact .excused hstop

theorem pure {result : α} {result' : β} (h : post w result result') :
    like.Alike attached w post (pure result : Action α) (pure result' : Action β) :=
  fun _ _ hsessions _ => .ok (law.later_refl hsessions) h

theorem throw {stop stop' : Stop} (h : like.stops stop stop') :
    like.Alike attached w post (throw stop : Action α) (throw stop' : Action β) :=
  fun _ _ hsessions _ => .error (law.later_refl hsessions) h

theorem get : like.Alike attached w (fun w before before' => like.sessions w before before' ∧
    (attached → like.scopes w before.scope before'.scope)) (get : Action Session) get :=
  fun _ _ hsessions hscopes => .ok (law.later_refl hsessions) ⟨hsessions, hscopes⟩

omit law in
theorem ite {condition condition' : Prop} [Decidable condition] [Decidable condition']
    {action other : Action α} {action' other' : Action β} (hcondition : condition ↔ condition')
    (h : like.Alike attached w post action action')
    (hother : like.Alike attached w post other other') :
    like.Alike attached w post (if condition then action else other)
      (if condition' then action' else other') := by
  by_cases hyes : condition
  · rw [if_pos hyes, if_pos (hcondition.mp hyes)]
    exact h
  · rw [if_neg hyes, if_neg (mt hcondition.mpr hyes)]
    exact hother

/-- Changes of a session that cannot fail. -/
theorem modify {change change' : Session → Session}
    (h : ∀ {before before'}, like.sessions w before before' →
      (attached → like.scopes w before.scope before'.scope) →
      like.sessions w (change before) (change' before'))
    (hscope : ∀ session, (change session).scope = session.scope)
    (hscope' : ∀ session, (change' session).scope = session.scope) :
    like.Alike attached w anything (modify change : Action Unit) (modify change') :=
  fun before before' hsessions hscopes =>
    .ok ⟨law.refl w, h hsessions hscopes, hscope before, hscope' before'⟩ trivial

/-! ## Single actions -/

theorem isTruthy {value value' : Value} (h : like.values w value value') :
    value.isTruthy = value'.isTruthy := by
  cases law.value h with
  | literal literal => rfl
  | native native => rfl
  | function hdecl hscope => rfl

theorem text {value value' : Value} (h : like.values w value value') :
    value.text = value'.text := by
  cases law.value h with
  | literal literal => rfl
  | native native => rfl
  | function hdecl hscope => simp [Value.text, Function.name, law.lexeme hdecl.name]

theorem ofExcept {place place' : Location} {result result' : Except FaultCause Value}
    (h : like.Results w place place' result result') :
    like.Alike attached w like.values (ofExcept place result) (ofExcept place' result') := by
  cases h with
  | ok hvalue => exact law.pure hvalue
  | error hstops => exact law.throw hstops

theorem lookup {name name' : Token} (h : like.tokens name name') :
    like.Alike True w like.values (lookup name) (lookup name') := by
  refine law.bind law.get fun {w' session session'} _ hsession => ?_
  have hfound := law.get? name.lexeme hsession.1 (hsession.2 trivial)
  rw [← law.lexeme h]
  generalize session.store.get? session.scope name.lexeme = found,
    session'.store.get? session'.scope name.lexeme = found' at hfound
  cases hfound with
  | none => exact law.throw (law.fault nofun (law.place h))
  | some hvalue => exact law.pure hvalue

theorem remember_action {value value' : Value} (h : like.values w value value') :
    like.Alike attached w anything (Action.remember value) (Action.remember value') :=
  law.modify (fun hsessions _ => law.remember hsessions h) (fun _ => rfl) fun _ => rfl

theorem define_action (name : String) {value value' : Value} (h : like.values w value value') :
    like.Alike True w anything (Action.define name value) (Action.define name value') :=
  law.modify (fun hsessions hscopes => law.define name hsessions (hscopes trivial) h)
    (fun _ => rfl) fun _ => rfl

theorem assign_action (name : String) {value value' : Value} (h : like.values w value value') :
    like.Alike True w anything (Action.assign name value) (Action.assign name value') :=
  law.modify (fun hsessions hscopes => law.assign name hsessions (hscopes trivial) h)
    (fun _ => rfl) fun _ => rfl

theorem openScope_action {scope scope' : ScopeId} (h : like.scopes w scope scope') :
    like.Alike attached w like.scopes (Action.openScope scope) (Action.openScope scope') := by
  intro before before' hsessions _
  obtain ⟨w', hle, hopened, hscope⟩ := law.openScope hsessions h
  exact .ok ⟨hle, hopened, rfl, rfl⟩ hscope

theorem makeFunction_action {decl decl' : FunctionDecl} (h : like.Decls decl decl') :
    like.Alike True w (fun w f f' => like.values w (.function f) (.function f'))
      (Action.makeFunction decl) (Action.makeFunction decl') := by
  intro before before' hsessions hscopes
  obtain ⟨w', hle, hmade, hfunction⟩ := law.makeFunction hsessions (hscopes trivial) h
  exact .ok ⟨hle, hmade, rfl, rfl⟩ hfunction

/-- Names that are bound in a scope, one after the other. -/
theorem bound {scope scope' : ScopeId} {params params' : List Token}
    {arguments arguments' : List Value} {before before' : Session}
    (hsessions : like.sessions w before before') (hscope : like.scopes w scope scope')
    (hparams : List.Forall₂ like.tokens params params')
    (harguments : List.Forall₂ (like.values w) arguments arguments') :
    like.sessions w
      { before with
        store := (params.zip arguments).foldl (fun store (param, argument) =>
          store.define scope param.lexeme argument) before.store }
      { before' with
        store := (params'.zip arguments').foldl (fun store (param, argument) =>
          store.define scope' param.lexeme argument) before'.store } := by
  induction harguments generalizing params params' before before' with
  | nil => simpa using hsessions
  | cons hvalue _ ih =>
    cases hparams with
    | nil => exact hsessions
    | @cons param _ _ _ hparam hparams =>
      have hdefined := law.define param.lexeme hsessions hscope hvalue
      simpa [law.lexeme hparam] using ih hdefined hparams

theorem bindParams {scope scope' : ScopeId} {params params' : List Token}
    {arguments arguments' : List Value} (hscope : like.scopes w scope scope')
    (hparams : List.Forall₂ like.tokens params params')
    (harguments : List.Forall₂ (like.values w) arguments arguments') :
    like.Alike attached w anything (Action.bindParams scope params arguments)
      (Action.bindParams scope' params' arguments') :=
  law.modify (fun hsessions _ => law.bound hsessions hscope hparams harguments) (fun _ => rfl)
    fun _ => rfl

theorem within {scope scope' : ScopeId} {action : Action α} {action' : Action β}
    (hscope : like.scopes w scope scope') (h : like.Alike True w post action action') :
    like.Alike attached w post (Action.within scope action) (Action.within scope' action') := by
  intro before before' hsessions _
  have hinside := h (law.rescope scope scope' hsessions) fun _ => hscope
  unfold Action.within
  generalize action { before with scope } = outcome,
    action' { before' with scope := scope' } = outcome' at hinside
  cases hinside with
  | ok hafter hpost =>
    exact .ok ⟨hafter.le, law.rescope _ _ hafter.sessions, rfl, rfl⟩ hpost
  | error hafter hstops =>
    exact .error ⟨hafter.le, law.rescope _ _ hafter.sessions, rfl, rfl⟩ hstops
  | excused hstop => exact .excused hstop

theorem calling {action : Action α} {action' : Action β}
    (h : like.Alike attached w post action action') :
    like.Alike attached w post (Action.calling action) (Action.calling action') := by
  intro before before' hsessions hscopes
  have hinside := h (law.begun hsessions) hscopes
  unfold Action.calling
  generalize action { before with callDepth := before.callDepth + 1 } = outcome,
    action' { before' with callDepth := before'.callDepth + 1 } = outcome' at hinside
  cases hinside with
  | ok hafter hpost =>
    exact .ok ⟨hafter.le, law.ended hafter.sessions, hafter.scope, hafter.scope'⟩ hpost
  | error hafter hstops =>
    exact .error ⟨hafter.le, law.ended hafter.sessions, hafter.scope, hafter.scope'⟩ hstops
  | excused hstop => exact .excused hstop

/-! ## Calls -/

end Lawful

variable (like) in
/-- Expressions that are alike are evaluated alike. -/
def Evals (eval eval' : Expr → Action Value) : Prop :=
  ∀ ⦃w expr expr'⦄, like.exprs expr expr' → like.Alike True w like.values (eval expr) (eval' expr')

variable (like) in
/-- Statements that are alike are executed alike. -/
def Execs (exec exec' : Stmt → Action Flow) : Prop :=
  ∀ ⦃w stmt stmt'⦄, like.stmts stmt stmt' → like.Alike True w like.Flows (exec stmt) (exec' stmt')

namespace Lawful

variable (law : like.Lawful)
variable {eval eval' : Expr → Action Value} {exec exec' : Stmt → Action Flow}
include law

theorem execAll (hexec : like.Execs exec exec') {body body' : List Stmt}
    (h : List.Forall₂ like.stmts body body') :
    like.Alike True w like.Flows (execAll exec body) (execAll exec' body') := by
  induction h generalizing w with
  | nil => exact law.pure .normal
  | cons hstmt _ ih =>
    refine law.bind (hexec hstmt) fun _ hflow => ?_
    cases hflow with
    | normal => exact ih
    | returned hvalue => exact law.pure (.returned hvalue)

theorem evalAll (heval : like.Evals eval eval') {exprs exprs' : List Expr}
    (h : List.Forall₂ like.exprs exprs exprs') :
    like.Alike True w (fun w => List.Forall₂ (like.values w)) (evalAll eval exprs)
      (evalAll eval' exprs') := by
  induction h generalizing w with
  | nil => exact law.pure .nil
  | cons hexpr _ ih =>
    refine law.bind (heval hexpr) fun _ hvalue => law.bind ih fun hle hvalues => ?_
    exact law.pure (.cons (law.values_mono hvalue hle) hvalues)

theorem callNative {place place' : Location} (hplace : like.places place place') (native : Native)
    {arguments arguments' : List Value} (h : List.Forall₂ (like.values w) arguments arguments') :
    like.Alike False w like.values (callNative place native arguments)
      (callNative place' native arguments') := by
  have htext : (arguments.head?.map Value.text).getD "" =
      (arguments'.head?.map Value.text).getD "" := by
    cases h with
    | nil => rfl
    | cons hvalue _ => exact law.text hvalue
  cases native with
  | print =>
    simp only [Action.callNative, htext]
    exact law.bind (law.writeLineQuietly _) fun _ _ => law.pure (law.literal _ .absent)
  | input =>
    simp only [Action.callNative, htext]
    refine law.bind (law.writePrompt _ hplace) fun _ _ =>
      law.bind (law.readLine hplace) fun {_ line? line?'} _ hline => ?_
    subst hline
    cases line? with
    | some line => exact law.pure (law.literal _ (.string line))
    | none => exact law.pure (law.literal _ .absent)

theorem checkArity {place place' : Location} (hplace : like.places place place') (name : String)
    (arity : Nat) {arguments arguments' : List Value}
    (h : List.Forall₂ (like.values w) arguments arguments') :
    like.Alike attached w anything (checkArity place name arity arguments)
      (checkArity place' name arity arguments') := by
  unfold Action.checkArity
  rw [h.length_eq]
  exact ite Iff.rfl (law.throw (law.fault nofun hplace)) (law.pure trivial)

theorem callFunction (hexec : like.Execs exec exec') {place place' : Location}
    (hplace : like.places place place') {f f' : Function}
    (hdecl : like.Decls f.declaration f'.declaration) (hscope : like.scopes w f.scope f'.scope)
    {arguments arguments' : List Value} (h : List.Forall₂ (like.values w) arguments arguments') :
    like.Alike False w like.values (callFunction exec place f arguments)
      (callFunction exec' place' f' arguments') := by
  rw [callFunction_eq, callFunction_eq]
  refine law.bind (law.checkDepth hplace) fun hchecked _ => ?_
  refine law.bind (law.openScope_action (law.scopes_mono hscope hchecked)) fun hopened hnew => ?_
  have harguments := h.imp fun _ _ hvalue =>
    law.values_mono (law.values_mono hvalue hchecked) hopened
  refine law.bind (law.bindParams hnew hdecl.params harguments) fun hbound _ => ?_
  refine law.bind (law.calling (law.within (law.scopes_mono hnew hbound)
    (law.execAll hexec hdecl.body))) fun _ hflow => ?_
  cases hflow with
  | returned hvalue => exact law.pure hvalue
  | normal => exact law.bind law.get fun _ hsession => law.pure (law.lastValue hsession.1)

/-- **Calls are run alike**, whatever the scope of the caller. -/
theorem call (hexec : like.Execs exec exec') {place place' : Location}
    (hplace : like.places place place') {callee callee' : Value}
    (hcallee : like.values w callee callee') {arguments arguments' : List Value}
    (h : List.Forall₂ (like.values w) arguments arguments') :
    like.Alike False w like.values (call exec place callee arguments)
      (call exec' place' callee' arguments') := by
  cases law.value hcallee with
  | literal literal => cases literal <;> exact law.throw (law.fault nofun hplace)
  | native native =>
    exact law.bind (law.checkArity hplace _ _ h) fun hle _ =>
      law.callNative hplace native (h.imp fun _ _ hvalue => law.values_mono hvalue hle)
  | @function f f' hdecl hscope =>
    have hname : f.name = f'.name := law.lexeme hdecl.name
    have harity : f.arity = f'.arity := hdecl.params.length_eq
    simp only [Action.call, hname, harity]
    exact law.bind (law.checkArity hplace _ _ h) fun hle _ =>
      law.callFunction hexec hplace hdecl (law.scopes_mono hscope hle)
        (h.imp fun _ _ hvalue => law.values_mono hvalue hle)

/-! ## One step -/

/-- **One step of evaluation.** -/
theorem evalWith (heval : like.Evals eval eval') (hexec : like.Execs exec exec') :
    like.Evals (evalWith eval exec) (evalWith eval' exec') := by
  intro w expr expr' hexpr
  cases law.expr hexpr with
  | literal value => exact law.pure (law.literal _ value)
  | var hname => exact law.lookup hname
  | @assign name name' _ _ hname hvalue =>
    refine law.bind (heval hvalue) fun _ hresult => ?_
    rw [law.lexeme hname]
    refine law.bind (law.assign_action _ hresult) fun hassigned _ => ?_
    have hresult := law.values_mono hresult hassigned
    exact law.bind (law.remember_action hresult) fun hle _ => law.pure (law.values_mono hresult hle)
  | unary hoperator hoperand =>
    exact law.bind (heval hoperand) fun _ hvalue => law.ofExcept (law.unary hexpr hvalue)
  | binary hleft hoperator hright =>
    exact law.bind (heval hleft) fun _ ha => law.bind (heval hright) fun hle hb =>
      law.ofExcept (law.binary hexpr (law.values_mono ha hle) hb)
  | @logical _ _ operator operator' _ _ hleft hoperator hright =>
    refine law.bind (heval hleft) fun {_ value value'} _ hvalue => ?_
    have htruthy := law.isTruthy hvalue
    have hstops := law.logical hexpr
    simp only [← law.kind hoperator, htruthy]
    split
    · exact ite Iff.rfl (law.pure (law.literal _ (.boolean true))) (heval hright)
    · exact ite Iff.rfl (heval hright) (law.pure (law.literal _ (.boolean false)))
    · rename_i hor hand
      exact law.throw (hstops hor hand)
  | call hcallee hparen harguments =>
    refine law.bind (heval hcallee) fun _ hfunction => ?_
    refine law.bind (law.evalAll heval harguments) fun hle hvalues => ?_
    exact (law.call hexec (law.place hparen) (law.values_mono hfunction hle) hvalues).anywhere True

/-- The places that stand for expressions. -/
theorem location {expr expr' : Expr} (h : like.exprs expr expr') :
    like.places expr.location expr'.location := by
  cases law.expr h with
  | literal value => exact law.unknown
  | var hname => exact law.place hname
  | assign hname _ => exact law.place hname
  | unary hoperator _ => exact law.place hoperator
  | binary _ hoperator _ => exact law.place hoperator
  | logical _ hoperator _ => exact law.place hoperator
  | call _ hparen _ => exact law.place hparen

/-- **One step of execution.** -/
theorem execWith (heval : like.Evals eval eval') (hexec : like.Execs exec exec') :
    like.Execs (execWith eval exec) (execWith eval' exec') := by
  intro w stmt stmt' hstmt
  cases law.stmt hstmt with
  | expression hexpr =>
    exact law.bind (heval hexpr) fun _ hvalue => law.bind (law.remember_action hvalue) fun _ _ =>
      law.pure .normal
  | print hexpr =>
    refine law.bind (heval hexpr) fun _ hvalue => ?_
    rw [law.text hvalue]
    refine law.bind ((law.writeLine _ (law.location hexpr)).anywhere True) fun hle _ => ?_
    exact law.bind (law.remember_action (law.values_mono hvalue hle)) fun _ _ => law.pure .normal
  | @var name name' _ _ hname hexpr? =>
    have hrest {w : World} {value value' : Value} (hvalue : like.values w value value') :
        like.Alike True w like.Flows
          (do Action.define name.lexeme value; Action.remember value; return Flow.normal)
          (do Action.define name'.lexeme value'; Action.remember value'; return Flow.normal) := by
      rw [law.lexeme hname]
      refine law.bind (law.define_action _ hvalue) fun hle _ => ?_
      exact law.bind (law.remember_action (law.values_mono hvalue hle)) fun _ _ => law.pure .normal
    cases hexpr? with
    | none => exact law.bind (law.pure (law.literal _ .absent)) fun _ hvalue => hrest hvalue
    | some hexpr => exact law.bind (heval hexpr) fun _ hvalue => hrest hvalue
  | block hbody =>
    refine law.bind law.get fun _ hsession => ?_
    refine law.bind (law.openScope_action (hsession.2 trivial)) fun _ hnew => ?_
    exact law.within hnew (law.execAll hexec hbody)
  | branch hcondition hyes hno? =>
    refine law.bind (heval hcondition) fun _ hvalue => ?_
    refine ite (by rw [law.isTruthy hvalue]) (hexec hyes) ?_
    cases hno? with
    | none => exact law.pure .normal
    | some hno => exact hexec hno
  | loop hcondition hbody =>
    refine law.bind (heval hcondition) fun _ hvalue => ?_
    refine ite (by rw [law.isTruthy hvalue]) ?_ (law.pure .normal)
    refine law.bind (hexec hbody) fun _ hflow => ?_
    cases hflow with
    | normal => exact hexec hstmt
    | returned hvalue => exact law.pure (.returned hvalue)
  | @function name name' _ _ _ _ hdecl =>
    refine law.bind (law.makeFunction_action hdecl) fun _ hfunction => ?_
    rw [show name.lexeme = name'.lexeme from law.lexeme hdecl.name]
    exact law.bind (law.define_action _ hfunction) fun _ _ => law.pure .normal
  | ret hkeyword hexpr? =>
    refine law.bind law.get fun {w' _ _} _ hsession => ?_
    refine ite (by rw [law.callDepth hsession.1]) ?_ ?_
    · have hstop : like.Alike True w' (fun _ _ _ => False)
          (Action.fault .returnOutsideFunction _ : Action Unit)
          (Action.fault .returnOutsideFunction _ : Action Unit) :=
        law.throw (law.fault nofun (law.place hkeyword))
      exact law.bind hstop fun _ hnever => hnever.elim
    · cases hexpr? with
      | none => exact law.pure (.returned (law.literal _ .absent))
      | some hexpr =>
        exact law.bind (heval hexpr) fun _ hvalue => law.pure (.returned hvalue)

/-! ## All steps -/

/-- The two runs get the same number of steps, or the second gets more and the first is excused when
it has used up its own. -/
theorem steps {steps steps' : Nat}
    (h : steps = steps' ∨ steps ≤ steps' ∧ like.excused .exhausted) :
    like.Evals (Action.eval steps) (Action.eval steps') ∧
      like.Execs (Action.exec steps) (Action.exec steps') := by
  induction steps generalizing steps' with
  | zero =>
    rcases h with rfl | ⟨_, hexcused⟩
    · exact ⟨fun _ _ _ _ => law.throw law.exhausted, fun _ _ _ _ => law.throw law.exhausted⟩
    · exact ⟨fun _ _ _ _ _ _ _ _ => .excused hexcused, fun _ _ _ _ _ _ _ _ => .excused hexcused⟩
  | succ steps ih =>
    cases steps' with
    | zero => omega
    | succ steps' =>
      obtain ⟨heval, hexec⟩ := ih (h.imp Nat.succ.inj (And.imp_left Nat.le_of_succ_le_succ))
      exact ⟨law.evalWith heval hexec, law.execWith heval hexec⟩

/-! ## Scripts -/

theorem echo {stmt stmt' : Stmt} (h : like.stmts stmt stmt')
    (hdump : ∀ {w before before'}, like.sessions w before before' →
      before.options.dump = before'.options.dump) :
    like.Alike attached w anything (Action.echo stmt) (Action.echo stmt') := by
  cases law.stmt h with
  | expression hexpr =>
    refine law.bind law.get fun _ hsession => ?_
    rw [law.text (law.lastValue hsession.1), hdump hsession.1]
    exact ite Iff.rfl ((law.writeLine _ law.unknown).anywhere _) (law.pure trivial)
  | _ => exact law.pure trivial

theorem execTop {steps steps' : Nat} (hexec : like.Execs (Action.exec steps) (Action.exec steps'))
    (hdump : ∀ {w before before'}, like.sessions w before before' →
      before.options.dump = before'.options.dump)
    {statements statements' : List Stmt} (h : List.Forall₂ like.stmts statements statements') :
    like.Alike True w anything (Action.execTop steps statements)
      (Action.execTop steps' statements') := by
  induction h generalizing w with
  | nil => exact law.pure trivial
  | cons hstmt _ ih =>
    exact law.bind (hexec hstmt) fun _ _ => law.bind (law.echo hstmt hdump) fun _ _ => ih

/-- **Scripts are run alike** by sessions that show their values alike and flush alike. -/
theorem interpret {steps steps' : Nat}
    (hsteps : steps = steps' ∨ steps ≤ steps' ∧ like.excused .exhausted)
    (hdump : ∀ {w before before'}, like.sessions w before before' →
      before.options.dump = before'.options.dump)
    (hflush : ∀ w, like.Alike False w anything (onTerminal .unknown Terminal.flush)
      (onTerminal .unknown Terminal.flush))
    {statements statements' : List Stmt} (h : List.Forall₂ like.stmts statements statements') :
    like.Alike True w anything (Action.interpret steps statements)
      (Action.interpret steps' statements') :=
  law.bind (law.execTop (law.steps hsteps).2 hdump h) fun _ _ => (hflush _).anywhere True

end Lawful

end Likeness

end Scriptlet
