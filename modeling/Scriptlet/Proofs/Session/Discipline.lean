import Scriptlet.Proofs.Session.Runner
import Scriptlet.Proofs.Syntax.Parts

/-!
# What is so of all runs

Many properties of runs have the same shape. They are about runs in a world that may grow on the
way, such as the functions that were made or the scopes there are. They say which values may be come
across, and what may be given at the end. They hold of a run if they hold of its parts, because they
hold of single moves. A discipline is such a property. What has to be shown about it concerns single
moves, blocks and calls; that all runs are then subject to it is shown here once, for every runner.

A discipline may also restrict the trees that are run. Then their parts have to be trees of this
kind as well.

## Main definitions

* `Discipline` — a property of runs over worlds, and the trees and values it is about
* `Discipline.Moves` — single moves are subject to it, and so are runs one behind the other
* `Discipline.Lawful` — so are blocks, calls, and what is entered

## Main results

* `Discipline.Moves.evalWith`, `Discipline.Moves.execWith` — one step
* `Discipline.Lawful.steps` — all steps
* `Discipline.Lawful.interpret` — scripts
-/

universe u

namespace Scriptlet

/-- A property of runs over worlds. -/
structure Discipline (m : Type → Type u) (World : Type) where
  /-- The second world can come after the first. -/
  le : World → World → Prop
  /-- The expressions that may be evaluated. -/
  exprs : Expr → Prop
  /-- The statements that may be executed. -/
  stmts : Stmt → Prop
  /-- The values that can be come across in a world. -/
  values : World → Value → Prop
  /-- A run from a world on that has the property, and gives what is stated of a later world. -/
  Runs {α : Type} : World → (World → α → Prop) → m α → Prop

namespace Discipline

variable {m : Type → Type u} [Monad m] {World α : Type} (discipline : Discipline m World)

/-- How a statement may end. -/
def Flows (w : World) : Flow → Prop
  | .normal => True
  | .returned value => discipline.values w value

/-- What may be entered. -/
def Tasks (w : World) : Task → Prop
  | .eval expr => discipline.exprs expr
  | .exec stmt => discipline.stmts stmt
  | .call _ callee arguments =>
    discipline.values w callee ∧ ∀ argument ∈ arguments, discipline.values w argument

/-- **What has to be shown about single moves.** -/
structure Moves (runner : Runner m) : Prop where
  trans : ∀ {w₁ w₂ w₃}, discipline.le w₁ w₂ → discipline.le w₂ w₃ → discipline.le w₁ w₃
  values_mono : ∀ {w w' value}, discipline.values w value → discipline.le w w' →
    discipline.values w' value
  literal : ∀ w literal, discipline.values w (.ofLiteral literal)
  part : ∀ {expr part}, discipline.exprs expr → part ∈ expr.parts → discipline.exprs part
  value : ∀ {stmt expr}, discipline.stmts stmt → expr ∈ stmt.exprs → discipline.exprs expr
  inside : ∀ {stmt part}, discipline.stmts stmt → part ∈ stmt.parts → discipline.stmts part
  pure : ∀ {α : Type} {w} {post : World → α → Prop} {result : α},
    (∀ w₁, discipline.le w w₁ → post w₁ result) → discipline.Runs w post (pure result)
  bind : ∀ {α β : Type} {w} {post : World → α → Prop} {post' : World → β → Prop} {first : m α}
    {next : α → m β}, discipline.Runs w post first →
    (∀ w₁ result, discipline.le w w₁ → post w₁ result →
      discipline.Runs w₁ post' (next result)) → discipline.Runs w post' (first >>= next)
  side : ∀ {α : Type} {w} {post : World → α → Prop} {body : m α} (side : Side),
    discipline.Runs w post body → discipline.Runs w post (runner.part side body)
  lookup : ∀ {w name}, discipline.exprs (.var name) →
    discipline.Runs w discipline.values (runner.perform (.lookup name))
  assign : ∀ {w value} (name : String), discipline.values w value →
    discipline.Runs w (fun _ _ => True) (runner.perform (.assign name value))
  define : ∀ {w value} (name : String), discipline.values w value →
    discipline.Runs w (fun _ _ => True) (runner.perform (.define name value))
  complete : ∀ {w value} (completion : Completion), discipline.values w value →
    discipline.Runs w (fun _ _ => True) (runner.perform (.complete completion value))
  makeFunction : ∀ {w name params body}, discipline.stmts (.function name params body) →
    discipline.Runs w (fun w f => discipline.values w (.function f))
      (runner.perform (.makeFunction ⟨name, params, body⟩))
  unary : ∀ {w operator operand} (value : Value), discipline.exprs (.unary operator operand) →
    discipline.Runs w discipline.values
      (runner.ofExcept operator.location (Value.unary operator value))
  binary : ∀ {w left operator right} (a b : Value),
    discipline.exprs (.binary left operator right) →
    discipline.Runs w discipline.values
      (runner.ofExcept operator.location (Value.binary operator a b))
  logical : ∀ {w left operator right}, discipline.exprs (.logical left operator right) →
    operator.kind ≠ .kwOr → operator.kind ≠ .kwAnd →
    discipline.Runs w discipline.values
      (runner.fault (.unsupportedOperator operator.lexeme) operator.location)
  print : ∀ {w value} (text : String), discipline.stmts (.print value) →
    discipline.Runs w (fun _ _ => True) (runner.perform (.utter (.statement value.location text)))
  checkCalled : ∀ {w keyword value?}, discipline.stmts (.ret keyword value?) →
    discipline.Runs w (fun _ _ => True) (runner.perform (.checkCalled keyword.location))

/-- **What has to be shown about a discipline.** -/
structure Lawful (runner : Runner m) : Prop extends discipline.Moves runner where
  exhausted : ∀ {α : Type} {w} {post : World → α → Prop},
    discipline.Runs w post (runner.stop .exhausted)
  enter : ∀ {α : Type} {w} {post : World → α → Prop} {task : Task} {body : m α},
    discipline.Tasks w task → discipline.Runs w post body →
      discipline.Runs w post (runner.enter task body)
  block : ∀ {steps w body}, discipline.stmts (.block body) →
    (∀ w stmt, discipline.stmts stmt →
      discipline.Runs w discipline.Flows (runner.exec steps stmt)) →
    discipline.Runs w discipline.Flows
      (runner.inside .block (Runner.execAll (runner.exec steps) body))
  call : ∀ {steps w callee paren arguments function values},
    discipline.exprs (.call callee paren arguments) →
    (∀ w stmt, discipline.stmts stmt →
      discipline.Runs w discipline.Flows (runner.exec steps stmt)) →
    discipline.values w function → (∀ value ∈ values, discipline.values w value) →
    discipline.Runs w discipline.values
      (runner.call (runner.exec steps) paren.location function values)
  echo : ∀ {w} (stmt : Stmt), discipline.Runs w (fun _ _ => True) (runner.echo stmt)
  flush : ∀ {w}, discipline.Runs w (fun _ _ => True) (runner.perform .flush)

variable {discipline} {runner : Runner m} {eval : Expr → m Value} {exec : Stmt → m Flow}

namespace Moves

variable (law : discipline.Moves runner)
include law

theorem evalAll {exprs : List Expr}
    (h : ∀ expr ∈ exprs, ∀ w, discipline.Runs w discipline.values (eval expr)) (w : World) :
    discipline.Runs w (fun w values => ∀ value ∈ values, discipline.values w value)
      (Runner.evalAll eval exprs) := by
  induction exprs generalizing w with
  | nil => exact law.pure fun _ _ _ hmem => absurd hmem List.not_mem_nil
  | cons expr rest ih =>
    obtain ⟨hexpr, hrest⟩ := List.forall_mem_cons.mp h
    refine law.bind (hexpr w) fun w₁ value _ hvalue => ?_
    refine law.bind (ih hrest w₁) fun w₂ values hle₂ hvalues => law.pure fun w₃ hle₃ => ?_
    refine List.forall_mem_cons.mpr ⟨law.values_mono hvalue (law.trans hle₂ hle₃), ?_⟩
    exact fun value hmem => law.values_mono (hvalues value hmem) hle₃

theorem execAll {body : List Stmt}
    (h : ∀ stmt ∈ body, ∀ w, discipline.Runs w discipline.Flows (exec stmt)) (w : World) :
    discipline.Runs w discipline.Flows (Runner.execAll exec body) := by
  induction body generalizing w with
  | nil => exact law.pure fun _ _ => trivial
  | cons stmt rest ih =>
    obtain ⟨hstmt, hrest⟩ := List.forall_mem_cons.mp h
    refine law.bind (hstmt w) fun w₁ flow _ hflow => ?_
    cases flow with
    | normal => exact ih hrest w₁
    | returned value => exact law.pure fun _ hle => law.values_mono hflow hle

/-- **One step of evaluation**, given calls. -/
theorem evalWith (heval : ∀ w expr, discipline.exprs expr →
      discipline.Runs w discipline.values (eval expr))
    (hcall : ∀ {w callee paren arguments function values},
      discipline.exprs (.call callee paren arguments) → discipline.values w function →
      (∀ value ∈ values, discipline.values w value) →
      discipline.Runs w discipline.values (runner.call exec paren.location function values))
    {expr : Expr} (h : discipline.exprs expr) (w : World) :
    discipline.Runs w discipline.values (runner.evalWith eval exec expr) := by
  have hpart (side : Side) (part : Expr) (hmem : part ∈ expr.parts) (w : World) :
      discipline.Runs w discipline.values (runner.part side (eval part)) :=
    law.side side (heval w part (law.part h hmem))
  cases expr with
  | literal value => exact law.pure fun w₁ _ => law.literal w₁ value
  | var name => exact law.lookup h
  | assign name expr =>
    refine law.bind (hpart _ expr (by simp [Expr.parts]) w) fun w₁ value _ hvalue => ?_
    refine law.bind (law.assign _ hvalue) fun w₂ _ hle₂ _ => ?_
    have hvalue₂ := law.values_mono hvalue hle₂
    refine law.bind (law.complete _ hvalue₂) fun w₃ _ hle₃ _ => ?_
    exact law.pure fun w₄ hle₄ => law.values_mono hvalue₂ (law.trans hle₃ hle₄)
  | unary operator operand =>
    exact law.bind (hpart _ operand (by simp [Expr.parts]) w) fun _ value _ _ => law.unary value h
  | binary left operator right =>
    exact law.bind (hpart _ left (by simp [Expr.parts]) w) fun w₁ a _ _ =>
      law.bind (hpart _ right (by simp [Expr.parts]) w₁) fun _ b _ _ => law.binary a b h
  | logical left operator right =>
    refine law.bind (hpart _ left (by simp [Expr.parts]) w) fun w₁ value _ _ => ?_
    have hright := hpart .right right (by simp [Expr.parts]) w₁
    cases hkind : operator.kind with
    | kwOr =>
      cases value.isTruthy with
      | true => exact law.pure fun w₂ _ => law.literal w₂ (.boolean true)
      | false => exact hright
    | kwAnd =>
      cases value.isTruthy with
      | true => exact hright
      | false => exact law.pure fun w₂ _ => law.literal w₂ (.boolean false)
    | _ => exact law.logical h (by simp [hkind]) (by simp [hkind])
  | call callee paren arguments =>
    refine law.bind (hpart _ callee (by simp [Expr.parts]) w) fun w₁ function _ hfunction => ?_
    have harguments := law.evalAll (fun expr hmem => hpart .right expr (.tail _ hmem)) w₁
    refine law.bind harguments fun w₂ values hle₂ hvalues => ?_
    exact hcall h (law.values_mono hfunction hle₂) hvalues

/-- **One step of execution**, given blocks. -/
theorem execWith (heval : ∀ w expr, discipline.exprs expr →
      discipline.Runs w discipline.values (eval expr))
    (hexec : ∀ w stmt, discipline.stmts stmt → discipline.Runs w discipline.Flows (exec stmt))
    (hblock : ∀ {w body}, discipline.stmts (.block body) →
      discipline.Runs w discipline.Flows (runner.inside .block (Runner.execAll exec body)))
    {stmt : Stmt} (h : discipline.stmts stmt) (w : World) :
    discipline.Runs w discipline.Flows (runner.execWith eval exec stmt) := by
  have hexpr (expr : Expr) (hmem : expr ∈ stmt.exprs) (w : World) :
      discipline.Runs w discipline.values (eval expr) := heval w expr (law.value h hmem)
  have hpart (part : Stmt) (hmem : part ∈ stmt.parts) (w : World) :
      discipline.Runs w discipline.Flows (exec part) := hexec w part (law.inside h hmem)
  have hcompleted {w : World} {value : Value} (completion : Completion)
      (hvalue : discipline.values w value) : discipline.Runs w discipline.Flows
        (do runner.perform (.complete completion value); return Flow.normal) :=
    law.bind (law.complete completion hvalue) fun _ _ _ _ => law.pure fun _ _ => trivial
  cases stmt with
  | expression expr =>
    exact law.bind (hexpr expr (by simp [Stmt.exprs]) w) fun _ _ _ hvalue => hcompleted _ hvalue
  | print expr =>
    exact law.bind (hexpr expr (by simp [Stmt.exprs]) w) fun _ value _ hvalue =>
      law.bind (law.print value.text h) fun _ _ hle _ => hcompleted _ (law.values_mono hvalue hle)
  | var name expr? =>
    have hrest (w₁ : World) (value : Value) (hvalue : discipline.values w₁ value) :
        discipline.Runs w₁ discipline.Flows (do
          runner.perform (.define name.lexeme value)
          runner.perform (.complete (.declaration name.lexeme) value)
          return Flow.normal) :=
      law.bind (law.define _ hvalue) fun _ _ hle _ => hcompleted _ (law.values_mono hvalue hle)
    cases expr? with
    | some expr =>
      exact law.bind (hexpr expr (by simp [Stmt.exprs]) w) fun w₁ value _ hvalue =>
        hrest w₁ value hvalue
    | none =>
      have habsent : discipline.Runs w discipline.values (Pure.pure .absent : m Value) :=
        law.pure fun w₁ _ => law.literal w₁ .absent
      exact law.bind habsent fun w₁ value _ hvalue => hrest w₁ value hvalue
  | block body => exact hblock h
  | branch condition yes no? =>
    refine law.bind (hexpr condition (by simp [Stmt.exprs]) w) fun w₁ value _ _ => ?_
    cases value.isTruthy with
    | true => exact hpart yes (by simp [Stmt.parts]) w₁
    | false =>
      cases no? with
      | some no => exact hpart no (by simp [Stmt.parts]) w₁
      | none => exact law.pure fun _ _ => trivial
  | loop condition body =>
    refine law.bind (hexpr condition (by simp [Stmt.exprs]) w) fun w₁ value _ _ => ?_
    cases value.isTruthy with
    | true =>
      refine law.bind (hpart body (by simp [Stmt.parts]) w₁) fun w₂ flow _ hflow => ?_
      cases flow with
      -- The loop goes on as the whole statement, which is no part of itself.
      | normal => exact hexec w₂ (.loop condition body) h
      | returned value => exact law.pure fun _ hle => law.values_mono hflow hle
    | false => exact law.pure fun _ _ => trivial
  | function name params body =>
    exact law.bind (law.makeFunction h) fun _ _ _ hf => law.bind (law.define _ hf) fun _ _ _ _ =>
      law.pure fun _ _ => trivial
  | ret keyword expr? =>
    refine law.bind (law.checkCalled h) fun w₁ _ _ _ => ?_
    cases expr? with
    | some expr =>
      exact law.bind (hexpr expr (by simp [Stmt.exprs]) w₁) fun _ _ _ hvalue =>
        law.pure fun _ hle => law.values_mono hvalue hle
    | none => exact law.pure fun w₂ _ => law.literal w₂ .absent

end Moves

namespace Lawful

variable (law : discipline.Lawful runner)
include law

/-- **All runs of expressions and statements are subject to the discipline.** -/
theorem steps (steps : Nat) :
    (∀ w expr, discipline.exprs expr →
      discipline.Runs w discipline.values (runner.eval steps expr)) ∧
    ∀ w stmt, discipline.stmts stmt →
      discipline.Runs w discipline.Flows (runner.exec steps stmt) := by
  induction steps with
  | zero => exact ⟨fun _ _ _ => law.exhausted, fun _ _ _ => law.exhausted⟩
  | succ steps ih =>
    obtain ⟨heval, hexec⟩ := ih
    refine ⟨fun w expr h => ?_, fun w stmt h => ?_⟩
    · rw [Runner.eval]
      exact law.enter h (law.evalWith heval (fun h => law.call h hexec) h w)
    · rw [Runner.exec]
      exact law.enter h (law.execWith heval hexec (fun h => law.block h hexec) h w)

theorem execTop (steps : Nat) {statements : List Stmt}
    (h : ∀ stmt ∈ statements, discipline.stmts stmt) (w : World) :
    discipline.Runs w (fun _ _ => True) (runner.execTop steps statements) := by
  induction statements generalizing w with
  | nil => exact law.pure fun _ _ => trivial
  | cons stmt rest ih =>
    obtain ⟨hstmt, hrest⟩ := List.forall_mem_cons.mp h
    exact law.bind ((law.steps steps).2 w stmt hstmt) fun _ _ _ _ =>
      law.bind (law.echo stmt) fun w₂ _ _ _ => ih hrest w₂

/-- **So are scripts.** -/
theorem interpret (steps : Nat) {statements : List Stmt}
    (h : ∀ stmt ∈ statements, discipline.stmts stmt) (w : World) :
    discipline.Runs w (fun _ _ => True) (runner.interpret steps statements) :=
  law.bind (law.execTop steps h w) fun _ _ _ _ => law.flush

end Lawful

end Discipline

end Scriptlet
