import Scriptlet.Proofs.Parser.Trees
import Scriptlet.Proofs.Session.Trait

/-!
# Every operator that is read is known

Evaluation stops with a fault of its own at an operator that it does not know. The operators it
knows are listed in the evaluation of operators, once for each kind of tree; those that are read are
listed in the reads. This module shows that the lists fit: no tree that is read holds an operator at
which evaluation would stop like this, and neither does any function that a script leaves behind.

## Main definitions

* `Expr.Known` — the operator of an expression is one that evaluation knows
* `Trait.known` — expressions with known operators throughout, and statements that can be read

## Main results

* `Expr.Built.known` — operators that are read are known
* `Trait.known_lawful` — known operators do not cause the fault
* `operators_known` — no run in a session of runs stops with it
-/

namespace Scriptlet

/-- The operator of an expression, if it has one, is one that evaluation knows. -/
def Expr.Known : Expr → Prop
  | .binary _ operator _ => operator.kind ∈ TokenKind.binaryOperators
  | .logical _ operator _ => operator.kind ∈ TokenKind.logicalOperators
  | .unary operator _ => operator.kind ∈ TokenKind.unaryOperators
  | _ => True

/-! ## Operators that are read -/

/-- The operators of every level are known. -/
theorem known_join {level : Level} (hlevel : level ∈ levels) {operator : Token}
    (hkind : operator.kind ∈ level.operators) (left right : Expr) :
    (level.join left operator right).Known := by
  rcases join_cases hlevel with ⟨hjoin, hsubset⟩ | ⟨hjoin, hsubset⟩
  · rw [hjoin]
    exact hsubset hkind
  · rw [hjoin]
    exact hsubset hkind

/-- **Operators that are read are known.** -/
theorem Expr.Built.known {n : Nat} {form : Form} {expr : Expr} (h : Expr.Built n form expr) :
    expr.Throughout Expr.Known := by
  induction h with
  | literal value => exact .intro trivial (by simp [Expr.parts])
  | var name => exact .intro trivial (by simp [Expr.parts])
  | call _ _ ih iharguments =>
    exact .intro trivial (List.forall_mem_cons.mpr ⟨ih, iharguments⟩)
  | unary hkind _ ih => exact .intro hkind (by simpa [Expr.parts] using ih)
  | join hlevel hkind _ _ ihleft ihright =>
    refine .intro (known_join hlevel hkind _ _) ?_
    rw [parts_join hlevel]
    simp [ihleft, ihright]
  | assign _ ih => exact .intro trivial (by simpa [Expr.parts] using ih)
  | group _ ih | looser _ ih | operand _ ih | plain _ ih => exact ih

/-! ## Operators that are evaluated -/

theorem Value.orOverflow_ne {operation : String} {n? : Option Int64} {cause : FaultCause}
    (h : orOverflow operation n? = .error cause) (operator : String) :
    cause ≠ .unsupportedOperator operator := by
  cases n? with
  | some n => cases h
  | none =>
    cases h
    exact nofun

theorem Value.unary_ne {operator : Token} {operand : Value} {cause : FaultCause}
    (hkind : operator.kind ∈ TokenKind.unaryOperators) (h : unary operator operand = .error cause)
    (name : String) : cause ≠ .unsupportedOperator name := by
  unfold unary at h
  split at h
  · cases h
  · split at h
    · exact orOverflow_ne h name
    · cases h
      exact nofun
  · rename_i hnot hminus
    simp only [TokenKind.unaryOperators, List.mem_cons, List.not_mem_nil, or_false] at hkind
    exact (hkind.elim hnot hminus).elim

theorem Value.binaryInteger_ne {operator : Token} {a b : Int64} {cause : FaultCause}
    (hkind : operator.kind ∈ TokenKind.binaryOperators) (hequal : operator.kind ≠ .equalEqual)
    (hnotEqual : operator.kind ≠ .notEqual) (h : binaryInteger operator a b = .error cause)
    (name : String) : cause ≠ .unsupportedOperator name := by
  unfold binaryInteger at h
  split at h
  case h_1 | h_2 | h_3 => exact orOverflow_ne h name
  case h_4 =>
    split at h
    · cases h
      exact nofun
    · exact orOverflow_ne h name
  case h_9 => simp_all [TokenKind.binaryOperators]
  all_goals cases h

theorem Value.binary_ne {operator : Token} {a b : Value} {cause : FaultCause}
    (hkind : operator.kind ∈ TokenKind.binaryOperators) (h : binary operator a b = .error cause)
    (name : String) : cause ≠ .unsupportedOperator name := by
  unfold binary at h
  split at h
  · cases h
  · cases h
  · rename_i hequal hnotEqual
    split at h
    · exact binaryInteger_ne hkind hequal hnotEqual h name
    · cases h
      exact nofun

/-- Expressions whose operators are known throughout, statements made of them that can be read, and
all faults but the one about an operator that is not known. -/
def Trait.known : Trait where
  exprs := Expr.Throughout Expr.Known
  stmts := Stmt.Built (Expr.Throughout Expr.Known)
  faults fault := ∀ name, fault.cause ≠ .unsupportedOperator name

/-- **Known operators do not cause the fault.** -/
theorem Trait.known_lawful : Trait.known.Lawful where
  part h hmem := h.part hmem
  value h hmem := h.of_mem_exprs hmem
  inside h hmem := h.of_mem_parts hmem
  var _ _ := nofun
  unary h hcause := Value.unary_ne h.self hcause
  binary h hcause := Value.binary_ne h.self hcause
  logical h hor hand := by
    have hkind := h.self
    simp [Expr.Known, TokenKind.logicalOperators, hor, hand] at hkind
  call _ hcause name := by cases hcause <;> exact nofun
  print _ _ := nofun
  ret _ _ := nofun
  terminal _ _ := nofun

theorem Trait.sources_known (source : String) : Trait.known.Sources source :=
  fun _ _ _ _ hprogram stmt hmem =>
    (Parse.gives_program hprogram stmt hmem).imp fun _ hbuilt => hbuilt.known

/-- What is entered is a statement that does not declare a variable, an expression with a known
operator, or a call. -/
def Task.Known : Task → Prop
  | .eval expr => expr.Known
  | .exec stmt => ∀ name value?, stmt ≠ .var name value?
  | .call _ _ _ => True

theorem Trait.known_tasks {task : Task} (h : Trait.known.Tasks task) : task.Known := by
  cases task with
  | eval expr => exact h.self
  | exec stmt => exact h.ne_var
  | call location callee arguments => trivial

/-- **No operator that is read is unknown.** Let any scripts be run one after the other in a new
session, some of which may be spoiled in places, stop at faults, or leave functions behind. Then no
further script stops at an operator that evaluation does not know: the operators of all expressions
that are entered while it runs are known, wherever they come from, and no statement that is entered
declares a variable. This is so because it holds of every statement of every script that is read,
spoiled or not, and of the body of every function that is bound anywhere. -/
theorem operators_known (terminal : Terminal) (options : Options) (history : List (Nat × String))
    (steps : Nat) (source : String) :
    let session := (Session.start terminal options).afterRuns history
    (∀ name location after, Session.run steps source session ≠
      .error (.stop (.fault ⟨.unsupportedOperator name, location⟩)) after) ∧
    (∀ id name f, session.store.binding? id name = some (.function f) →
      ∀ stmt ∈ f.declaration.body, stmt.Built (Expr.Throughout Expr.Known)) ∧
    ∀ parser statements stop, Parser.ofSource source = .ok parser →
      Parse.program parser = .ok statements stop →
      (∀ stmt ∈ statements, stmt.Built (Expr.Throughout Expr.Known)) ∧
        ∀ event ∈ (Traced.interpret steps statements).log session, event.task.Known := by
  intro session
  have hsession : Trait.known.Holds session := Trait.known_lawful.afterRuns
    (fun step _ => Trait.sources_known step.2) (Trait.holds_start terminal options)
  refine ⟨fun name location after hrun => ?_, fun id name f hbinding => hsession.bound hbinding, ?_⟩
  · have hstop := (Trait.known_lawful.run steps (Trait.sources_known source) hsession).2 hrun
    exact hstop name rfl
  · intro parser statements stop hread hprogram
    have hstatements := Trait.sources_known source hread hprogram
    refine ⟨hstatements, fun event hmem => ?_⟩
    have hbears := Trait.known_lawful.lawful.interpret steps hstatements ()
    exact Trait.known_tasks (hbears.log hsession event hmem).1

end Scriptlet
