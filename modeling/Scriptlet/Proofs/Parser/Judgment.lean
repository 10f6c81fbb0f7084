import Scriptlet.Proofs.Parser.Repetition
import Scriptlet.Proofs.Syntax.Parts

/-!
# What is said of reads

What is said of a read and its results is often passed on from the reads that it is made of: it
holds of reads one behind the other if it holds of each, and of a repetition if it holds of a turn.
Then what is said of expressions is passed on to statements and programs, however they are put
together. This is shown here once for all that can be said in this way.

Errors about what is assigned to are left out, since no statement notes one by itself.

## Main definitions

* `Stmt.Built` — the statements that can be read, given which expressions can
* `Parse.Judgment`, `Parse.Judgment.Lawful` — what is said of reads, and that it is passed on

## Main results

* `Parse.Judgment.Lawful.repeated`, `entries`, `declarations` — repetitions
* `Parse.Judgment.Lawful.program` — programs
-/

namespace Scriptlet

/-- The statements that can be read if certain expressions can. -/
inductive Stmt.Built (exprs : Expr → Prop) : Stmt → Prop where
  | expression {value : Expr} : exprs value → Built exprs (.expression value)
  | print {value : Expr} : exprs value → Built exprs (.print value)
  | block {body : List Stmt} : (∀ stmt ∈ body, Built exprs stmt) → Built exprs (.block body)
  | branch {condition : Expr} {yes : Stmt} {no? : Option Stmt} : exprs condition →
    Built exprs yes → (∀ no ∈ no?, Built exprs no) → Built exprs (.branch condition yes no?)
  | loop {condition : Expr} {body : Stmt} : exprs condition → Built exprs body →
    Built exprs (.loop condition body)
  | function {name : Token} {params : List Token} {body : List Stmt} :
    (∀ stmt ∈ body, Built exprs stmt) → Built exprs (.function name params body)
  | ret {keyword : Token} {value? : Option Expr} : (∀ value ∈ value?, exprs value) →
    Built exprs (.ret keyword value?)

namespace Stmt.Built

variable {exprs : Expr → Prop} {stmt : Stmt}

theorem imp {others : Expr → Prop} (himp : ∀ expr, exprs expr → others expr)
    (h : stmt.Built exprs) : stmt.Built others := by
  induction h with
  | expression hvalue => exact .expression (himp _ hvalue)
  | print hvalue => exact .print (himp _ hvalue)
  | block _ ih => exact .block ih
  | branch hcondition _ _ ihyes ihno => exact .branch (himp _ hcondition) ihyes ihno
  | loop hcondition _ ih => exact .loop (himp _ hcondition) ih
  | function _ ih => exact .function ih
  | ret hvalue => exact .ret fun value hmem => himp _ (hvalue value hmem)

theorem of_mem_exprs (h : stmt.Built exprs) {expr : Expr} (hmem : expr ∈ stmt.exprs) :
    exprs expr := by
  cases h with
  | expression hvalue | print hvalue | branch hvalue | loop hvalue =>
    obtain rfl := List.mem_singleton.mp hmem
    exact hvalue
  | ret hvalue => exact hvalue expr (Option.mem_toList.mp hmem)
  | block | function => cases hmem

theorem of_mem_parts (h : stmt.Built exprs) {part : Stmt} (hmem : part ∈ stmt.parts) :
    part.Built exprs := by
  cases h with
  | block hbody | function hbody => exact hbody part hmem
  | branch _ hyes hno =>
    rcases List.mem_cons.mp hmem with rfl | hmem
    · exact hyes
    · exact hno part (Option.mem_toList.mp hmem)
  | loop _ hbody =>
    obtain rfl := List.mem_singleton.mp hmem
    exact hbody
  | expression | print | ret => cases hmem

/-- No statement that is read declares a variable. -/
theorem ne_var (h : stmt.Built exprs) (name : Token) (value? : Option Expr) :
    stmt ≠ .var name value? := by
  rintro rfl
  cases h

end Stmt.Built

/-- The state that a turn comes to. -/
def Turn.state {σ : Type} : Turn σ → σ
  | .again state => state
  | .done state => state

namespace Parse

variable {α β σ : Type}

/-- Any result will do. -/
abbrev Anything (_ : α) : Prop := True

/-- Something that is said of a read and its results. -/
structure Judgment where
  /-- It holds of a read, and the results have a property. -/
  Holds {α : Type} (P : α → Prop) (read : Parse α) : Prop

namespace Judgment

/-- What is said of reads is passed on from the reads that they are made of. -/
structure Lawful (judgment : Judgment) : Prop where
  pure {α : Type} {P : α → Prop} {result : α} : P result → judgment.Holds P (pure result)
  bind {α β : Type} {P : α → Prop} {Q : β → Prop} {read : Parse α} {next : α → Parse β} :
    judgment.Holds P read → (∀ result, P result → judgment.Holds Q (next result)) →
      judgment.Holds Q (read >>= next)
  current : judgment.Holds Anything current
  rounds : judgment.Holds Anything rounds
  advance : judgment.Holds Anything advance
  acceptIf (wanted : TokenKind → Bool) : judgment.Holds Anything (acceptIf wanted)
  fail {α : Type} {P : α → Prop} {cause : ParseCause} :
    cause ≠ .invalidTarget → judgment.Holds P (fail cause : Parse α)
  report {error : ParseError} :
    error.cause ≠ .invalidTarget → judgment.Holds Anything (report error)
  nestedStatement {α : Type} {P : α → Prop} {read : Parse α} :
    judgment.Holds P read → judgment.Holds P (nestedStatement read)
  recovering {α : Type} {P : α → Prop} {read : Parse α} {substitute : α} :
    judgment.Holds P read → P substitute → judgment.Holds P (recovering substitute read)
  within {α : Type} {P : α → Prop} {read : Nat → Parse α} (levels : Parser → Nat) :
    (∀ levels, judgment.Holds P (read levels)) →
      judgment.Holds P fun parser => read (levels parser) parser

theorem Holds.ite {judgment : Judgment} {P : α → Prop} {read other : Parse α} {condition : Prop}
    [Decidable condition] (h : judgment.Holds P read) (hother : judgment.Holds P other) :
    judgment.Holds P (if condition then read else other) := by
  split
  · exact h
  · exact hother

theorem forall_mem_push {P : α → Prop} {done : Array α} (h : ∀ item ∈ done.toList, P item)
    {last : α} (hlast : P last) : ∀ item ∈ (done.push last).toList, P item := by
  intro item hmem
  rw [Array.toList_push, List.mem_append, List.mem_singleton] at hmem
  rcases hmem with hmem | rfl
  · exact h item hmem
  · exact hlast

namespace Lawful

variable {judgment : Judgment} (law : judgment.Lawful) {P : α → Prop}
include law

/-! ## Tokens and repetitions -/

theorem expect (kind : TokenKind) {cause : ParseCause} (h : cause ≠ .invalidTarget) :
    judgment.Holds Anything (expect kind cause) := by
  refine law.bind (law.acceptIf _) fun token? _ => ?_
  cases token? with
  | some token => exact law.pure trivial
  | none => exact law.fail h

theorem optionalSemicolon : judgment.Holds Anything optionalSemicolon :=
  law.bind (law.acceptIf _) fun _ _ => law.pure trivial

theorem repeated {P : σ → Prop} {turn : σ → Parse (Turn σ)}
    (h : ∀ state, P state → judgment.Holds (fun last => P last.state) (turn state)) {state : σ}
    (hstate : P state) : judgment.Holds P (repeated turn state) := by
  have hrepeating (rounds : List Token) :
      ∀ state, P state → judgment.Holds P (repeating turn rounds state) := by
    induction rounds with
    | nil => exact fun state hstate => law.pure hstate
    | cons round rounds ih =>
      refine fun state hstate => law.bind (h state hstate) fun last hlast => ?_
      cases last with
      | again next => exact ih next hlast
      | done result => exact law.pure hlast
  exact law.bind law.rounds fun rounds _ => hrepeating rounds state hstate

theorem entries {entry : Parse α} (h : judgment.Holds P entry) {tooMany : ParseCause}
    (htooMany : tooMany ≠ .invalidTarget) :
    judgment.Holds (fun all : List α => ∀ item ∈ all, P item) (entries tooMany entry) := by
  have hturn (done : Array α) (hdone : ∀ item ∈ done.toList, P item) :
      judgment.Holds (fun last => ∀ item ∈ last.state.toList, P item)
        (entryTurn tooMany entry done) := by
    have hroom : judgment.Holds Anything (checkRoom tooMany done) :=
      .ite (law.bind law.current fun token _ => @law.report ⟨tooMany, token⟩ htooMany)
        (law.pure trivial)
    refine law.bind hroom fun _ _ => law.bind h fun last hlast =>
      law.bind (law.acceptIf _) fun comma? _ => ?_
    cases comma? with
    | some comma => exact law.pure (forall_mem_push hdone hlast)
    | none => exact law.pure (forall_mem_push hdone hlast)
  have hsees : judgment.Holds Anything (sees .rightParen) :=
    law.bind law.current fun _ _ => law.pure trivial
  rw [entries_eq]
  refine law.bind hsees fun closed _ => .ite (law.pure (by simp)) ?_
  exact law.bind (law.repeated hturn (by simp)) fun all hall => law.pure hall

theorem declarations {P : Stmt → Prop} {declaration : Parse Stmt}
    (h : judgment.Holds P declaration) (ends : TokenKind → Prop) [DecidablePred ends] :
    judgment.Holds (fun body : Array Stmt => ∀ stmt ∈ body.toList, P stmt)
      (Parse.repeated (declarationTurn ends declaration) #[]) := by
  refine law.repeated (fun done hdone => law.bind law.current fun next _ => ?_) (by simp)
  exact .ite (law.pure hdone)
    (law.bind h fun stmt hstmt => law.pure (forall_mem_push hdone hstmt))

/-! ## Statements -/

section Statements

variable {exprs : Expr → Prop} {function statement declaration : Parse Stmt}

theorem block (h : judgment.Holds (Stmt.Built exprs) declaration) :
    judgment.Holds (fun body : List Stmt => ∀ stmt ∈ body, stmt.Built exprs)
      (block declaration) := by
  rw [block_eq]
  exact law.bind (law.declarations h _) fun body hbody =>
    law.bind (law.expect _ ParseCause.noConfusion) fun _ _ => law.pure hbody

theorem functionForm (h : judgment.Holds (Stmt.Built exprs) declaration) :
    judgment.Holds (Stmt.Built exprs) (functionForm declaration) := by
  have hexpect (kind : TokenKind) {cause : ParseCause} (hcause : cause ≠ .invalidTarget) :
      judgment.Holds Anything (Parse.expect kind cause) := law.expect kind hcause
  refine law.bind (hexpect _ ParseCause.noConfusion) fun name _ =>
    law.bind (hexpect _ ParseCause.noConfusion) fun _ _ => ?_
  refine law.bind (law.entries (hexpect _ ParseCause.noConfusion) ParseCause.noConfusion)
    fun params _ => law.bind (hexpect _ ParseCause.noConfusion) fun _ _ =>
      law.bind (hexpect _ ParseCause.noConfusion) fun _ _ => ?_
  exact law.bind (law.block h) fun _ hbody => law.pure (.function hbody)

/-- What could not be read is replaced by the placeholder. -/
theorem declarationForm (hfunction : judgment.Holds (Stmt.Built exprs) function)
    (hstatement : judgment.Holds (Stmt.Built exprs) statement)
    (hplaceholder : Stmt.placeholder.Built exprs) :
    judgment.Holds (Stmt.Built exprs) (declarationForm function statement) := by
  refine law.recovering (law.bind (law.acceptIf _) fun keyword? _ => ?_) hplaceholder
  cases keyword? with
  | some keyword => exact hfunction
  | none => exact hstatement

variable (hexpr : judgment.Holds exprs expression)
include hexpr

theorem returnForm (keyword : Token) :
    judgment.Holds (Stmt.Built exprs) (returnForm keyword) := by
  refine law.bind law.current fun next _ => .ite ?_ ?_
  · exact law.bind law.optionalSemicolon fun _ _ =>
      law.pure (.ret fun _ hmem => absurd hmem (Option.not_mem_none _))
  · exact law.bind hexpr fun value hvalue => law.bind law.optionalSemicolon fun _ _ =>
      law.pure (.ret fun _ hmem => Option.some_inj.mp hmem ▸ hvalue)

theorem branchForm (h : judgment.Holds (Stmt.Built exprs) statement) :
    judgment.Holds (Stmt.Built exprs) (branchForm statement) := by
  refine law.bind hexpr fun condition hcondition =>
    law.bind (law.expect _ ParseCause.noConfusion) fun _ _ => law.bind h fun yes hyes =>
      law.bind (law.acceptIf _) fun else? _ => ?_
  cases else? with
  | none =>
    exact law.pure (.branch hcondition hyes fun _ hmem => absurd hmem (Option.not_mem_none _))
  | some keyword =>
    exact law.bind h fun no hno =>
      law.pure (.branch hcondition hyes fun _ hmem => Option.some_inj.mp hmem ▸ hno)

theorem loopForm (h : judgment.Holds (Stmt.Built exprs) statement) :
    judgment.Holds (Stmt.Built exprs) (loopForm statement) :=
  law.bind hexpr fun _ hcondition =>
    law.bind (law.expect _ ParseCause.noConfusion) fun _ _ =>
      law.bind h fun _ hbody => law.pure (.loop hcondition hbody)

theorem statementForm (h : judgment.Holds (Stmt.Built exprs) statement)
    (hdeclaration : judgment.Holds (Stmt.Built exprs) declaration) :
    judgment.Holds (Stmt.Built exprs) (statementForm statement declaration) := by
  refine law.bind law.current fun next _ => ?_
  split
  · exact law.bind law.advance fun keyword _ => law.returnForm hexpr keyword
  · exact law.bind law.advance fun _ _ => law.bind hexpr fun _ hvalue =>
      law.bind law.optionalSemicolon fun _ _ => law.pure (.print hvalue)
  · exact law.bind law.advance fun _ _ =>
      law.bind (law.block hdeclaration) fun _ hbody => law.pure (.block hbody)
  · exact law.bind law.advance fun _ _ => law.branchForm hexpr h
  · exact law.bind law.advance fun _ _ => law.loopForm hexpr h
  · exact law.bind hexpr fun _ hvalue =>
      law.bind law.optionalSemicolon fun _ _ => law.pure (.expression hvalue)

variable (hplaceholder : Stmt.placeholder.Built exprs)
include hplaceholder

theorem statementWithin (levels : Nat) :
    judgment.Holds (Stmt.Built exprs) (statementWithin levels) ∧
      judgment.Holds (Stmt.Built exprs) (functionWithin levels) := by
  induction levels with
  | zero => exact ⟨law.fail ParseCause.noConfusion, law.fail ParseCause.noConfusion⟩
  | succ levels ih =>
    have hdeclaration := law.declarationForm ih.2 ih.1 hplaceholder
    exact ⟨law.nestedStatement (law.statementForm hexpr ih.1 hdeclaration),
      law.nestedStatement (law.functionForm hdeclaration)⟩

end Statements

section Programs

variable {exprs : Expr → Prop} (hexpr : judgment.Holds exprs expression)
  (hplaceholder : Stmt.placeholder.Built exprs)
include hexpr hplaceholder

theorem declaration : judgment.Holds (Stmt.Built exprs) declaration :=
  law.declarationForm
    (law.within _ fun levels => (law.statementWithin hexpr hplaceholder levels).2)
    (law.within _ fun levels => (law.statementWithin hexpr hplaceholder levels).1) hplaceholder

/-- **What is said of expressions is passed on to programs.** -/
theorem program :
    judgment.Holds (fun statements : List Stmt => ∀ stmt ∈ statements, stmt.Built exprs)
      program := by
  rw [program_eq]
  exact law.bind (law.declarations (law.declaration hexpr hplaceholder) _) fun body hbody =>
    law.pure hbody

end Programs

end Lawful

end Judgment

end Parse

end Scriptlet
