import Scriptlet.Proofs.Parser.Judgment

/-!
# The trees that are read

Reading goes on after errors, so a tree may have been read from tokens that no rule of the grammar
describes. Its shape is bounded all the same: every node stands where a read puts one. Operators are
those of the levels, with looser operators on the left of tighter ones only, and every parenthesis,
argument, assigned value and operator in front of an operand uses up a level of nesting.

## Main definitions

* `Expr.Built` — the expressions that can be read within a number of levels
* `Parse.Gives` — all results of a read have a property

## Main results

* `Parse.gives_expression` — expressions are read within the limit on nesting
* `Parse.gives_program` — every statement of a program that is read can be read
-/

namespace Scriptlet

/-! ## Levels -/

namespace TokenKind

/-- The operators that always need both their operands. -/
def binaryOperators : List TokenKind :=
  [equalEqual, notEqual, less, lessEqual, greater, greaterEqual, plus, minus, star, slash]

/-- The operators that may be settled by their left operand. -/
def logicalOperators : List TokenKind := [kwAnd, kwOr]

/-- The operators in front of their only operand. -/
def unaryOperators : List TokenKind := [kwNot, minus]

end TokenKind

/-- A level joins by one of two kinds of trees, with operators of that kind. -/
theorem join_cases {level : Level} (h : level ∈ levels) :
    level.join = .logical ∧ level.operators ⊆ TokenKind.logicalOperators ∨
      level.join = .binary ∧ level.operators ⊆ TokenKind.binaryOperators := by
  simp only [levels, List.mem_cons, List.not_mem_nil, or_false] at h
  rcases h with rfl | rfl | rfl | rfl | rfl | rfl
  · exact .inl ⟨rfl, by decide⟩
  · exact .inl ⟨rfl, by decide⟩
  all_goals exact .inr ⟨rfl, by decide⟩

theorem parts_join {level : Level} (h : level ∈ levels) (left right : Expr) (operator : Token) :
    (level.join left operator right).parts = [left, right] := by
  rcases join_cases h with ⟨hjoin, _⟩ | ⟨hjoin, _⟩ <;> rw [hjoin] <;> rfl

/-! ## Shapes -/

/-- What an expression is read as. -/
inductive Form where
  /-- An expression on its own. -/
  | whole
  /-- The operand behind an operator. -/
  | operand
  /-- Operands joined by the operators of so many levels, from the tightest. -/
  | joined (count : Nat)

/-- The expressions that can be read in a form while a number of levels may be opened. -/
inductive Expr.Built : Nat → Form → Expr → Prop where
  | literal {n : Nat} (value : Literal) : Built n (.joined 0) (.literal value)
  | var {n : Nat} (name : Token) : Built n (.joined 0) (.var name)
  | group {n : Nat} {expr : Expr} : Built n .whole expr → Built n (.joined 0) expr
  | call {n : Nat} {callee : Expr} {paren : Token} {arguments : List Expr} :
    Built n (.joined 0) callee → (∀ argument ∈ arguments, Built n .whole argument) →
      Built n (.joined 0) (.call callee paren arguments)
  | unary {n : Nat} {operator : Token} {expr : Expr} :
    operator.kind ∈ [TokenKind.kwNot, .minus] → Built n .operand expr →
      Built n (.joined 0) (.unary operator expr)
  | looser {n count : Nat} {expr : Expr} :
    Built n (.joined count) expr → Built n (.joined (count + 1)) expr
  | join {n count : Nat} {level : Level} {left right : Expr} {operator : Token} :
    level ∈ levels → operator.kind ∈ level.operators →
      Built n (.joined (count + 1)) left → Built n (.joined count) right →
        Built n (.joined (count + 1)) (level.join left operator right)
  | operand {n : Nat} {expr : Expr} : Built n (.joined 0) expr → Built (n + 1) .operand expr
  | plain {n : Nat} {expr : Expr} :
    Built n (.joined levels.length) expr → Built (n + 1) .whole expr
  | assign {n : Nat} {name : Token} {value : Expr} :
    Built n .whole value → Built (n + 1) .whole (.assign name value)

namespace Expr.Built

variable {n more : Nat} {form : Form} {expr : Expr}

theorem succ (h : Built n form expr) : Built (n + 1) form expr := by
  induction h with
  | literal value => exact .literal value
  | var name => exact .var name
  | group _ ih => exact .group ih
  | call _ _ ih iharguments => exact .call ih iharguments
  | unary hkind _ ih => exact .unary hkind ih
  | looser _ ih => exact .looser ih
  | join hlevel hkind _ _ ihleft ihright => exact .join hlevel hkind ihleft ihright
  | operand _ ih => exact .operand ih
  | plain _ ih => exact .plain ih
  | assign _ ih => exact .assign ih

/-- What can be read can be read while more levels may be opened. -/
theorem of_le (h : Built n form expr) (hle : n ≤ more) : Built more form expr := by
  induction hle with
  | refl => exact h
  | step _ ih => exact ih.succ

end Expr.Built

namespace Parse

/-! ## Results -/

variable {α β σ : Type} {P : α → Prop} {Q : β → Prop}

/-- Every result of a read has a property. -/
def Gives (P : α → Prop) (read : Parse α) : Prop :=
  ∀ ⦃start : Parser⦄ ⦃result : α⦄ ⦃stop : Parser⦄, read start = .ok result stop → P result

theorem gives_true (read : Parse α) : Gives (fun _ => True) read := fun _ _ _ _ => trivial

theorem gives_pure {result : α} (h : P result) : Gives P (pure result : Parse α) := by
  rintro _ _ _ ⟨⟩
  exact h

theorem gives_fail (cause : ParseCause) : Gives P (fail cause : Parse α) := by
  rintro _ _ _ ⟨⟩

theorem Gives.bind {read : Parse α} {next : α → Parse β} (h : Gives P read)
    (hnext : ∀ result, P result → Gives Q (next result)) : Gives Q (read >>= next) := by
  intro start result stop hread
  obtain ⟨first, middle, hfirst, hsecond⟩ := ok_of_bind hread
  exact hnext first (h hfirst) hsecond

/-- The result of the first of two reads may not matter. -/
theorem Gives.after {read : Parse α} {next : α → Parse β} (h : ∀ result, Gives Q (next result)) :
    Gives Q (read >>= next) := (gives_true read).bind fun result _ => h result

theorem Gives.imp {P' : α → Prop} {read : Parse α} (h : Gives P read)
    (himp : ∀ result, P result → P' result) : Gives P' read :=
  fun _ _ _ hread => himp _ (h hread)

theorem gives_acceptIf (wanted : TokenKind → Bool) :
    Gives (fun token? : Option Token => ∀ token ∈ token?, wanted token.kind = true)
      (acceptIf wanted) := by
  rintro start token? stop haccept token ⟨⟩
  exact (acceptIf_eq_some haccept).2.1

theorem Gives.nested {read : Parse α} (h : Gives P read) : Gives P (nested read) := by
  intro start result stop hread
  unfold Parse.nested at hread
  split at hread
  · rename_i hinner
    cases hread
    exact h hinner
  · cases hread

theorem Gives.nestedStatement {read : Parse α} (h : Gives P read) :
    Gives P (nestedStatement read) := by
  intro start result stop hread
  unfold Parse.nestedStatement at hread
  split at hread
  · rename_i hinner
    cases hread
    exact h hinner
  · cases hread

theorem Gives.recovering {read : Parse α} {substitute : α} (h : Gives P read)
    (hsubstitute : P substitute) : Gives P (recovering substitute read) := by
  intro start result stop hread
  unfold Parse.recovering at hread
  split at hread
  · rename_i hinner
    cases hread
    exact h hinner
  · split at hread
    · cases hread
    · cases hread
      exact hsubstitute

/-- That all results have a property is passed on from the reads that a read is made of. -/
theorem gives_lawful : Judgment.Lawful ⟨Gives⟩ where
  pure := gives_pure
  bind := Gives.bind
  current := gives_true current
  rounds := gives_true rounds
  advance := gives_true advance
  acceptIf wanted := gives_true (acceptIf wanted)
  fail _ := gives_fail _
  report _ := gives_true _
  nestedStatement := Gives.nestedStatement
  recovering := Gives.recovering
  within _ h := fun _ _ _ hread => h _ hread

/-! ## Expressions -/

variable {n : Nat} {operand inner : Parse Expr}

theorem gives_climb {tightest : Parse Expr} (h : Gives (Expr.Built n (.joined 0)) tightest)
    {some : List Level} (hsome : ∀ level ∈ some, level ∈ levels) :
    Gives (Expr.Built n (.joined some.length)) (climb tightest some) := by
  induction some with
  | nil => exact h
  | cons level tighter ih =>
    have hlevel := hsome level List.mem_cons_self
    have htighter := ih fun level hmem => hsome level (List.mem_cons_of_mem _ hmem)
    rw [climb, chain_eq]
    refine htighter.bind fun first hfirst =>
      gives_lawful.repeated (fun left hleft => ?_) hfirst.looser
    refine (gives_acceptIf _).bind fun operator? hoperator => ?_
    cases operator? with
    | none => exact gives_pure hleft
    | some operator =>
      have hkind : operator.kind ∈ level.operators := by simpa using hoperator operator rfl
      exact htighter.bind fun right hright => gives_pure (.join hlevel hkind hleft hright)

theorem gives_primary (h : Gives (Expr.Built n .whole) inner) :
    Gives (Expr.Built n (.joined 0)) (primary inner) := by
  refine .after fun token => ?_
  split
  case h_3 =>
    split
    · exact .after fun _ => gives_pure (.literal _)
    · exact gives_fail _
  case h_5 | h_6 | h_7 => exact .after fun _ => gives_pure (.var token)
  case h_8 =>
    exact .after fun _ => h.bind fun value hvalue => .after fun _ => gives_pure hvalue.group
  case h_9 => exact gives_fail _
  all_goals exact .after fun _ => gives_pure (.literal _)

theorem gives_call (h : Gives (Expr.Built n .whole) inner) :
    Gives (Expr.Built n (.joined 0)) (call inner) := by
  rw [call_eq]
  refine (gives_primary h).bind fun first hfirst =>
    gives_lawful.repeated (fun callee hcallee => ?_) hfirst
  refine .after fun left? => ?_
  cases left? with
  | none => exact gives_pure hcallee
  | some left =>
    have hentries := gives_lawful.entries h (ParseCause.noConfusion : .tooManyArguments ≠ _)
    exact Gives.bind hentries fun arguments harguments => .after fun paren =>
      gives_pure (.call hcallee harguments)

theorem gives_unary (hoperand : Gives (Expr.Built n .operand) operand)
    (h : Gives (Expr.Built n .whole) inner) :
    Gives (Expr.Built n (.joined 0)) (unary operand inner) := by
  refine (gives_acceptIf _).bind fun operator? hoperator => ?_
  cases operator? with
  | none => exact gives_call h
  | some operator =>
    have hkind : operator.kind ∈ [TokenKind.kwNot, .minus] := by
      simpa using hoperator operator rfl
    exact hoperand.bind fun expr hexpr => gives_pure (.unary hkind hexpr)

theorem gives_assignment (hoperand : Gives (Expr.Built n .operand) operand)
    (h : Gives (Expr.Built n .whole) inner) :
    Gives (Expr.Built (n + 1) .whole) (assignment operand inner) := by
  refine (gives_climb (gives_unary hoperand h) fun _ hmem => hmem).bind fun target htarget =>
    .after fun equals? => ?_
  cases equals? with
  | none => exact gives_pure htarget.plain
  | some equals =>
    refine h.bind fun value hvalue => ?_
    unfold assignTo
    split
    · exact gives_pure hvalue.assign
    · exact .after fun _ => gives_pure htarget.plain

theorem gives_within (n : Nat) : Gives (Expr.Built n .whole) (expressionWithin n) ∧
    Gives (Expr.Built n .operand) (operandWithin n) := by
  induction n with
  | zero => exact ⟨gives_fail _, gives_fail _⟩
  | succ n ih =>
    obtain ⟨hinner, hoperand⟩ := ih
    exact ⟨(gives_assignment hoperand hinner).nested,
      ((gives_unary hoperand hinner).imp fun _ h => h.operand).nested⟩

/-- **Expressions are read within the limit on nesting.** -/
theorem gives_expression : Gives (Expr.Built maxNesting .whole) expression :=
  fun start _ _ hread => ((gives_within (maxNesting - start.depth)).1 hread).of_le (Nat.sub_le _ _)

/-! ## Programs -/

/-- What could not be read is replaced by the absent literal, which stands within any limit. -/
theorem built_placeholder : Stmt.placeholder.Built (Expr.Built maxNesting .whole) :=
  .expression (.plain (.looser (.looser (.looser (.looser (.looser (.looser (.literal _))))))))

/-- **Every statement of a program that is read can be read**, whatever errors reading went on
after. -/
theorem gives_program :
    Gives (fun statements : List Stmt =>
      ∀ stmt ∈ statements, stmt.Built (Expr.Built maxNesting .whole)) program :=
  gives_lawful.program gives_expression built_placeholder

end Parse

end Scriptlet
