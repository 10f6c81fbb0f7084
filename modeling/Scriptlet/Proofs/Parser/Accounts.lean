import Mathlib.Algebra.BigOperators.Ring.List
import Mathlib.Algebra.Ring.Nat
import Scriptlet.Proofs.Parser.Trees

/-!
# Every placeholder is paid for by an error

No script spells the absent literal. It only gets into a tree as part of the placeholder that stands
for a statement that could not be read, and with every placeholder an error is noted. The reverse
does not hold: some errors are noted without a placeholder, and a placeholder can get lost when what
it stands in cannot be read either, while its error stays. So the absent literals of what is read
are at most as many as the errors that were noted on the way.

To have this of reads one behind the other, a read is given a credit: the absent literals of what
has been read before it and goes into its result. What it gives may hold as many absent literals as
it has credit, and one for each error that it notes itself.

## Main definitions

* `Expr.absents`, `Stmt.absents` — how many absent literals a tree holds
* `Stmt.Within` — a statement that stands somewhere inside another
* `Parser.Notes` — only errors that are not fatal were noted between two parsers
* `Parse.Accounts` — a read whose result does not hold more absent literals than are paid for

## Main results

* `Parse.Accounts.recovering` — a placeholder is paid for
* `Parse.absents_of_expression` — expressions hold no absent literal
* `Parse.accounts_program` — a program accounts for what it holds
-/

namespace Scriptlet

/-! ## Absent literals -/

namespace Expr

mutual

/-- How many absent literals an expression holds. -/
def absents : Expr → Nat
  | binary left _ right => left.absents + right.absents
  | logical left _ right => left.absents + right.absents
  | unary _ operand => operand.absents
  | literal value => if value = .absent then 1 else 0
  | var _ => 0
  | assign _ value => value.absents
  | call callee _ arguments => callee.absents + absentsAll arguments

/-- How many absent literals some expressions hold together. -/
def absentsAll : List Expr → Nat
  | [] => 0
  | expr :: rest => expr.absents + absentsAll rest

end

theorem absentsAll_eq_sum (exprs : List Expr) : absentsAll exprs = (exprs.map absents).sum := by
  induction exprs with
  | nil => rfl
  | cons expr rest ih => rw [absentsAll, ih, List.map_cons, List.sum_cons]

end Expr

namespace Stmt

mutual

/-- How many absent literals a statement holds. -/
def absents : Stmt → Nat
  | expression value => value.absents
  | print value => value.absents
  | var _ value? => value?.elim 0 Expr.absents
  | block body => absentsAll body
  | branch condition yes none => condition.absents + yes.absents
  | branch condition yes (some no) => condition.absents + yes.absents + no.absents
  | loop condition body => condition.absents + body.absents
  | function _ _ body => absentsAll body
  | ret _ value? => value?.elim 0 Expr.absents

/-- How many absent literals some statements hold together. -/
def absentsAll : List Stmt → Nat
  | [] => 0
  | stmt :: rest => stmt.absents + absentsAll rest

end

theorem absentsAll_eq_sum (stmts : List Stmt) : absentsAll stmts = (stmts.map absents).sum := by
  induction stmts with
  | nil => rfl
  | cons stmt rest ih => rw [absentsAll, ih, List.map_cons, List.sum_cons]

theorem absents_le_of_mem {stmt : Stmt} {stmts : List Stmt} (h : stmt ∈ stmts) :
    stmt.absents ≤ absentsAll stmts := by
  induction stmts with
  | nil => cases h
  | cons first rest ih =>
    rw [absentsAll]
    rcases List.mem_cons.mp h with rfl | h
    · exact Nat.le_add_right _ _
    · exact Nat.le_trans (ih h) (Nat.le_add_left _ _)

theorem absents_le_of_mem_parts {part whole : Stmt} (h : part ∈ whole.parts) :
    part.absents ≤ whole.absents := by
  cases whole with
  | block body | function name params body =>
    rw [absents]
    exact absents_le_of_mem h
  | branch condition yes no? =>
    cases no? with
    | none =>
      obtain rfl := List.mem_singleton.mp h
      rw [absents]
      omega
    | some no =>
      rw [absents]
      rcases List.mem_cons.mp h with rfl | h
      · omega
      · obtain rfl := List.mem_singleton.mp h
        omega
  | loop condition body =>
    obtain rfl := List.mem_singleton.mp h
    rw [absents]
    omega
  | expression | print | var | ret => cases h

/-- A statement that stands somewhere inside another, or is that other. -/
inductive Within (inner : Stmt) : Stmt → Prop
  | self : Within inner inner
  | part {part whole : Stmt} : part ∈ whole.parts → Within inner part → Within inner whole

theorem Within.absents_le {inner whole : Stmt} (h : inner.Within whole) :
    inner.absents ≤ whole.absents := by
  induction h with
  | self => exact Nat.le_refl _
  | part hmem _ ih => exact Nat.le_trans ih (absents_le_of_mem_parts hmem)

theorem absents_placeholder : placeholder.absents = 1 := rfl

end Stmt

/-! ## Errors that are noted -/

/-- Only errors that are not fatal were noted on the way from one parser to another. -/
def Parser.Notes (start stop : Parser) : Prop :=
  ∃ noted : Array ParseError, stop.diagnostics = start.diagnostics ++ noted ∧
    ∀ error ∈ noted, error.isFatal = false

namespace Parser.Notes

variable {start middle stop : Parser}

theorem of_eq (h : stop.diagnostics = start.diagnostics) : start.Notes stop :=
  ⟨#[], by rw [h, Array.append_empty], fun _ hmem => absurd hmem (Array.not_mem_empty _)⟩

theorem trans (first : start.Notes middle) (second : middle.Notes stop) : start.Notes stop := by
  obtain ⟨noted, hnoted, hmild⟩ := first
  obtain ⟨more, hmore, hmild'⟩ := second
  refine ⟨noted ++ more, by rw [hmore, hnoted, Array.append_assoc], fun error hmem => ?_⟩
  rcases Array.mem_append.mp hmem with hmem | hmem
  · exact hmild error hmem
  · exact hmild' error hmem

theorem report {error : ParseError} (h : error.isFatal = false) (parser : Parser) :
    parser.Notes (parser.report error) := by
  refine ⟨#[error], rfl, fun other hmem => ?_⟩
  rw [Array.mem_singleton.mp hmem]
  exact h

theorem size_le (h : start.Notes stop) : start.diagnostics.size ≤ stop.diagnostics.size := by
  obtain ⟨noted, hnoted, _⟩ := h
  rw [hnoted, Array.size_append]
  exact Nat.le_add_right _ _

end Parser.Notes

namespace Parse

variable {α β σ : Type} {credit : Nat} {debt debt' : α → Nat} {owed : β → Nat}

/-- Whatever a read does, it notes only errors that are not fatal. What it gives holds at most as
many absent literals as it has credit and errors are noted. -/
structure Accounts (credit : Nat) (debt : α → Nat) (read : Parse α) : Prop where
  notes : ∀ start : Parser, start.Notes (stateAfter read start)
  paid : ∀ ⦃start result stop⦄, read start = .ok result stop →
    start.diagnostics.size + debt result ≤ stop.diagnostics.size + credit

namespace Accounts

theorem of_ok {read : Parse α} (h : Accounts credit debt read) {start stop : Parser} {result : α}
    (hread : read start = .ok result stop) : start.Notes stop := by
  have hnotes := h.notes start
  rwa [stateAfter, hread] at hnotes

theorem of_error {read : Parse α} (h : Accounts credit debt read) {start stop : Parser}
    {error : ParseError} (hread : read start = .error error stop) : start.Notes stop := by
  have hnotes := h.notes start
  rwa [stateAfter, hread] at hnotes

/-! ## Reads one behind the other -/

theorem bind {read : Parse α} {next : α → Parse β} (h : Accounts credit debt read)
    (hnext : ∀ result, Accounts (debt result) owed (next result)) :
    Accounts credit owed (read >>= next) := by
  refine ⟨fun start => ?_, fun start result stop hresult => ?_⟩
  · cases hread : read start with
    | ok result middle =>
      rw [stateAfter, bind_of_ok hread]
      exact (h.of_ok hread).trans ((hnext result).notes middle)
    | error error middle =>
      rw [stateAfter, bind_of_error hread]
      exact h.of_error hread
  · obtain ⟨first, middle, hfirst, hsecond⟩ := ok_of_bind hresult
    have hpaid := h.paid hfirst
    have hpaid' := (hnext first).paid hsecond
    omega

theorem imp {read : Parse α} (h : Accounts credit debt read)
    (hle : ∀ result, debt' result ≤ debt result) : Accounts credit debt' read := by
  refine ⟨h.notes, fun start result stop hread => ?_⟩
  have hpaid := h.paid hread
  have hless := hle result
  omega

/-- What was read earlier is carried along. -/
theorem carry {read : Parse α} (h : Accounts 0 debt read) (credit : Nat) :
    Accounts credit (fun result => credit + debt result) read := by
  refine ⟨h.notes, fun start result stop hread => ?_⟩
  have hpaid := h.paid hread
  omega

theorem ite {read other : Parse α} {condition : Prop} [Decidable condition]
    (h : Accounts credit debt read) (hother : Accounts credit debt other) :
    Accounts credit debt (if condition then read else other) := by
  split
  · exact h
  · exact hother

end Accounts

/-- A read that leaves the errors alone. -/
theorem accounts_still {read : Parse α}
    (h : ∀ start, (stateAfter read start).diagnostics = start.diagnostics) (credit : Nat) :
    Accounts credit (fun _ => credit) read := by
  refine ⟨fun start => .of_eq (h start), fun start result stop hread => ?_⟩
  have hsame := h start
  rw [stateAfter, hread] at hsame
  exact Nat.le_of_eq (congrArg (fun noted => noted.size + credit) hsame.symm)

theorem accounts_pure {result : α} (h : debt result ≤ credit) :
    Accounts credit debt (pure result : Parse α) := by
  refine ⟨fun start => .of_eq rfl, ?_⟩
  rintro start _ _ ⟨⟩
  omega

theorem accounts_fail (cause : ParseCause) : Accounts credit debt (fail cause : Parse α) := by
  refine ⟨fun start => .of_eq rfl, ?_⟩
  rintro start _ _ ⟨⟩

theorem accounts_current (credit : Nat) : Accounts credit (fun _ => credit) current :=
  accounts_still (fun _ => rfl) credit

theorem accounts_rounds (credit : Nat) : Accounts credit (fun _ => credit) rounds :=
  accounts_still (fun _ => rfl) credit

theorem diagnostics_advanced (parser : Parser) :
    parser.advanced.diagnostics = parser.diagnostics := by
  unfold Parser.advanced
  split <;> rfl

theorem accounts_advance (credit : Nat) : Accounts credit (fun _ => credit) advance :=
  @accounts_still _ advance diagnostics_advanced credit

theorem accounts_acceptIf (wanted : TokenKind → Bool) (credit : Nat) :
    Accounts credit (fun _ => credit) (acceptIf wanted) := by
  refine accounts_still (fun start => ?_) credit
  unfold stateAfter acceptIf
  by_cases h : (!start.atEnd && wanted start.current.kind) = true
  · rw [if_pos h]
    exact diagnostics_advanced start
  · rw [if_neg h]

theorem accounts_accept (kind : TokenKind) (credit : Nat) :
    Accounts credit (fun _ => credit) (accept kind) := accounts_acceptIf _ credit

theorem accounts_expect (kind : TokenKind) (cause : ParseCause) (credit : Nat) :
    Accounts credit (fun _ => credit) (expect kind cause) := by
  refine (accounts_accept kind credit).bind fun token? => ?_
  cases token? with
  | some token => exact accounts_pure (Nat.le_refl _)
  | none => exact accounts_fail cause

theorem accounts_report {error : ParseError} (h : error.isFatal = false) (credit : Nat) :
    Accounts credit (fun _ => credit) (report error) := by
  refine ⟨fun start => .report h start, ?_⟩
  rintro start _ _ ⟨⟩
  have hle := (Parser.Notes.report h start).size_le
  omega

/-! ## Recovery -/

section Recovery

variable {read : Parse α} {substitute : α} {start stop : Parser}

theorem recovering_of_ok {result : α} (h : read start = .ok result stop) :
    recovering substitute read start = .ok result stop := by
  rw [recovering, h]

theorem recovering_of_fatal {error : ParseError} (h : read start = .error error stop)
    (hfatal : error.isFatal = true) : recovering substitute read start = .error error stop := by
  rw [recovering, h]
  exact if_pos hfatal

theorem recovering_of_mild {error : ParseError} (h : read start = .error error stop)
    (hmild : error.isFatal = false) : recovering substitute read start =
      .ok substitute { stop.report error with rest := skipTokens stop.rest } := by
  rw [recovering, h]
  exact if_neg (Bool.eq_false_iff.mp hmild)

end Recovery

namespace Accounts

theorem nested {read : Parse α} (h : Accounts credit debt read) :
    Accounts credit debt (nested read) := by
  refine ⟨fun start => ?_, fun start result stop hresult => ?_⟩
  · have hnotes := h.notes { start with depth := start.depth + 1 }
    unfold stateAfter at hnotes ⊢
    unfold Parse.nested
    generalize read { start with depth := start.depth + 1 } = outcome at hnotes
    cases outcome with
    | ok result stop => exact hnotes
    | error error stop => exact hnotes
  · unfold Parse.nested at hresult
    split at hresult
    · rename_i hread
      cases hresult
      have hpaid := h.paid hread
      exact hpaid
    · cases hresult

theorem nestedStatement {read : Parse α} (h : Accounts credit debt read) :
    Accounts credit debt (nestedStatement read) := by
  refine ⟨fun start => ?_, fun start result stop hresult => ?_⟩
  · have hnotes := h.notes { start with statementDepth := start.statementDepth + 1 }
    unfold stateAfter at hnotes ⊢
    unfold Parse.nestedStatement
    generalize read { start with statementDepth := start.statementDepth + 1 } = outcome at hnotes
    cases outcome with
    | ok result stop => exact hnotes
    | error error stop => exact hnotes
  · unfold Parse.nestedStatement at hresult
    split at hresult
    · rename_i hread
      cases hresult
      have hpaid := h.paid hread
      exact hpaid
    · cases hresult

/-- **A placeholder is paid for** by the error that is noted with it. -/
theorem recovering {read : Parse α} (h : Accounts 0 debt read) {substitute : α}
    (hsubstitute : debt substitute ≤ 1) : Accounts 0 debt (recovering substitute read) := by
  refine ⟨fun start => ?_, fun start result stop hresult => ?_⟩
  · cases hread : read start with
    | ok result stop =>
      rw [stateAfter, recovering_of_ok hread]
      exact h.of_ok hread
    | error error stop =>
      cases hfatal : error.isFatal with
      | true =>
        rw [stateAfter, recovering_of_fatal hread hfatal]
        exact h.of_error hread
      | false =>
        rw [stateAfter, recovering_of_mild hread hfatal]
        exact (h.of_error hread).trans (.report hfatal stop)
  · cases hread : read start with
    | ok given middle =>
      rw [recovering_of_ok hread] at hresult
      cases hresult
      exact h.paid hread
    | error error middle =>
      cases hfatal : error.isFatal with
      | true =>
        rw [recovering_of_fatal hread hfatal] at hresult
        cases hresult
      | false =>
        rw [recovering_of_mild hread hfatal] at hresult
        cases hresult
        have hle := (h.of_error hread).size_le
        have hone : (middle.report error).diagnostics.size = middle.diagnostics.size + 1 :=
          Array.size_push _
        show _ ≤ (middle.report error).diagnostics.size + 0
        omega

/-! ## Repetitions -/

theorem repeated {debt : σ → Nat} {turn : σ → Parse (Turn σ)}
    (h : ∀ state, Accounts (debt state) (fun last => debt last.state) (turn state)) (state : σ) :
    Accounts (debt state) debt (repeated turn state) := by
  have hrepeating (rounds : List Token) (state : σ) :
      Accounts (debt state) debt (repeating turn rounds state) := by
    induction rounds generalizing state with
    | nil => exact accounts_pure (Nat.le_refl _)
    | cons round rounds ih =>
      refine (h state).bind fun last => ?_
      cases last with
      | again next => exact ih next
      | done result => exact accounts_pure (Nat.le_refl _)
  exact (accounts_rounds _).bind fun rounds => hrepeating rounds state

/-- What some things hold together, with one more. -/
theorem sum_push (debt : α → Nat) (done : Array α) (last : α) :
    ((done.push last).toList.map debt).sum = (done.toList.map debt).sum + debt last := by
  simp

theorem entries {entry : Parse α} (h : Accounts 0 debt entry) {tooMany : ParseCause}
    (htooMany : tooMany.isFatal = false) :
    Accounts 0 (fun all => (all.map debt).sum) (entries tooMany entry) := by
  have hturn (done : Array α) :
      Accounts (done.toList.map debt).sum (fun last => (last.state.toList.map debt).sum)
        (entryTurn tooMany entry done) := by
    generalize hcredit : (done.toList.map debt).sum = credit
    have hroom : Accounts credit (fun _ => credit) (checkRoom tooMany done) :=
      .ite ((accounts_current _).bind fun token => @accounts_report ⟨tooMany, token⟩ htooMany _)
        (accounts_pure (Nat.le_refl _))
    refine hroom.bind fun _ => (h.carry credit).bind fun last =>
      (accounts_accept .comma _).bind fun comma? => ?_
    have hpush := (sum_push debt done last).trans (congrArg (· + debt last) hcredit)
    cases comma? with
    | some comma => exact accounts_pure (Nat.le_of_eq hpush)
    | none => exact accounts_pure (Nat.le_of_eq hpush)
  have hsees : Accounts 0 (fun _ => 0) (sees .rightParen) :=
    (accounts_current 0).bind fun _ => accounts_pure (Nat.le_refl 0)
  rw [entries_eq]
  refine hsees.bind fun closed => .ite (accounts_pure (Nat.le_refl _)) ?_
  exact (Accounts.repeated hturn #[]).bind fun all => accounts_pure (Nat.le_refl _)

theorem declarations {declaration : Parse Stmt} (h : Accounts 0 Stmt.absents declaration)
    (ends : TokenKind → Prop) [DecidablePred ends] :
    Accounts 0 (fun body : Array Stmt => (body.toList.map Stmt.absents).sum)
      (Parse.repeated (declarationTurn ends declaration) #[]) := by
  refine @Accounts.repeated _ (fun body => (body.toList.map Stmt.absents).sum) _
    (fun done => ?_) #[]
  refine (accounts_current _).bind fun next => .ite (accounts_pure (Nat.le_refl _)) ?_
  refine (h.carry _).bind fun stmt => accounts_pure (Nat.le_of_eq ?_)
  exact sum_push Stmt.absents done stmt

end Accounts

/-! ## Expressions

The errors that are noted inside an expression come without a placeholder, so none of them has to
pay for an absent literal. This is had by the same count: what is paid for at every price is not
there. -/

/-- An expression that accounts for its absent literals at a price for each. -/
abbrev Charges (price : Nat) : Parse Expr → Prop := Accounts 0 fun expr => price * expr.absents

section Expressions

variable {price : Nat} {operand inner : Parse Expr}

theorem charges_climb {tightest : Parse Expr} (h : Charges price tightest) {some : List Level}
    (hsome : some ⊆ levels) : Charges price (climb tightest some) := by
  induction some with
  | nil => exact h
  | cons level tighter ih =>
    have htighter := ih fun other hother => hsome (.tail _ hother)
    have hjoin (left right : Expr) (operator : Token) :
        (level.join left operator right).absents = left.absents + right.absents := by
      rcases join_cases (hsome (.head _)) with ⟨hjoin, _⟩ | ⟨hjoin, _⟩ <;> rw [hjoin, Expr.absents]
    rw [climb, chain_eq]
    refine htighter.bind fun first =>
      @Accounts.repeated _ (fun left => price * left.absents) _ (fun left => ?_) first
    refine (accounts_acceptIf _ _).bind fun operator? => ?_
    cases operator? with
    | none => exact accounts_pure (Nat.le_refl _)
    | some operator =>
      refine (htighter.carry _).bind fun right => accounts_pure (Nat.le_of_eq ?_)
      rw [Turn.state, hjoin, Nat.mul_add]

theorem charges_primary (h : Charges price inner) : Charges price (primary inner) := by
  have hsimple (tree : Expr) (htree : tree.absents = 0) :
      Charges price (do let _ ← advance; return tree : Parse Expr) :=
    (accounts_advance 0).bind fun _ => accounts_pure (Nat.le_of_eq (by rw [htree, Nat.mul_zero]))
  refine (accounts_current 0).bind fun token => ?_
  split
  case h_3 =>
    split
    · exact hsimple _ rfl
    · exact accounts_fail _
  case h_8 =>
    exact (accounts_advance 0).bind fun _ => h.bind fun value =>
      (accounts_expect _ _ _).bind fun _ => accounts_pure (Nat.le_refl _)
  case h_9 => exact accounts_fail _
  all_goals exact hsimple _ rfl

theorem charges_call (h : Charges price inner) : Charges price (call inner) := by
  rw [call_eq]
  refine (charges_primary h).bind fun first =>
    @Accounts.repeated _ (fun callee => price * callee.absents) _ (fun callee => ?_) first
  refine (accounts_accept _ _).bind fun left? => ?_
  cases left? with
  | none => exact accounts_pure (Nat.le_refl _)
  | some left =>
    refine ((h.entries rfl).carry _).bind fun arguments =>
      (accounts_expect _ _ _).bind fun paren => accounts_pure (Nat.le_of_eq ?_)
    rw [Turn.state, Expr.absents, Expr.absentsAll_eq_sum, Nat.mul_add, List.sum_map_mul_left]

theorem charges_unary (hoperand : Charges price operand) (h : Charges price inner) :
    Charges price (unary operand inner) := by
  refine (accounts_acceptIf _ 0).bind fun operator? => ?_
  cases operator? with
  | none => exact charges_call h
  | some operator =>
    exact hoperand.bind fun expr => accounts_pure (Nat.le_of_eq (by rw [Expr.absents]))

theorem charges_assignment (hoperand : Charges price operand) (h : Charges price inner) :
    Charges price (assignment operand inner) := by
  refine (charges_climb (charges_unary hoperand h) (List.Subset.refl levels)).bind fun target =>
    (accounts_accept _ _).bind fun equals? => ?_
  cases equals? with
  | none => exact accounts_pure (Nat.le_refl _)
  | some equals =>
    refine (h.carry _).bind fun value => ?_
    unfold assignTo
    split
    · exact accounts_pure (by rw [Expr.absents]; exact Nat.le_add_left _ _)
    -- The value of an assignment that is no assignment is dropped.
    · exact (@accounts_report ⟨.invalidTarget, equals⟩ rfl _).bind fun _ =>
        accounts_pure (Nat.le_add_right _ _)

theorem charges_within (price levels : Nat) : Charges price (expressionWithin levels) ∧
    Charges price (operandWithin levels) := by
  induction levels with
  | zero => exact ⟨accounts_fail _, accounts_fail _⟩
  | succ levels ih =>
    exact ⟨(charges_assignment ih.2 ih.1).nested, (charges_unary ih.2 ih.1).nested⟩

theorem charges_expression (price : Nat) : Charges price expression :=
  ⟨fun _ => (charges_within price _).1.notes _,
    fun _ _ _ hread => (charges_within price _).1.paid hread⟩

/-- **Expressions hold no absent literal**, since one more than all errors would not pay for it. -/
theorem absents_of_expression : Gives (fun expr => expr.absents = 0) expression := by
  intro start expr stop hread
  have hpaid := (charges_expression (stop.diagnostics.size + 1)).paid hread
  rcases Nat.eq_zero_or_pos expr.absents with hzero | hpos
  · exact hzero
  · have hle := Nat.le_mul_of_pos_right (stop.diagnostics.size + 1) hpos
    omega

theorem accounts_expression : Accounts 0 Expr.absents expression :=
  (charges_expression 1).imp fun _ => Nat.le_of_eq (Nat.one_mul _).symm

end Expressions

/-! ## Statements -/

theorem accounts_optionalSemicolon (credit : Nat) :
    Accounts credit (fun _ => credit) optionalSemicolon :=
  (accounts_accept _ credit).bind fun _ => accounts_pure (Nat.le_refl _)

theorem accounts_returnForm (keyword : Token) :
    Accounts 0 Stmt.absents (returnForm keyword) :=
  (accounts_current 0).bind fun _ => .ite
    ((accounts_optionalSemicolon 0).bind fun _ =>
      accounts_pure (Nat.le_of_eq (by rw [Stmt.absents]; rfl)))
    (accounts_expression.bind fun _ => (accounts_optionalSemicolon _).bind fun _ =>
      accounts_pure (Nat.le_of_eq (by rw [Stmt.absents]; rfl)))

namespace Accounts

variable {function statement declaration : Parse Stmt}

theorem block (h : Accounts 0 Stmt.absents declaration) :
    Accounts 0 Stmt.absentsAll (block declaration) := by
  rw [block_eq]
  refine (h.declarations _).bind fun body => (accounts_expect _ _ _).bind fun _ =>
    accounts_pure (Nat.le_of_eq ?_)
  exact Stmt.absentsAll_eq_sum _

theorem branchForm (h : Accounts 0 Stmt.absents statement) :
    Accounts 0 Stmt.absents (branchForm statement) := by
  refine accounts_expression.bind fun condition => (accounts_expect _ _ _).bind fun _ =>
    (h.carry _).bind fun yes => (accounts_accept _ _).bind fun else? => ?_
  cases else? with
  | none => exact accounts_pure (Nat.le_of_eq (by rw [Stmt.absents]))
  | some keyword =>
    exact (h.carry _).bind fun no => accounts_pure (Nat.le_of_eq (by rw [Stmt.absents]))

theorem loopForm (h : Accounts 0 Stmt.absents statement) :
    Accounts 0 Stmt.absents (loopForm statement) :=
  accounts_expression.bind fun _ => (accounts_expect _ _ _).bind fun _ =>
    (h.carry _).bind fun _ => accounts_pure (Nat.le_of_eq (by rw [Stmt.absents]))

theorem statementForm (h : Accounts 0 Stmt.absents statement)
    (hdeclaration : Accounts 0 Stmt.absents declaration) :
    Accounts 0 Stmt.absents (statementForm statement declaration) := by
  refine (accounts_current 0).bind fun next => ?_
  split
  · exact (accounts_advance 0).bind accounts_returnForm
  · exact (accounts_advance 0).bind fun _ => accounts_expression.bind fun _ =>
      (accounts_optionalSemicolon _).bind fun _ =>
        accounts_pure (Nat.le_of_eq (by rw [Stmt.absents]))
  · exact (accounts_advance 0).bind fun _ => hdeclaration.block.bind fun _ =>
      accounts_pure (Nat.le_of_eq (by rw [Stmt.absents]))
  · exact (accounts_advance 0).bind fun _ => h.branchForm
  · exact (accounts_advance 0).bind fun _ => h.loopForm
  · exact accounts_expression.bind fun _ => (accounts_optionalSemicolon _).bind fun _ =>
      accounts_pure (Nat.le_of_eq (by rw [Stmt.absents]))

theorem functionForm (h : Accounts 0 Stmt.absents declaration) :
    Accounts 0 Stmt.absents (functionForm declaration) := by
  have hparams : Accounts 0 (fun _ => 0)
      (Parse.entries .tooManyParameters (expect .identifier .noParameterName)) :=
    ((accounts_expect _ _ 0).entries rfl).imp fun _ => Nat.zero_le _
  exact (accounts_expect _ _ 0).bind fun _ => (accounts_expect _ _ 0).bind fun _ =>
    hparams.bind fun _ =>
      (accounts_expect _ _ 0).bind fun _ => (accounts_expect _ _ 0).bind fun _ =>
        h.block.bind fun _ => accounts_pure (Nat.le_of_eq (by rw [Stmt.absents]))

theorem declarationForm (hfunction : Accounts 0 Stmt.absents function)
    (hstatement : Accounts 0 Stmt.absents statement) :
    Accounts 0 Stmt.absents (declarationForm function statement) := by
  refine Accounts.recovering ((accounts_accept _ 0).bind fun keyword? => ?_)
    (Nat.le_of_eq Stmt.absents_placeholder)
  cases keyword? with
  | some keyword => exact hfunction
  | none => exact hstatement

end Accounts

theorem accounts_statementWithin (levels : Nat) :
    Accounts 0 Stmt.absents (statementWithin levels) ∧
      Accounts 0 Stmt.absents (functionWithin levels) := by
  induction levels with
  | zero => exact ⟨accounts_fail _, accounts_fail _⟩
  | succ levels ih =>
    have hdeclaration := ih.2.declarationForm ih.1
    exact ⟨(ih.1.statementForm hdeclaration).nestedStatement,
      hdeclaration.functionForm.nestedStatement⟩

theorem accounts_declaration : Accounts 0 Stmt.absents declaration :=
  .declarationForm
    ⟨fun _ => (accounts_statementWithin _).2.notes _,
      fun _ _ _ hread => (accounts_statementWithin _).2.paid hread⟩
    ⟨fun _ => (accounts_statementWithin _).1.notes _,
      fun _ _ _ hread => (accounts_statementWithin _).1.paid hread⟩

/-- **Programs account for their absent literals.** -/
theorem accounts_program : Accounts 0 Stmt.absentsAll program := by
  rw [program_eq]
  refine (accounts_declaration.declarations _).bind fun body => accounts_pure (Nat.le_of_eq ?_)
  exact Stmt.absentsAll_eq_sum _

end Parse

end Scriptlet
