import Scriptlet.Proofs.Integer
import Scriptlet.Proofs.Writing.Basic

/-!
# What is written as an expression stands for it

The tokens of a written expression are a phrase of the grammar, in any place that needs at most the
rank of the expression, and in parentheses in any place at all.

An operand on the left of an operator may itself end in operands of the same level, and the grammar
then has one repetition where the tree has two nodes. So the claim about an expression is made
together with whatever may still follow it on its own level: further operators and operands, or
further argument lists. The induction is on the tree, and a node adds its own operator or argument
list to what follows its left child.

## Main definitions

* `PhraseAt`, `Tail` — the phrases for places that need a rank, and what may follow there
* `Stops` — the kinds of tokens that end a phrase
* `Writing.Continues`, `Writing.Fits` — a text is a phrase, with or without a tail

## Main results

* `Expr.Writable.continues` — a written expression is a phrase of its rank
* `Expr.Writable.fits` — and one in every place for a whole expression
-/

namespace Scriptlet

open Grammar

/-! ## Phrases by rank -/

/-- The operators that bind with a tightness. -/
def levelAt : Nat → Level
  | 1 => ⟨[.kwOr], .logical⟩
  | 2 => ⟨[.kwAnd], .logical⟩
  | 3 => ⟨[.equalEqual, .notEqual], .binary⟩
  | 4 => ⟨[.greater, .greaterEqual, .less, .lessEqual], .binary⟩
  | 5 => ⟨[.plus, .minus], .binary⟩
  | _ => ⟨[.star, .slash], .binary⟩

/-- The phrases that stand where a rank is needed. -/
def PhraseAt (levels : Nat) : Nat → Phrase Expr
  | 0 => Assignment (OperandWithin levels) (ExpressionWithin levels)
  | 1 => Disjunction (Unary (OperandWithin levels) (ExpressionWithin levels))
  | 2 => Conjunction (Unary (OperandWithin levels) (ExpressionWithin levels))
  | 3 => Equality (Unary (OperandWithin levels) (ExpressionWithin levels))
  | 4 => Comparison (Unary (OperandWithin levels) (ExpressionWithin levels))
  | 5 => Term (Unary (OperandWithin levels) (ExpressionWithin levels))
  | 6 => Factor (Unary (OperandWithin levels) (ExpressionWithin levels))
  | 7 => Unary (OperandWithin levels) (ExpressionWithin levels)
  | 8 => Call (ExpressionWithin levels)
  | _ => Primary (ExpressionWithin levels)

theorem phraseAt_eq_chain {rank : Nat} (hpos : 1 ≤ rank) (hle : rank ≤ 6) (levels : Nat) :
    PhraseAt levels rank = Chain (levelAt rank) (PhraseAt levels (rank + 1)) := by
  obtain rfl | rfl | rfl | rfl | rfl | rfl : rank = 1 ∨ rank = 2 ∨ rank = 3 ∨ rank = 4 ∨
    rank = 5 ∨ rank = 6 := by omega
  all_goals rfl

theorem mem_levelAt_iff {rank : Nat} (hpos : 1 ≤ rank) (hle : rank ≤ 6) (kind : TokenKind) :
    kind ∈ (levelAt rank).operators ↔ kind.tightness = rank := by
  obtain rfl | rfl | rfl | rfl | rfl | rfl : rank = 1 ∨ rank = 2 ∨ rank = 3 ∨ rank = 4 ∨
    rank = 5 ∨ rank = 6 := by omega
  all_goals cases kind <;> decide

/-- What may follow an expression in a place that needs a rank, up to the end of the phrase there:
operators and operands, or argument lists. -/
inductive Tail (levels : Nat) : Nat → Expr → Phrase Expr
  | assignment {tree : Expr} {next : TokenKind} (stop : next ≠ .assign) :
      Tail levels 0 tree [] next tree []
  | operators {rank : Nat} {left tree : Expr} {tokens : List Token} {next : TokenKind}
      {openings : List Opening} (hpos : 1 ≤ rank) (hle : rank ≤ 6)
      (others : Operators (levelAt rank) (PhraseAt levels (rank + 1)) left tokens next tree
        openings) :
      Tail levels rank left tokens next tree openings
  | operand {tree : Expr} {next : TokenKind} : Tail levels 7 tree [] next tree []
  | arguments {callee tree : Expr} {tokens : List Token} {next : TokenKind}
      {openings : List Opening}
      (others : Arguments (ExpressionWithin levels) callee tokens next tree openings) :
      Tail levels 8 callee tokens next tree openings
  | primary {tree : Expr} {next : TokenKind} : Tail levels 9 tree [] next tree []

/-- A phrase of the next higher rank and a tail are a phrase. -/
theorem Tail.phraseAt {levels rank : Nat} {left tree : Expr} {tokens rest : List Token}
    {next : TokenKind} {openings later : List Opening} (h : Tail levels rank left rest next tree later)
    (hle : rank ≤ 8) (first : PhraseAt levels (rank + 1) tokens (kindAhead rest next) left openings) :
    PhraseAt levels rank (tokens ++ rest) next tree (openings ++ later) := by
  cases h with
  | assignment stop =>
    rw [List.append_nil, List.append_nil]
    exact .plain first stop
  | operators hpos hle others =>
    rw [phraseAt_eq_chain hpos hle]
    exact .intro first others
  | operand =>
    rw [List.append_nil, List.append_nil]
    exact .call first
  | arguments others => exact .intro first others
  | primary => omega

/-! ## Where a phrase ends -/

/-- Whether a phrase in a place that needs a rank ends in front of a token of a kind. -/
structure Stops (rank : Nat) (next : TokenKind) : Prop where
  /-- No value is assigned. -/
  assign : rank = 0 → next ≠ .assign
  /-- No operator follows that binds tightly enough. -/
  operator : next.tightness < max rank 1
  /-- No arguments follow. -/
  arguments : rank ≤ 8 → next ≠ .leftParen

instance (rank : Nat) (next : TokenKind) : Decidable (Stops rank next) :=
  decidable_of_iff ((rank = 0 → next ≠ .assign) ∧ next.tightness < max rank 1 ∧
      (rank ≤ 8 → next ≠ .leftParen))
    ⟨fun h => ⟨h.1, h.2.1, h.2.2⟩, fun h => ⟨h.assign, h.operator, h.arguments⟩⟩

theorem Stops.succ {rank : Nat} {next : TokenKind} (h : Stops rank next) : Stops (rank + 1) next := by
  obtain ⟨_, hoperator, harguments⟩ := h
  exact ⟨fun hzero => absurd hzero (by omega), by omega, fun hle => harguments (by omega)⟩

theorem Stops.zero {next : TokenKind} (h : Stops 1 next) (hassign : next ≠ .assign) :
    Stops 0 next := ⟨fun _ => hassign, h.operator, fun _ => h.arguments (by decide)⟩

theorem tightness_le (kind : TokenKind) : kind.tightness ≤ 6 := by
  cases kind <;> decide

theorem Stops.tail {rank : Nat} {next : TokenKind} (h : Stops rank next) (hle : rank ≤ 9)
    (levels : Nat) (tree : Expr) : Tail levels rank tree [] next tree [] := by
  obtain rfl | hrank | rfl | rfl | rfl : rank = 0 ∨ (1 ≤ rank ∧ rank ≤ 6) ∨ rank = 7 ∨ rank = 8 ∨
    rank = 9 := by omega
  · exact .assignment (h.assign rfl)
  · refine .operators hrank.1 hrank.2 (.stop ?_)
    rw [mem_levelAt_iff hrank.1 hrank.2]
    have hoperator := h.operator
    omega
  · exact .operand
  · exact .arguments (.stop (h.arguments (Nat.le_refl 8)))
  · exact .primary

/-! ## Texts that are phrases -/

namespace Writing

/-- The text is a phrase for the tree in a place that needs the rank, together with any tail that
may follow it there. -/
def Continues (writing : Writing) (tree : Expr) (rank : Nat) : Prop :=
  ∀ ⦃tokens⦄, writing.Spelled tokens → ∀ ⦃levels⦄, writing.levels.expression ≤ levels →
    ∀ ⦃rest next whole later⦄, Tail levels rank tree rest next whole later →
      Stops (rank + 1) (kindAhead rest next) →
        ∃ openings, PhraseAt levels rank (tokens ++ rest) next whole (openings ++ later) ∧
          writing.levels.Measure openings

/-- The text is a phrase for the tree in a place that needs the rank. -/
def Fits (writing : Writing) (tree : Expr) (rank : Nat) : Prop :=
  ∀ ⦃tokens⦄, writing.Spelled tokens → ∀ ⦃levels⦄, writing.levels.expression ≤ levels →
    ∀ ⦃next⦄, Stops rank next →
      ∃ openings, PhraseAt levels rank tokens next tree openings ∧
        writing.levels.Measure openings

variable {writing : Writing} {tree : Expr} {rank : Nat}

theorem Continues.fits (h : writing.Continues tree rank) (hrank : rank ≤ 9) :
    writing.Fits tree rank := by
  intro tokens hspelled levels hlevels next hstops
  obtain ⟨openings, hphrase, hmeasure⟩ :=
    h hspelled hlevels (hstops.tail hrank levels tree) hstops.succ
  rw [List.append_nil, List.append_nil] at hphrase
  exact ⟨openings, hphrase, hmeasure⟩

theorem Fits.continues (h : writing.Fits tree (rank + 1)) (hrank : rank ≤ 8) :
    writing.Continues tree rank := by
  intro tokens hspelled levels hlevels rest next whole later htail hstops
  obtain ⟨openings, hphrase, hmeasure⟩ := h hspelled hlevels hstops
  exact ⟨openings, htail.phraseAt hrank hphrase, hmeasure⟩

/-- A phrase that binds tightly can stand where less is needed. -/
theorem Fits.lower (h : writing.Fits tree rank) (hrank : rank ≤ 9) {needed : Nat}
    (hneeded : needed ≤ rank) : writing.Fits tree needed := by
  induction rank with
  | zero => rwa [Nat.le_zero.mp hneeded]
  | succ rank ih =>
    obtain rfl | hlt : needed = rank + 1 ∨ needed ≤ rank := by omega
    · exact h
    · exact ih ((h.continues (by omega)).fits (by omega)) (by omega) hlt

theorem Continues.lower (h : writing.Continues tree rank) (hrank : rank ≤ 9) {needed : Nat}
    (hneeded : needed ≤ rank) : writing.Continues tree needed := by
  obtain rfl | hlt : needed = rank ∨ needed + 1 ≤ rank := by omega
  · exact h
  · exact ((h.fits hrank).lower hrank hlt).continues (by omega)

/-- A whole expression, for which a level is opened. -/
theorem Fits.entered (h : writing.Fits tree 0) {tokens : List Token}
    (hspelled : writing.Spelled tokens) {levels : Nat}
    (hlevels : (writing.levels.more .expression).expression ≤ levels) {next : TokenKind}
    (hstops : Stops 0 next) :
    ∃ openings, ExpressionWithin levels tokens next tree openings ∧
      (writing.levels.more .expression).Measure openings := by
  obtain ⟨levels, rfl⟩ : ∃ less, levels = less + 1 :=
    Nat.exists_eq_succ_of_ne_zero (Nat.ne_of_gt (Nat.lt_of_lt_of_le (Nat.succ_pos _) hlevels))
  obtain ⟨openings, hphrase, hmeasure⟩ := h hspelled (Nat.le_of_succ_le_succ hlevels) hstops
  obtain ⟨token, rest, rfl, _⟩ := Assignment.starts hphrase
  exact ⟨_, .intro hphrase, hmeasure.deeper .expression token⟩

/-- In parentheses an expression can stand everywhere. -/
theorem Fits.parenthesised (h : writing.Fits tree 0) : writing.parenthesised.Fits tree 9 := by
  intro tokens hspelled levels hlevels next _
  rw [levels_parenthesised] at hlevels ⊢
  obtain ⟨before, _, rfl, hbefore, hright⟩ := hspelled.append
  obtain ⟨_, inside, rfl, hleft, hinside⟩ := hbefore.append
  obtain ⟨left, rfl, isLeft⟩ := hleft.mark
  obtain ⟨right, rfl, isRight⟩ := hright.mark
  have hstops : Stops 0 .rightParen := by decide
  obtain ⟨openings, hphrase, hmeasure⟩ := h.entered hinside.deeper hlevels hstops
  exact ⟨openings, .group isLeft hphrase isRight, hmeasure⟩

/-- An expression stands where parentheses were put around it as needed. -/
theorem Continues.placed (h : writing.Continues tree rank) (hrank : rank ≤ 9) {needed : Nat}
    (hneeded : needed ≤ 8) : (writing.placed rank needed).Continues tree needed := by
  unfold Writing.placed
  split
  · have hfits : writing.Fits tree 0 := (h.lower hrank (Nat.zero_le rank)).fits (by decide)
    exact (hfits.parenthesised.lower (by decide) (by omega)).continues hneeded
  · exact h.lower hrank (by omega)

/-! ## Nodes -/

theorem continues_literal {value : Literal} (h : value ≠ .absent) :
    value.writing.Continues (.literal value) 9 := by
  intro tokens hspelled levels _ rest next whole later htail _
  cases htail with
  | operators _ hle _ => omega
  | primary =>
    have hwritten : ∃ token, tokens = [token] ∧ token.literal? = some value ∧
        value.writing.levels = ⟨0, 0⟩ := by
      cases value with
      | integer n =>
        obtain ⟨token, rfl, hkind, hlexeme⟩ := Spelled.piece hspelled
        refine ⟨token, rfl, ?_, rfl⟩
        simp [Token.literal?, hkind, hlexeme, Integer.read?_text]
      | string s =>
        obtain ⟨token, rfl, hkind, hlexeme⟩ := Spelled.piece hspelled
        exact ⟨token, rfl, by simp [Token.literal?, hkind, hlexeme], rfl⟩
      | boolean b =>
        cases b <;>
        · obtain ⟨token, rfl, hkind⟩ := Spelled.mark hspelled
          exact ⟨token, rfl, by simp [Token.literal?, hkind], rfl⟩
      | absent => exact absurd rfl h
    obtain ⟨token, rfl, hliteral, hlevels⟩ := hwritten
    exact ⟨[], .literal hliteral, hlevels ▸ Limits.measure_nil⟩

theorem continues_var {name : Token} (h : name.kind.IsName) :
    (held name).Continues (.var name) 9 := by
  intro tokens hspelled levels _ rest next whole later htail _
  obtain rfl := hspelled.held
  cases htail with
  | operators _ hle _ => omega
  | primary => exact ⟨[], .name h, Limits.measure_nil⟩

theorem continues_assign {name : Token} {value : Expr} (h : name.kind.IsName)
    (hvalue : writing.Fits value 0) :
    (held name ++ mark .assign ++ writing.deeper .expression).Continues (.assign name value) 0 := by
  intro tokens hspelled levels hlevels rest next whole later htail hstops
  obtain ⟨before, inside, rfl, hbefore, hinside⟩ := hspelled.append
  obtain ⟨_, _, rfl, hname, hequals⟩ := hbefore.append
  obtain ⟨equals, rfl, isEquals⟩ := hequals.mark
  cases htail with
  | operators hpos _ _ => omega
  | assignment stop =>
    have hassign : Stops 1 .assign := by decide
    have hfits := ((continues_var h).fits (by decide)).lower (by decide) (by decide : 1 ≤ 9)
    obtain ⟨openings, htarget, hmeasure⟩ := hfits hname (Nat.zero_le levels) hassign
    have hnext : Stops 0 next := hstops.zero stop
    simp only [levels_append, levels_deeper, levels_held, levels_mark, Limits.zero_max] at hlevels ⊢
    obtain ⟨later, hphrase, hlater⟩ := hvalue.entered hinside.deeper hlevels hnext
    refine ⟨openings ++ later, ?_, ?_⟩
    · rw [List.append_nil, List.append_nil, List.append_assoc, List.singleton_append]
      exact .assign htarget isEquals hphrase
    · have happend := hmeasure.append hlater
      rwa [levels_held, Limits.zero_max] at happend

theorem continues_unary {operator : Token} {operand : Expr}
    (h : operator.kind = .kwNot ∨ operator.kind = .minus) (hoperand : writing.Fits operand 7) :
    (held operator ++ writing.deeper .expression).Continues (.unary operator operand) 7 := by
  intro tokens hspelled levels hlevels rest next whole later htail hstops
  obtain ⟨_, inside, rfl, hoperator, hinside⟩ := hspelled.append
  obtain rfl := hoperator.held
  cases htail with
  | operators _ hle _ => omega
  | operand =>
    simp only [levels_append, levels_deeper, levels_held, Limits.zero_max] at hlevels ⊢
    obtain ⟨levels, rfl⟩ : ∃ less, levels = less + 1 :=
      Nat.exists_eq_succ_of_ne_zero (Nat.ne_of_gt (Nat.lt_of_lt_of_le (Nat.succ_pos _) hlevels))
    have hnext : Stops 7 next :=
      ⟨nofun, Nat.lt_succ_of_le (tightness_le next), fun _ => hstops.arguments (by decide)⟩
    obtain ⟨openings, hphrase, hmeasure⟩ :=
      hoperand hinside.deeper (Nat.le_of_succ_le_succ hlevels) hnext
    obtain ⟨token, rest, rfl, _⟩ := Unary.starts hphrase
    refine ⟨_, ?_, hmeasure.deeper .expression token⟩
    rw [List.append_nil, List.append_nil]
    exact .operator h (.intro hphrase)

/-- The operator of a node, and its operand on the right, go before what follows the node. -/
theorem continues_operator {left right : Expr} {operator : Token} {first second : Writing}
    (hpos : 1 ≤ rank) (hle : rank ≤ 6) (hoperator : operator.kind.tightness = rank)
    (hleft : first.Continues left rank) (hright : second.Fits right (rank + 1)) :
    (first ++ held operator ++ second).Continues ((levelAt rank).join left operator right)
      rank := by
  intro tokens hspelled levels hlevels rest next whole later htail hstops
  obtain ⟨before, inside, rfl, hbefore, hinside⟩ := hspelled.append
  obtain ⟨start, _, rfl, hstart, hheld⟩ := hbefore.append
  obtain rfl := hheld.held
  simp only [levels_append, levels_held, Limits.max_zero] at hlevels ⊢
  obtain ⟨hfirst, hsecond⟩ := Nat.max_le.mp hlevels
  obtain ⟨openings, hphrase, hmeasure⟩ := hright hinside hsecond hstops
  have hnode : Operators (levelAt rank) (PhraseAt levels (rank + 1)) left
      (operator :: (inside ++ rest)) next whole (openings ++ later) := by
    refine .step ((mem_levelAt_iff hpos hle _).mpr hoperator) hphrase ?_
    cases htail with
    | operators _ _ others => exact others
    | _ => omega
  have hstop : Stops (rank + 1) operator.kind := by
    refine ⟨nofun, by omega, fun _ hparen => ?_⟩
    rw [hparen] at hoperator
    exact absurd hoperator (by simp [TokenKind.tightness]; omega)
  obtain ⟨added, hall, hadded⟩ := hleft hstart hfirst (.operators hpos hle hnode) hstop
  refine ⟨added ++ openings, ?_, hadded.append hmeasure⟩
  simpa using hall

/-! ## Lists -/

section Lists

variable {α : Type} {phrase : Phrase α} {levels : Nat}

/-- The text is a phrase for the tree in a list with commas. -/
def Enters (phrase : Phrase α) (levels : Nat) (writing : Writing) (tree : α) : Prop :=
  ∀ ⦃tokens⦄, writing.Spelled tokens → writing.levels.expression ≤ levels →
    ∀ ⦃next⦄, next = .comma ∨ next = .rightParen →
      ∃ openings, phrase tokens next tree openings ∧ writing.levels.Measure openings

theorem separated_of_enters {writings : List Writing} {trees : List α}
    (h : List.Forall₂ (Enters phrase levels) writings trees) (hne : writings ≠ [])
    {tokens : List Token} (hspelled : (separated writings).Spelled tokens)
    (hlevels : (separated writings).levels.expression ≤ levels) :
    ∃ openings, Separated phrase tokens .rightParen trees openings ∧
      (separated writings).levels.Measure openings := by
  induction h generalizing tokens with
  | nil => exact absurd rfl hne
  | @cons writing tree writings trees hfirst hothers ih =>
    cases writings with
    | nil =>
      cases hothers
      obtain ⟨openings, hphrase, hmeasure⟩ := hfirst hspelled hlevels (.inr rfl)
      exact ⟨openings, .last hphrase (by decide), hmeasure⟩
    | cons second writings =>
      obtain ⟨before, later, rfl, hbefore, hlater⟩ := hspelled.append
      obtain ⟨inside, _, rfl, hinside, hmark⟩ := hbefore.append
      obtain ⟨comma, rfl, isComma⟩ := hmark.mark
      simp only [separated, levels_append, levels_mark, Limits.max_zero] at hlevels ⊢
      obtain ⟨hlevels, hlaterLevels⟩ := Nat.max_le.mp hlevels
      obtain ⟨openings, hphrase, hmeasure⟩ := hfirst hinside hlevels (.inl rfl)
      obtain ⟨added, hseparated, hadded⟩ := ih nofun hlater hlaterLevels
      refine ⟨openings ++ added, ?_, hmeasure.append hadded⟩
      rw [List.append_assoc, List.singleton_append]
      exact .more hphrase isComma hseparated

theorem entries_of_enters {writings : List Writing} {trees : List α}
    (h : List.Forall₂ (Enters phrase levels) writings trees) (hcount : trees.length ≤ 255)
    {tokens : List Token} (hspelled : (separated writings).Spelled tokens)
    (hlevels : (separated writings).levels.expression ≤ levels) :
    ∃ openings, Entries phrase tokens .rightParen trees openings ∧
      (separated writings).levels.Measure openings := by
  cases h with
  | nil =>
    cases hspelled
    exact ⟨[], .none, Limits.measure_nil⟩
  | cons hfirst hothers =>
    obtain ⟨openings, hseparated, hmeasure⟩ :=
      separated_of_enters (.cons hfirst hothers) nofun hspelled hlevels
    exact ⟨openings, .some hseparated hcount, hmeasure⟩

end Lists

theorem enters_arguments {arguments : List Expr}
    (h : ∀ argument ∈ arguments, argument.writing.Fits argument 0) (levels : Nat) :
    List.Forall₂ (Enters (ExpressionWithin levels) levels) (Expr.writings arguments) arguments := by
  induction arguments with
  | nil => exact .nil
  | cons argument arguments ih =>
    obtain ⟨hfirst, hothers⟩ := List.forall_mem_cons.mp h
    refine .cons ?_ (ih hothers)
    intro tokens hspelled hlevels next hnext
    refine hfirst.entered hspelled.deeper hlevels ?_
    obtain rfl | rfl := hnext <;> decide

/-- The argument list of a node goes before what follows the node. -/
theorem continues_call {callee : Expr} {paren : Token} {arguments : List Expr}
    (hcallee : writing.Continues callee 8) (isRight : paren.kind = .rightParen)
    (harguments : ∀ argument ∈ arguments, argument.writing.Fits argument 0)
    (hcount : arguments.length ≤ 255) :
    (writing ++ mark .leftParen ++ separated (Expr.writings arguments) ++ held paren).Continues
      (.call callee paren arguments) 8 := by
  intro tokens hspelled levels hlevels rest next whole later htail _
  obtain ⟨before, _, rfl, hbefore, hparen⟩ := hspelled.append
  obtain ⟨start, inside, rfl, hstart, hinside⟩ := hbefore.append
  obtain ⟨first, _, rfl, hfirst, hmark⟩ := hstart.append
  obtain rfl := hparen.held
  obtain ⟨left, rfl, isLeft⟩ := hmark.mark
  simp only [levels_append, levels_mark, levels_held, Limits.max_zero] at hlevels ⊢
  obtain ⟨hcalleeLevels, hinsideLevels⟩ := Nat.max_le.mp hlevels
  obtain ⟨openings, hentries, hmeasure⟩ :=
    entries_of_enters (enters_arguments harguments levels) hcount hinside hinsideLevels
  have hnode : Arguments (ExpressionWithin levels) callee (left :: (inside ++ paren :: rest)) next
      whole (openings ++ later) := by
    cases htail with
    | operators _ hle _ => omega
    | arguments others => exact .step isLeft hentries isRight others
  have hstop : Stops 9 left.kind := by
    rw [isLeft]
    decide
  obtain ⟨added, hall, hadded⟩ := hcallee hfirst hcalleeLevels (.arguments hnode) hstop
  refine ⟨added ++ openings, ?_, hadded.append hmeasure⟩
  simpa using hall

end Writing

/-! ## Trees -/

namespace Expr

theorem rank_le (tree : Expr) : tree.rank ≤ 9 := by
  cases tree with
  | binary left operator right => exact Nat.le_trans (tightness_le operator.kind) (by decide)
  | logical left operator right => exact Nat.le_trans (tightness_le operator.kind) (by decide)
  | _ => simp [rank]

theorem binary_eq_join {kind : TokenKind} (h : kind ∈ [TokenKind.equalEqual, .notEqual, .less,
      .lessEqual, .greater, .greaterEqual, .plus, .minus, .star, .slash]) :
    1 ≤ kind.tightness ∧ (levelAt kind.tightness).join = .binary := by
  cases kind <;> simp [TokenKind.tightness, levelAt] at h ⊢

theorem logical_eq_join {kind : TokenKind} (h : kind ∈ [TokenKind.kwAnd, .kwOr]) :
    1 ≤ kind.tightness ∧ (levelAt kind.tightness).join = .logical := by
  cases kind <;> simp [TokenKind.tightness, levelAt] at h ⊢

/-- An operator between two expressions, with parentheses around them as needed. -/
theorem continues_node {left right : Expr} {operator : Token} (hpos : 1 ≤ operator.kind.tightness)
    (hleft : left.writing.Continues left left.rank)
    (hright : right.writing.Continues right right.rank) :
    (left.writing.placed left.rank operator.kind.tightness ++ .held operator ++
        right.writing.placed right.rank (operator.kind.tightness + 1)).Continues
      ((levelAt operator.kind.tightness).join left operator right) operator.kind.tightness := by
  have hle := tightness_le operator.kind
  have hfirst := hleft.placed (rank_le left) (by omega : operator.kind.tightness ≤ 8)
  have hsecond := hright.placed (rank_le right) (by omega : operator.kind.tightness + 1 ≤ 8)
  exact Writing.continues_operator hpos hle rfl hfirst (hsecond.fits (by omega))

/-- **A written expression is a phrase of its rank.** -/
theorem Writable.continues {tree : Expr} (h : tree.Writable) :
    tree.writing.Continues tree tree.rank := by
  induction h with
  | @binary left right operator isOperator hleft hright ihleft ihright =>
    obtain ⟨hpos, hjoin⟩ := binary_eq_join isOperator
    have hnode := continues_node hpos ihleft ihright
    rwa [hjoin] at hnode
  | @logical left right operator isOperator hleft hright ihleft ihright =>
    obtain ⟨hpos, hjoin⟩ := logical_eq_join isOperator
    have hnode := continues_node hpos ihleft ihright
    rwa [hjoin] at hnode
  | @unary operator operand isOperator hoperand ih =>
    exact Writing.continues_unary (by simpa using isOperator)
      ((ih.placed (rank_le operand) (by decide)).fits (by decide))
  | literal present => exact Writing.continues_literal present
  | var isName => exact Writing.continues_var (by simpa [TokenKind.IsName] using isName)
  | @assign name value isName hvalue ih =>
    exact Writing.continues_assign (by simpa [TokenKind.IsName] using isName)
      ((ih.lower (rank_le value) (Nat.zero_le _)).fits (by decide))
  | @call callee paren arguments hcallee isRight harguments count ih iharguments =>
    refine Writing.continues_call (ih.placed (rank_le callee) (by decide)) isRight ?_ count
    intro argument hargument
    exact ((iharguments argument hargument).lower (rank_le argument) (Nat.zero_le _)).fits
      (by decide)

theorem Writable.fits {tree : Expr} (h : tree.Writable) : tree.writing.Fits tree 0 :=
  (h.continues.lower (rank_le tree) (Nat.zero_le _)).fits (by decide)

end Expr

end Scriptlet
