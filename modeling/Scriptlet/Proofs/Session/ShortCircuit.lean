import Scriptlet.Proofs.Parser.Complete.Statement
import Scriptlet.Proofs.Parser.Nesting
import Scriptlet.Proofs.Session.Replay

/-!
# Chains of `or` and of `and`

A chain `e₁ or … or eₙ` is a tree that leans to the left: each `or` joins all that stands before it
with one more operand. What the chain means can still be said without the tree. The operands are
evaluated one after the other, up to the first that settles the matter or stops with a fault. An
operand in front of the last one settles a chain of `or` if a condition with its value holds, and
the chain is then worth `true`; it settles a chain of `and` if the condition does not hold, and the
chain is worth `false`. A chain that nothing settles is worth what its last operand is worth.

The reason is that the value with which an inner chain settles the matter settles it again at every
`or` around.

## Main definitions

* `Connective` — `or` and `and`
* `Connective.Written` — a chain as tokens, with its operands
* `Connective.tree` — the tree of a chain
* `Action.Comes` — what runs come to if they have enough steps
* `Connective.Flat` — what operands come to, one after the other

## Main results

* `Action.eval_of_le` — steps that are not needed make no difference
* `Connective.Written.chain` — the tree of a chain is the one that is read
* `Connective.eval_tree`, `Connective.comes_tree_iff` — what it means
* `chains_flat` — chains as they are read and evaluated
-/

namespace Scriptlet

open Scriptlet.Action

/-! ## More steps -/

/-- A run next to one with more steps. -/
def patience : Replay Unit := .sameStores (· = ·) (· = .exhausted)

theorem patience_lawful : patience.Lawful :=
  Replay.sameStores_lawful (fun h => Nat.le_of_eq h) fun _ h => .inl h

theorem eq_of_patience {session session' : Session} (h : patience.Sessions () session session')
    (hscope : session'.scope = session.scope) : session' = session := by
  have heq := h.eq hscope
  have hstore : session'.store = session.store := h.stores
  have hlimit : session.options.maxCallDepth = session'.options.maxCallDepth := h.limits
  rw [hstore, ← hlimit] at heq
  exact heq

/-- **Steps that are not needed make no difference.** -/
theorem Action.eval_of_le {steps more : Nat} (hle : steps ≤ more) {expr : Expr} {session : Session}
    (h : ∀ after, eval steps expr session ≠ .error .exhausted after) :
    eval more expr session = eval steps expr session := by
  have halike := (patience_lawful.likeness.steps (.inr ⟨hle, rfl⟩)).1
  have hsessions : patience.Sessions () session session :=
    ⟨rfl, rfl, trivial, rfl, rfl, rfl, rfl, rfl, rfl⟩
  have houtcome := @halike () expr expr rfl session session hsessions fun _ => ⟨rfl, trivial⟩
  generalize eval steps expr session = outcome, eval more expr session = outcome' at h houtcome
  cases houtcome with
  | ok hlater hvalue =>
    obtain ⟨rfl, -⟩ := hvalue
    rw [eq_of_patience hlater.sessions (hlater.scope'.trans hlater.scope.symm)]
  | error hlater hstops =>
    obtain rfl : _ = _ := hstops
    rw [eq_of_patience hlater.sessions (hlater.scope'.trans hlater.scope.symm)]
  | excused hstop => exact absurd (by rw [hstop]) (h _)

/-- What runs come to if they have enough steps. -/
def Action.Comes {α : Type} (run : Nat → Action α) (before : Session)
    (outcome : EStateM.Result Stop Session α) : Prop :=
  (∀ after, outcome ≠ .error .exhausted after) ∧ ∃ steps, run steps before = outcome

theorem Action.ok_ne_exhausted {α : Type} (result : α) (after last : Session) :
    (.ok result after : EStateM.Result Stop Session α) ≠ .error .exhausted last := by
  rintro ⟨⟩

theorem Action.comes_of_ok {α : Type} {run : Nat → Action α} {before after : Session} {steps : Nat}
    {result : α} (h : run steps before = .ok result after) :
    Comes run before (.ok result after) :=
  ⟨ok_ne_exhausted result after, steps, h⟩

/-! ## Chains -/

/-- The words that join operands which need not all be evaluated. -/
inductive Connective where
  | or
  | and
deriving DecidableEq

namespace Connective

/-- The kind of the word between two operands. -/
def kind : Connective → TokenKind
  | or => .kwOr
  | and => .kwAnd

/-- The operands with a word between them. -/
def level (c : Connective) : Level := ⟨[c.kind], .logical⟩

/-- What binds tighter than the word. -/
def Operand : Connective → Grammar.Phrase Expr → Grammar.Phrase Expr
  | or => Grammar.Conjunction
  | and => Grammar.Equality

/-- Chains of the word. -/
def Whole : Connective → Grammar.Phrase Expr → Grammar.Phrase Expr
  | or => Grammar.Disjunction
  | and => Grammar.Conjunction

/-- Whether an operand with this value settles the matter. -/
def settles : Connective → Value → Bool
  | or, value => value.isTruthy
  | and, value => !value.isTruthy

/-- What a chain is then worth. -/
def outcome : Connective → Bool
  | or => true
  | and => false

variable (c : Connective)

/-- What settles the matter once settles it at every word around. -/
theorem settles_outcome : c.settles (.boolean c.outcome) = true := by
  cases c <;> rfl

/-- Tokens of some operands with the word between them, in front of a token of some kind. -/
inductive Written (operand : Grammar.Phrase Expr) :
    List Expr → List Token → TokenKind → List Grammar.Opening → Prop
  | last {expr : Expr} {tokens : List Token} {next : TokenKind} {openings : List Grammar.Opening} :
      operand tokens next expr openings → next ≠ c.kind →
      Written operand [expr] tokens next openings
  | more {expr : Expr} {others : List Expr} {tokens rest : List Token} {word : Token}
      {next : TokenKind} {openings later : List Grammar.Opening} :
      operand tokens c.kind expr openings → word.kind = c.kind →
      Written operand others rest next later →
      Written operand (expr :: others) (tokens ++ word :: rest) next (openings ++ later)

/-- The tree of an operand and of those behind it, each with the word in front of it. -/
def tree (first : Expr) (others : List (Token × Expr)) : Expr :=
  others.foldl (fun left (word, right) => .logical left word right) first

variable {c}

/-- Behind an operand, a chain goes on with words and operands. -/
theorem Written.operators {operand : Grammar.Phrase Expr} {operands : List Expr}
    {tokens : List Token} {next : TokenKind} {openings : List Grammar.Opening}
    (h : c.Written operand operands tokens next openings) {word : Token}
    (hword : word.kind = c.kind) (left : Expr) :
    ∃ others : List (Token × Expr), others.map Prod.snd = operands ∧
      (∀ link ∈ others, link.1.kind = c.kind) ∧
      Grammar.Operators c.level operand left (word :: tokens) next (tree left others) openings := by
  have hmem {kind : TokenKind} : kind ∈ c.level.operators ↔ kind = c.kind := List.mem_singleton
  induction h generalizing word left with
  | @last expr tokens next openings hoperand hnext =>
    refine ⟨[(word, expr)], rfl, List.forall_mem_singleton.mpr hword, ?_⟩
    have hstop : Grammar.Operators c.level operand (.logical left word expr) [] next
        (.logical left word expr) [] := .stop fun hnext' => hnext (hmem.mp hnext')
    have hstep := Grammar.Operators.step (hmem.mpr hword) hoperand hstop
    rwa [List.append_nil, List.append_nil] at hstep
  | @more expr operands tokens rest second next openings later hoperand hsecond _ ih =>
    obtain ⟨others, hoperands, hkinds, hothers⟩ := ih hsecond (.logical left word expr)
    refine ⟨(word, expr) :: others, by rw [List.map_cons, hoperands],
      List.forall_mem_cons.mpr ⟨hword, hkinds⟩, ?_⟩
    refine .step (hmem.mpr hword) ?_ hothers
    change operand tokens second.kind expr openings
    rwa [hsecond]

/-- **A chain is read as its tree.** -/
theorem Written.chain {operand : Grammar.Phrase Expr} {operands : List Expr} {tokens : List Token}
    {next : TokenKind} {openings : List Grammar.Opening}
    (h : c.Written operand operands tokens next openings) :
    ∃ first others, first :: others.map Prod.snd = operands ∧
      (∀ link ∈ others, link.1.kind = c.kind) ∧
      Grammar.Chain c.level operand tokens next (tree first others) openings := by
  cases h with
  | @last expr _ _ _ hoperand hnext =>
    refine ⟨expr, [], rfl, fun _ hmem => absurd hmem List.not_mem_nil, ?_⟩
    exact .single hoperand fun hmem => hnext (List.mem_singleton.mp hmem)
  | @more expr operands tokens rest word next openings later hoperand hword hrest =>
    obtain ⟨others, hoperands, hkinds, hothers⟩ := hrest.operators hword expr
    refine ⟨expr, others, by rw [hoperands], hkinds, .intro ?_ hothers⟩
    change operand tokens word.kind expr openings
    rwa [hword]

/-! ## Evaluation -/

variable (c)

/-- Actions one after the other, up to the first in front of the last one that settles the
matter. -/
def flat : Action Value → List (Action Value) → Action Value
  | action, [] => action
  | action, next :: rest => do
    if c.settles (← action) then return .boolean c.outcome else flat next rest

theorem eval_logical {word : Token} (hword : word.kind = c.kind) (steps : Nat) (left right : Expr) :
    eval (steps + 1) (.logical left word right) = c.flat (eval steps left) [eval steps right] := by
  rw [eval, evalWith, flat]
  refine congrArg (eval steps left >>= ·) (funext fun value => ?_)
  by_cases htruthy : value.isTruthy = true <;>
    cases c <;> simp [hword, kind, settles, outcome, flat, htruthy]

/-- A chain inside a chain of the same word. -/
theorem flat_flat (action next : Action Value) (rest : List (Action Value)) :
    c.flat (c.flat action [next]) rest = c.flat action (next :: rest) := by
  cases rest with
  | nil => rfl
  | cons last rest =>
    simp only [flat, bind_assoc]
    refine congrArg (action >>= ·) (funext fun value => ?_)
    cases c.settles value with
    | true => simp [settles_outcome]
    | false => rfl

/-- The operands behind the first, each with the steps that are left for it: the further to the
right, the more. -/
def allot (steps : Nat) : List (Token × Expr) → List (Nat × Expr)
  | [] => []
  | (_, expr) :: others => (steps, expr) :: allot (steps + 1) others

theorem map_snd_allot (steps : Nat) (others : List (Token × Expr)) :
    (allot steps others).map Prod.snd = others.map Prod.snd := by
  induction others generalizing steps with
  | nil => rfl
  | cons link others ih => rw [allot, List.map_cons, List.map_cons, ih]

theorem le_of_mem_allot {steps : Nat} {others : List (Token × Expr)} {run : Nat × Expr}
    (h : run ∈ allot steps others) : steps ≤ run.1 := by
  induction others generalizing steps with
  | nil => cases h
  | cons link others ih =>
    rcases List.mem_cons.mp h with rfl | hmem
    · exact Nat.le_refl _
    · exact Nat.le_of_succ_le (ih hmem)

/-- **The tree of a chain is evaluated operand by operand.** -/
theorem eval_tree (steps : Nat) (first : Expr) {others : List (Token × Expr)}
    (h : ∀ link ∈ others, link.1.kind = c.kind) :
    eval (steps + others.length) (tree first others) =
      c.flat (eval steps first) ((allot steps others).map fun run => eval run.1 run.2) := by
  induction others generalizing steps first with
  | nil => rfl
  | cons link others ih =>
    obtain ⟨hword, hothers⟩ := List.forall_mem_cons.mp h
    have hsteps : steps + (link :: others).length = steps + 1 + others.length := by
      rw [List.length_cons]
      omega
    rw [hsteps]
    refine (ih (steps + 1) (.logical first link.1 link.2) hothers).trans ?_
    rw [c.eval_logical hword, flat_flat]
    rfl

/-- What operands come to, one after the other. -/
inductive Flat : List Expr → Session → EStateM.Result Stop Session Value → Prop
  /-- The last operand is the result as it is. -/
  | last {expr : Expr} {before : Session} {result : EStateM.Result Stop Session Value} :
      Comes (eval · expr) before result → Flat [expr] before result
  /-- An operand in front of it settles the matter, and nothing happens after that. -/
  | settled {expr next : Expr} {rest : List Expr} {before after : Session} {value : Value} :
      Comes (eval · expr) before (.ok value after) → c.settles value = true →
      Flat (expr :: next :: rest) before (.ok (.boolean c.outcome) after)
  /-- It does not, and the next operand is looked at. -/
  | passed {expr next : Expr} {rest : List Expr} {before middle : Session} {value : Value}
      {result : EStateM.Result Stop Session Value} :
      Comes (eval · expr) before (.ok value middle) → c.settles value = false →
      Flat (next :: rest) middle result → Flat (expr :: next :: rest) before result
  /-- It stops, and so does the chain. -/
  | failed {expr next : Expr} {rest : List Expr} {before after : Session} {stop : Stop} :
      Comes (eval · expr) before (.error stop after) →
      Flat (expr :: next :: rest) before (.error stop after)

variable {c}

theorem flat_of_ok {action next : Action Value} {rest : List (Action Value)}
    {before middle : Session} {value : Value} (h : action before = .ok value middle) :
    c.flat action (next :: rest) before =
      if c.settles value then .ok (.boolean c.outcome) middle else c.flat next rest middle := by
  rw [flat, bind_of_ok h]
  split <;> rfl

theorem flat_of_error {action next : Action Value} {rest : List (Action Value)}
    {before middle : Session} {stop : Stop} (h : action before = .error stop middle) :
    c.flat action (next :: rest) before = .error stop middle := by
  rw [flat, bind_of_error h]

/-- What operands come to with enough steps each. -/
theorem Flat.of_flat {runs : List (Nat × Expr)} {steps : Nat} {expr : Expr} {before : Session}
    {result : EStateM.Result Stop Session Value} (hends : ∀ after, result ≠ .error .exhausted after)
    (h : c.flat (eval steps expr) (runs.map fun run => eval run.1 run.2) before = result) :
    c.Flat (expr :: runs.map Prod.snd) before result := by
  induction runs generalizing steps expr before with
  | nil => exact .last ⟨hends, steps, h⟩
  | cons run runs ih =>
    rw [List.map_cons] at h ⊢
    cases heval : eval steps expr before with
    | ok value middle =>
      have hcomes : Comes (eval · expr) before (.ok value middle) := comes_of_ok heval
      rw [flat_of_ok heval] at h
      cases hsettles : c.settles value with
      | true =>
        rw [hsettles] at h
        exact h ▸ .settled hcomes hsettles
      | false =>
        rw [hsettles] at h
        exact .passed hcomes hsettles (ih h)
    | error stop middle =>
      rw [flat_of_error heval] at h
      subst h
      exact .failed ⟨hends, steps, heval⟩

/-- With enough steps each, operands come to what they come to. -/
theorem Flat.exists_steps {operands : List Expr} {before : Session}
    {result : EStateM.Result Stop Session Value} (h : c.Flat operands before result) :
    (∀ after, result ≠ .error .exhausted after) ∧ ∃ enough, ∀ steps expr, enough ≤ steps →
      ∀ runs : List (Nat × Expr), (∀ run ∈ runs, enough ≤ run.1) →
        expr :: runs.map Prod.snd = operands →
        c.flat (eval steps expr) (runs.map fun run => eval run.1 run.2) before = result := by
  have hmore {expr : Expr} {before : Session} {result : EStateM.Result Stop Session Value}
      {steps more : Nat} (hends : ∀ after, result ≠ .error .exhausted after)
      (heval : eval steps expr before = result) (hle : steps ≤ more) :
      eval more expr before = result :=
    (eval_of_le hle (heval ▸ hends)).trans heval
  induction h with
  | @last expr before result hcomes =>
    obtain ⟨hends, enough, heval⟩ := hcomes
    refine ⟨hends, enough, fun steps first hsteps runs _ hoperands => ?_⟩
    obtain ⟨rfl, hnil⟩ := List.cons.inj hoperands
    cases List.map_eq_nil_iff.mp hnil
    exact hmore hends heval hsteps
  | @settled expr next rest before after value hcomes hsettles =>
    obtain ⟨hends, enough, heval⟩ := hcomes
    refine ⟨ok_ne_exhausted _ after, enough, fun steps first hsteps runs _ hoperands => ?_⟩
    obtain ⟨rfl, hruns⟩ := List.cons.inj hoperands
    obtain ⟨run, runs, rfl, _, _⟩ := List.map_eq_cons_iff.mp hruns
    rw [List.map_cons, flat_of_ok (hmore hends heval hsteps), hsettles]
    rfl
  | @passed expr next rest before middle value result hcomes hsettles _ ih =>
    obtain ⟨hends, enough, heval⟩ := hcomes
    obtain ⟨hresult, later, hlater⟩ := ih
    refine ⟨hresult, max enough later, fun steps first hsteps runs hall hoperands => ?_⟩
    obtain ⟨rfl, hruns⟩ := List.cons.inj hoperands
    obtain ⟨run, runs, rfl, hnext, hrest⟩ := List.map_eq_cons_iff.mp hruns
    obtain ⟨hrun, hall⟩ := List.forall_mem_cons.mp hall
    rw [List.map_cons, flat_of_ok (hmore hends heval (by omega)), hsettles]
    refine hlater run.1 run.2 (by omega) runs (fun run hmem => ?_) (by rw [hnext, hrest])
    have henough := hall run hmem
    omega
  | @failed expr next rest before after stop hcomes =>
    obtain ⟨hends, enough, heval⟩ := hcomes
    refine ⟨hends, enough, fun steps first hsteps runs _ hoperands => ?_⟩
    obtain ⟨rfl, hruns⟩ := List.cons.inj hoperands
    obtain ⟨run, runs, rfl, _, _⟩ := List.map_eq_cons_iff.mp hruns
    rw [List.map_cons, flat_of_error (hmore hends heval hsteps)]

/-- **The tree of a chain comes to what its operands come to, one after the other.** -/
theorem comes_tree_iff (first : Expr) {others : List (Token × Expr)}
    (h : ∀ link ∈ others, link.1.kind = c.kind) (before : Session)
    (result : EStateM.Result Stop Session Value) :
    Comes (eval · (tree first others)) before result ↔
      c.Flat (first :: others.map Prod.snd) before result := by
  constructor
  · rintro ⟨hends, steps, rfl⟩
    have hsame := eval_of_le (Nat.le_add_right steps others.length) hends
    rw [c.eval_tree steps first h] at hsame
    rw [← map_snd_allot steps others]
    exact .of_flat hends hsame
  · intro hflat
    obtain ⟨hends, enough, hall⟩ := hflat.exists_steps
    refine ⟨hends, enough + others.length, ?_⟩
    change eval (enough + others.length) (tree first others) before = result
    rw [c.eval_tree enough first h]
    exact hall enough first (Nat.le_refl _) _ (fun run => le_of_mem_allot) (by rw [map_snd_allot])

theorem whole_eq (unary : Grammar.Phrase Expr) :
    c.Whole unary = Grammar.Chain c.level (c.Operand unary) := by
  cases c <;> rfl

/-- A chain that no looser operator follows is an expression. -/
theorem assignment_of_whole {operand inner : Grammar.Phrase Expr} {tokens : List Token}
    {next : TokenKind} {tree : Expr} {openings : List Grammar.Opening}
    (h : c.Whole (Grammar.Unary operand inner) tokens next tree openings)
    (hnext : next ∉ [TokenKind.kwOr, .assign]) :
    Grammar.Assignment operand inner tokens next tree openings := by
  simp only [List.mem_cons, List.not_mem_nil, or_false, not_or] at hnext
  refine .plain ?_ hnext.2
  cases c with
  | or => exact h
  | and => exact .single h fun hmem => hnext.1 (List.mem_singleton.mp hmem)

end Connective

/-- An expression is read if a level is left for it, and inside it for all levels that it opens. -/
theorem Parse.expression_of_assignment {levels : Nat} {tokens : List Token} {next : TokenKind}
    {tree : Expr} {openings : List Grammar.Opening}
    (h : Grammar.Assignment (Grammar.OperandWithin levels) (Grammar.ExpressionWithin levels) tokens
      next tree openings) {parser : Parser} {rest : List Token}
    (hrest : kindAhead rest .endOfInput = next) (hdepth : parser.depth < maxNesting)
    (hallow : { parser with depth := parser.depth + 1 }.limits.Allow openings) :
    Parse.expression (parser.facing (tokens ++ rest)) = .ok tree (parser.facing rest) := by
  obtain ⟨token, others, rfl, _⟩ := Grammar.Assignment.starts h
  let inside := { parser with depth := parser.depth + 1 }.limits
  have hsettles := follows_expression inside.statement parser.depth ⟨levels + 1, .intro h⟩ parser
    rest rfl hrest
  have hmore : (⟨maxNesting - parser.depth, inside.statement⟩ : Grammar.Limits) =
      inside.more .expression := by
    have hlevels : maxNesting - parser.depth = maxNesting - (parser.depth + 1) + 1 := by omega
    rw [hlevels]
    rfl
  have hfirst : ¬ (⟨.expression, token, 0⟩ : Grammar.Opening).Exceeds (inside.more .expression) :=
    Nat.not_succ_le_zero _
  rwa [hmore, Grammar.Limits.firstError_cons_of_not_exceeds hfirst,
    Grammar.Limits.firstError_map_deeper, Grammar.Limits.firstError_eq_none_iff.mpr hallow,
    settles_none] at hsettles

/-- **Chains are flat.** Take operands that bind tighter than `or`, or tighter than `and`, with that
word between them. They are one phrase with one tree; so a chain of `and` can be an operand in a
chain of `or`. Where the chain is a whole expression, that tree is what is read and nothing is
noted, as long as a level is left for everything in it. In every session, the tree comes to exactly
what the operands come to one after the other: each is evaluated at most once, from left to right,
up to the first in front of the last that settles the matter or stops. What stands behind that one
does nothing, and an operand that does not end lets the tree come to nothing. -/
theorem chains_flat (c : Connective) (levels : Nat) {operands : List Expr} {tokens : List Token}
    {next : TokenKind} {openings : List Grammar.Opening}
    (h : c.Written (c.Operand (Grammar.Unary (Grammar.OperandWithin levels)
      (Grammar.ExpressionWithin levels))) operands tokens next openings) :
    ∃ tree,
      c.Whole (Grammar.Unary (Grammar.OperandWithin levels) (Grammar.ExpressionWithin levels))
        tokens next tree openings ∧
      (∀ (parser : Parser) (rest : List Token), kindAhead rest .endOfInput = next →
        next ∉ [TokenKind.kwOr, .assign] → parser.depth < maxNesting →
        { parser with depth := parser.depth + 1 }.limits.Allow openings →
        Parse.expression (parser.facing (tokens ++ rest)) = .ok tree (parser.facing rest)) ∧
      ∀ before result, Comes (eval · tree) before result ↔ c.Flat operands before result := by
  obtain ⟨first, others, rfl, hkinds, hchain⟩ := h.chain
  rw [← Connective.whole_eq] at hchain
  refine ⟨_, hchain, fun parser rest hrest hnext hdepth hallow => ?_,
    fun before result => Connective.comes_tree_iff first hkinds before result⟩
  exact Parse.expression_of_assignment (Connective.assignment_of_whole hchain hnext) hrest hdepth
    hallow

namespace Sample

/-- What stands alone in front of a word or at the end is an operand. -/
theorem operand_single {operand inner : Grammar.Phrase Expr} {tokens : List Token}
    {next : TokenKind} {tree : Expr} {openings : List Grammar.Opening}
    (h : Grammar.Primary inner tokens next tree openings)
    (hnext : next ∈ [TokenKind.kwOr, .endOfInput]) :
    Connective.or.Operand (Grammar.Unary operand inner) tokens next tree openings := by
  have hne : next ≠ .leftParen ∧ ∀ level ∈ levels.tail, next ∉ level.operators := by
    simp only [List.mem_cons, List.not_mem_nil, or_false] at hnext
    rcases hnext with rfl | rfl <;> decide
  obtain ⟨hparen, hlevels⟩ := hne
  refine .single (.single (.single (.single (.single (.call (.single h hparen)) ?_) ?_) ?_) ?_) ?_
  all_goals exact hlevels _ (by simp [levels])

/-- `0 or "a" or x`. -/
def settling : List Token :=
  [⟨.number, "0", .unknown⟩, ⟨.kwOr, "or", .unknown⟩, ⟨.string, "a", .unknown⟩,
    ⟨.kwOr, "or", .unknown⟩, ⟨.identifier, "x", .unknown⟩]

/-- `x` has no value, but is not reached. -/
theorem settling_true : ∃ tree,
    Parse.expression (Parser.facing (.ofTokens []) settling) = .ok tree
      (Parser.facing (.ofTokens []) []) ∧
    Comes (eval · tree) (.start {} {}) (.ok (.boolean true) (.start {} {})) := by
  have hwritten : Connective.or.Written (Connective.or.Operand (Grammar.Unary
      (Grammar.OperandWithin 0) (Grammar.ExpressionWithin 0)))
      [.literal (.integer 0), .literal (.string "a"), .var ⟨.identifier, "x", .unknown⟩] settling
      .endOfInput [] :=
    .more (operand_single (.literal rfl) (by decide)) rfl
      (.more (operand_single (.literal rfl) (by decide)) rfl
        (.last (operand_single (.name (.inl rfl)) (by decide)) (by decide)))
  obtain ⟨tree, _, hread, hflat⟩ := chains_flat .or 0 hwritten
  refine ⟨tree, hread _ [] rfl (by decide) (by decide) (Grammar.Limits.allow_nil _),
    (hflat _ _).mpr ?_⟩
  have hevals (literal : Literal) : Comes (eval · (.literal literal)) (.start {} {})
      (.ok (.ofLiteral literal) (.start {} {})) := @comes_of_ok _ _ _ _ 1 _ rfl
  exact .passed (hevals _) rfl (.settled (hevals _) rfl)

end Sample

end Scriptlet
