import Mathlib.Data.List.Induction
import Scriptlet.Proofs.Parser.Nesting
import Scriptlet.Proofs.Parser.Trees
import Scriptlet.Proofs.Session.Layout
import Scriptlet.Proofs.Session.Runner
import Scriptlet.Proofs.Writing.Chains

/-!
# How deeply evaluation nests

An expression is evaluated by evaluating what stands inside it, so within one call evaluations are
open inside each other as deeply as the tree goes. The limit on nesting bounds that in part only.
Chains of operators of one level and of argument lists grow to the left, and no level is opened.
What the limit does bound is how often a way into the tree turns away from the left.

To say both at once, a step to the first operand or to the callee is given a cost of its own. At a
cost of one all steps are counted alike, and at no cost only the turns are. A runner that keeps
count gives up where too many evaluations are open; where that makes no difference, not so many are.

## Main definitions

* `Expr.depth`, `Expr.height`, `Expr.turns` — how deep a tree goes, at a cost for steps to the left
* `Expr.spine` — how far it goes to the left
* `Capped.runner`, `Action.evalCapped` — evaluation that gives up if too many evaluations are open
  inside each other
* `ReadAs` — the statements that a script is read as

## Main results

* `Action.evalCapped_eq`, `Action.evalCapped_of_le_spine` — evaluation nests no more deeply than the
  tree goes, and at least as deeply as it goes to the left
* `Link.chain_shape` — a chain is as high as it is long
* `turns_limited` — the limit on nesting bounds the turns, and chains open no levels
* `Sample.products_unlimited` — it does not bound the height
-/

namespace Scriptlet

open Grammar

/-- What a step to a part costs, given what it costs on the left. -/
def Side.cost (left : Nat) : Side → Nat
  | .left => left
  | .right => 1

namespace Expr

mutual

/-- The greatest cost of a way into a tree. A step costs one, but for those to the first of two
operands and to a callee, which have a cost of their own. -/
def depth (left : Nat) : Expr → Nat
  | binary first _ second => max (first.depth left + left) (second.depth left + 1)
  | logical first _ second => max (first.depth left + left) (second.depth left + 1)
  | unary _ operand => operand.depth left + 1
  | literal _ => 0
  | var _ => 0
  | assign _ value => value.depth left + 1
  | call callee _ arguments => max (callee.depth left + left) (depths left arguments)

/-- The greatest cost of a way into one of several trees, the step to it included. -/
def depths (left : Nat) : List Expr → Nat
  | [] => 0
  | expr :: rest => max (expr.depth left + 1) (depths left rest)

end

/-- How high a tree is: how many steps a way into it can have. -/
abbrev height : Expr → Nat := depth 1

/-- How often a way into a tree can turn away from the left. -/
abbrev turns : Expr → Nat := depth 0

/-- How many steps a way into a tree can have that goes to the left only. -/
def spine : Expr → Nat
  | binary first _ _ | logical first _ _ => first.spine + 1
  | call callee _ _ => callee.spine + 1
  | _ => 0

variable {left cap : Nat}

theorem depths_le_iff {exprs : List Expr} :
    depths left exprs ≤ cap ↔ ∀ expr ∈ exprs, expr.depth left + 1 ≤ cap := by
  induction exprs with
  | nil => simp [depths]
  | cons expr rest ih => simp [depths, ih]

/-- A tree is as deep as its parts are, with the steps to them. -/
theorem depth_le_iff {expr : Expr} :
    expr.depth left ≤ cap ↔ ∀ part ∈ expr.sides, part.2.depth left + part.1.cost left ≤ cap := by
  cases expr <;> simp [depth, sides, Side.cost, depths_le_iff]

/-- What is joined by an operator of a level. -/
theorem depth_join {level : Level} (h : level ∈ levels) (first second : Expr) (operator : Token) :
    (level.join first operator second).depth left =
      max (first.depth left + left) (second.depth left + 1) := by
  rcases join_cases h with ⟨hjoin, _⟩ | ⟨hjoin, _⟩ <;> rw [hjoin, depth]

end Expr

/-! ## Turns in trees that are read -/

/-- So many turns are possible in an expression that is read in a form while a number of levels may
be opened. Each level allows for one turn, and for one more at each level of operators. -/
def Form.Allows (n turns : Nat) : Form → Prop
  | .whole => turns < 7 * n
  | .operand => turns + 7 ≤ 7 * n
  | .joined count => turns ≤ 7 * n + count

/-- **The levels that may be opened bound the turns.** -/
theorem Expr.Built.turns {n : Nat} {form : Form} {expr : Expr} (h : Expr.Built n form expr) :
    form.Allows n expr.turns := by
  induction h with
  | literal value => exact Nat.zero_le _
  | var name => exact Nat.zero_le _
  | group _ ih =>
    simp only [Form.Allows] at ih ⊢
    omega
  | call _ _ ih iharguments =>
    simp only [Form.Allows, Expr.turns, Expr.depth] at ih iharguments ⊢
    refine Nat.max_le.mpr ⟨ih, Expr.depths_le_iff.mpr fun argument hmem => ?_⟩
    have hargument := iharguments argument hmem
    omega
  | unary _ _ ih =>
    simp only [Form.Allows, Expr.turns, Expr.depth] at ih ⊢
    omega
  | looser _ ih =>
    simp only [Form.Allows] at ih ⊢
    omega
  | join hlevel _ _ _ ihleft ihright =>
    -- The left operand may be as long a chain as it likes: stepping to it is free.
    simp only [Form.Allows, Expr.turns, Expr.depth_join hlevel] at ihleft ihright ⊢
    omega
  | operand _ ih =>
    simp only [Form.Allows] at ih ⊢
    omega
  | plain _ ih =>
    simp only [Form.Allows, levels, List.length_cons, List.length_nil] at ih ⊢
    omega
  | assign _ ih =>
    simp only [Form.Allows, Expr.turns, Expr.depth] at ih ⊢
    omega

/-! ## Evaluation that gives up -/

/-- What is done in a session, given how many more evaluations may be open inside each other if that
is limited. -/
abbrev Capped : Type → Type := ReaderT (Option Nat) Action

namespace Capped

variable {α : Type}

/-- Does something at a cost, which has to be within the limit. -/
def spend (cost : Nat) (body : Capped α) : Capped α
  | none => body none
  | some cap => if cost ≤ cap then body (some (cap - cost)) else throw .exhausted

theorem spend_of_le {cost cap : Nat} (h : cost ≤ cap) (body : Capped α) :
    spend cost body (some cap) = body (some (cap - cost)) := if_pos h

/-- The runner that gives up if too many evaluations are open inside each other. Steps to the left
have a cost of their own. The limit is for one call: the bodies of functions are run without. -/
def runner (left : Nat) : Runner Capped where
  perform move _ := move.action
  stop reason _ := throw reason
  inside enclosure body _ := enclosure.around (body none)
  enter _ body := body
  part side body := spend (side.cost left) body

/-- Single moves do not look at the limit. -/
theorem passage (left : Nat) (limit? : Option Nat) :
    (runner left).Passage Action.runner fun body => body limit? where
  pure _ := rfl
  bind _ _ := rfl
  perform _ := rfl
  stop _ := rfl
  enter _ _ := rfl

/-- Without a limit, everything is run as before. -/
theorem morphism (left : Nat) : (runner left).Morphism Action.runner fun body => body none where
  toPassage := passage left none
  inside _ _ := rfl
  part _ _ := rfl

variable {left : Nat}

/-- **Evaluation is as before as long as the limit is not below the depth of the tree.** -/
theorem eval_eq (steps : Nat) {cap : Nat} {expr : Expr} (h : expr.depth left ≤ cap) :
    (runner left).eval steps expr (some cap) = Action.eval steps expr := by
  rw [← (Action.runner_steps steps).1]
  induction steps generalizing cap expr with
  | zero => rfl
  | succ steps ih =>
    rw [Runner.eval, Runner.eval]
    refine (passage left (some cap)).enter_of _ ((passage left (some cap)).evalWith ?_ ?_)
    · -- A part is within what is left once the step to it is paid.
      intro part hmem
      have hpart := Expr.depth_le_iff.mp h part hmem
      exact (spend_of_le (Nat.le_of_add_left_le hpart) _).trans (ih (Nat.le_sub_of_add_le hpart))
    · refine (passage left (some cap)).call fun function arguments => ?_
      change Enclosure.around _ _ = Enclosure.around _ _
      rw [(morphism left).execAll ((morphism left).exec steps)]

end Capped

namespace Action

/-- Evaluates an expression with a number of steps, as `eval` does, but gives up if more evaluations
than a cap are open inside each other in this call, the one of the whole expression included. One
that is come to by a step to the left counts for what such a step costs. -/
def evalCapped (left steps cap : Nat) (expr : Expr) : Action Value :=
  Capped.spend 1 ((Capped.runner left).eval steps expr) (some cap)

/-- **The depth of a tree is how deeply evaluation nests.** A cap above it makes no difference. -/
theorem evalCapped_eq {left : Nat} (steps : Nat) {cap : Nat} {expr : Expr}
    (h : expr.depth left < cap) : evalCapped left steps cap expr = eval steps expr := by
  rw [evalCapped, Capped.spend_of_le (Nat.lt_of_le_of_lt (Nat.zero_le _) h)]
  exact Capped.eval_eq steps (Nat.le_sub_one_of_lt h)

/-- Evaluation goes all the way to the left before anything else, and so gives up if it may not. -/
theorem evalCapped_of_le_spine (steps : Nat) {cap : Nat} {expr : Expr} (h : cap ≤ expr.spine)
    (session : Session) :
    evalCapped 1 steps cap expr session = .error .exhausted session := by
  induction steps generalizing cap expr with
  | zero =>
    cases cap with
    | zero => rfl
    | succ cap => rfl
  | succ steps ih =>
    cases cap with
    | zero => rfl
    | succ cap =>
      rw [evalCapped, Capped.spend_of_le (Nat.le_add_left 1 cap)]
      cases expr with
      | binary first operator second => exact bind_of_error (ih (Nat.le_of_succ_le_succ h))
      | logical first operator second => exact bind_of_error (ih (Nat.le_of_succ_le_succ h))
      | call callee paren arguments => exact bind_of_error (ih (Nat.le_of_succ_le_succ h))
      | _ => exact absurd h (Nat.not_succ_le_zero cap)

end Action

/-! ## Scripts -/

/-- The script is read as statements. Reading may have gone on after errors. -/
def ReadAs (source : String) (statements : List Stmt) : Prop :=
  ∃ parser stop, Parser.ofSource source = .ok parser ∧ Parse.program parser = .ok statements stop

/-- **The levels that may be opened bound the turns** in every expression of a script. -/
theorem ReadAs.turns_lt {source : String} {statements : List Stmt} (h : ReadAs source statements) :
    ∀ stmt ∈ statements, stmt.Built fun expr => expr.turns < 7 * maxNesting := by
  obtain ⟨parser, stop, _, hprogram⟩ := h
  intro stmt hmem
  exact (Parse.gives_program hprogram stmt hmem).imp fun expr hbuilt => hbuilt.turns

/-- A script that is flat is read. -/
theorem Flat.readAs {source : String} {stmt : Stmt} (h : Flat source stmt) :
    ReadAs source [stmt] := by
  obtain ⟨tokens, place, openings, htokens, hprogram, hdepth⟩ := h
  have hallow : Limits.program.Allow openings := by
    intro opening hmem hexceeds
    rw [Opening.Exceeds, hdepth opening hmem] at hexceeds
    cases hnesting : opening.nesting <;> rw [hnesting] at hexceeds <;>
      exact absurd hexceeds (by decide)
  obtain ⟨stop, hread, _⟩ := (@yields_iff_allow _ [.endMark place] _ _ hprogram rfl).mpr hallow
  exact ⟨_, stop, Parser.ofSource_of_ok htokens, hread⟩

namespace Link

theorem spine_join {level : Level} (h : level ∈ levels) (first second : Expr) (operator : Token) :
    (level.join first operator second).spine = first.spine + 1 := by
  rcases join_cases h with ⟨hjoin, _⟩ | ⟨hjoin, _⟩ <;> rw [hjoin, Expr.spine]

/-- One more round: the tree grows by one to the left, and does not turn once more. -/
theorem grow_shape (link : Link) (expr : Expr) (token : Token) :
    (link.grow expr token).spine = expr.spine + 1 ∧
      (link.grow expr token).height = expr.height + 1 ∧
      (link.grow expr token).turns ≤ max expr.turns 1 := by
  cases link with
  | operand level listed =>
    have hone (left : Nat) : one.depth left = 0 := rfl
    refine ⟨spine_join listed _ _ _, ?_, ?_⟩
    · rw [grow, Expr.height, Expr.depth_join listed, hone]
      omega
    · rw [grow, Expr.turns, Expr.depth_join listed, hone]
      omega
  | arguments =>
    refine ⟨rfl, ?_, ?_⟩
    · rw [grow, Expr.height, Expr.depth, Expr.depths]
      omega
    · rw [grow, Expr.turns, Expr.depth, Expr.depths]
      omega

theorem foldl_shape (link : Link) (rounds : List Token) (expr : Expr) :
    (rounds.foldl link.grow expr).spine = expr.spine + rounds.length ∧
      (rounds.foldl link.grow expr).height = expr.height + rounds.length ∧
      (rounds.foldl link.grow expr).turns ≤ max expr.turns 1 := by
  induction rounds generalizing expr with
  | nil => exact ⟨rfl, rfl, Nat.le_max_left _ _⟩
  | cons token rounds ih =>
    obtain ⟨hspine, hheight, hturns⟩ := link.grow_shape expr token
    obtain ⟨ihspine, ihheight, ihturns⟩ := ih (link.grow expr token)
    rw [List.foldl_cons, List.length_cons]
    refine ⟨?_, ?_, ?_⟩ <;> omega

/-- **A chain is as high as it is long**, all the way to the left, and turns at most once. -/
theorem chain_shape (link : Link) (start : Token) (rounds : List Token) :
    (link.chain start rounds).spine = rounds.length ∧
      (link.chain start rounds).height = rounds.length ∧
      (link.chain start rounds).turns ≤ 1 := by
  have hfirst : (link.first start).spine = 0 ∧ (link.first start).height = 0 ∧
      (link.first start).turns = 0 := by
    cases link <;> exact ⟨rfl, rfl, rfl⟩
  obtain ⟨hspine, hheight, hturns⟩ := link.foldl_shape rounds (link.first start)
  rw [chain]
  refine ⟨?_, ?_, ?_⟩ <;> omega

end Link

/-- **The limit on nesting bounds the turns, and nothing else.** In every expression of a script
that is read, however long it is and whatever errors reading went on after, a way into the tree
turns away from the left fewer times than seven times the limit. So within one call evaluation never
has more than seven times the limit evaluations open inside each other, that of the whole expression
included, if those of first operands and of callees are not counted: to give up beyond that would
make no difference. Counting all, it never has more open than one and the height of the tree.

Chains are as high as they are long, whether of operators of one level or of argument lists, and
there is a script for each in which no level is opened inside another. Evaluation has one more open
than the chain is long before it comes to anything else, and gives up if that is not allowed. -/
theorem turns_limited :
    (∀ source statements, ReadAs source statements → ∀ stmt ∈ statements, stmt.Built fun expr =>
      expr.turns < 7 * maxNesting ∧ ∀ steps,
        Action.evalCapped 0 steps (7 * maxNesting) expr = Action.eval steps expr ∧
          Action.evalCapped 1 steps (expr.height + 1) expr = Action.eval steps expr) ∧
    ∀ (link : Link) (rounds : List Word), (∀ word ∈ rounds, word.kind ∈ link.kinds) →
      ∃ start tokens, tokens.map Token.spelling = rounds.map Word.spelling ∧
        ReadAs (link.source rounds) [.expression (link.chain start tokens)] ∧
        Flat (link.source rounds) (.expression (link.chain start tokens)) ∧
        (link.chain start tokens).height = rounds.length ∧ (link.chain start tokens).turns ≤ 1 ∧
        ∀ steps session, Action.evalCapped 1 steps rounds.length (link.chain start tokens) session =
          .error .exhausted session := by
  refine ⟨fun source statements h stmt hmem => ?_, fun link rounds h => ?_⟩
  · refine (h.turns_lt stmt hmem).imp fun expr hturns => ⟨hturns, fun steps => ?_⟩
    exact ⟨Action.evalCapped_eq steps hturns, Action.evalCapped_eq steps (Nat.lt_succ_self _)⟩
  · obtain ⟨start, tokens, hspelling, hflat⟩ := link.flat_chain h
    have hlength : tokens.length = rounds.length := by simpa using congrArg List.length hspelling
    obtain ⟨hspine, hheight, hturns⟩ := link.chain_shape start tokens
    exact ⟨start, tokens, hspelling, hflat.readAs, hflat, hheight.trans hlength, hturns,
      fun steps => Action.evalCapped_of_le_spine steps (Nat.le_of_eq (hspine.trans hlength).symm)⟩

/-! ## Long products -/

namespace Sample

/-- Products and quotients. -/
def products : Link := .operand ⟨[.star, .slash], .binary⟩ (by simp [levels])

/-- The operator of a product. -/
def times : Word := ⟨.star, "*", .symbol (by decide)⟩

/-- The end of a list of arguments. -/
def lastParen : Word := ⟨.rightParen, ")", .symbol (by decide)⟩

theorem product_concat (start : Token) (operators : List Token) (operator : Token) :
    products.chain start (operators ++ [operator]) =
      .binary (products.chain start operators) operator Link.one := by
  rw [Link.chain, List.foldl_append]
  rfl

/-- A product of ones is one in the end. -/
theorem eval_product (start : Token) {operators : List Token}
    (h : ∀ operator ∈ operators, operator.kind = .star) (session : Session) :
    Action.eval (operators.length + 1) (products.chain start operators) session =
      .ok (.integer 1) session := by
  induction operators using List.reverseRecOn with
  | nil => rfl
  | append_singleton operators operator ih =>
    have hleft := ih fun other hmem => h other (List.mem_append_left _ hmem)
    have hright : Action.eval (operators.length + 1) Link.one session =
      .ok (.integer 1) session := rfl
    have hvalue : Value.binary operator (.integer 1) (.integer 1) = .ok (.integer 1) := by
      have hkind := h operator (by simp)
      have hmul : Integer.mul? 1 1 = some 1 := by decide +kernel
      simp [Value.binary, Value.binaryInteger, hkind, hmul, Value.orOverflow]
    rw [product_concat, List.length_append, List.length_singleton, Action.eval, Action.evalWith,
      bind_of_ok hleft, bind_of_ok hright, hvalue]
    rfl

/-- A product is read, however many operators it has. -/
theorem exists_readAs_product (count : Nat) : ∃ start operators, operators.length = count ∧
    (∀ operator ∈ operators, operator.kind = .star) ∧
      ReadAs (products.source (List.replicate count times))
        [.expression (products.chain start operators)] := by
  have hkinds : ∀ word ∈ List.replicate count times, word.kind ∈ products.kinds := by
    intro word hmem
    rw [List.eq_of_mem_replicate hmem]
    exact List.mem_cons_self
  obtain ⟨start, operators, hspelling, hflat⟩ := products.flat_chain hkinds
  rw [List.map_replicate, List.eq_replicate_iff, List.length_map] at hspelling
  refine ⟨start, operators, hspelling.1, fun operator hmem => ?_, hflat.readAs⟩
  exact congrArg Prod.fst (hspelling.2 _ (List.mem_map_of_mem hmem))

/-- **The limit on nesting does not bound the height** of the trees that are read, nor how many
evaluations are open inside each other within one call: long products go beyond any bound. -/
theorem products_unlimited :
    (¬ ∃ bound, ∀ source statements, ReadAs source statements →
      ∀ stmt ∈ statements, stmt.Built fun expr => expr.height ≤ bound) ∧
    ¬ ∃ bound, ∀ source statements, ReadAs source statements →
      ∀ stmt ∈ statements, stmt.Built fun expr =>
        ∀ steps, Action.evalCapped 1 steps bound expr = Action.eval steps expr := by
  constructor
  · rintro ⟨bound, h⟩
    obtain ⟨start, operators, hlength, _, hread⟩ := exists_readAs_product (bound + 1)
    have hheight := (h _ _ hread _ List.mem_cons_self).of_mem_exprs List.mem_cons_self
    rw [(products.chain_shape start operators).2.1, hlength] at hheight
    omega
  · rintro ⟨bound, h⟩
    obtain ⟨start, operators, hlength, hkinds, hread⟩ := exists_readAs_product bound
    have hsame := (h _ _ hread _ List.mem_cons_self).of_mem_exprs List.mem_cons_self
    have hspine : bound ≤ (products.chain start operators).spine := by
      rw [(products.chain_shape start operators).1, hlength]
    have hcapped := Action.evalCapped_of_le_spine (operators.length + 1) hspine
      (Session.start {} {})
    rw [hsame, eval_product start hkinds] at hcapped
    cases hcapped

/-- A product of a thousand and one ones turns away from the left less than seven hundred times, and
evaluation may give up beyond that many turns. A name with a thousand empty argument lists behind it
is read too, and evaluation may not give up at a thousand. -/
theorem thousand_rounds :
    (∃ start operators,
      ReadAs (products.source (List.replicate 1000 times))
        [.expression (products.chain start operators)] ∧
      (products.chain start operators).turns < 7 * maxNesting ∧
      Action.evalCapped 0 1001 (7 * maxNesting) (products.chain start operators) =
        Action.eval 1001 (products.chain start operators)) ∧
    ∃ start parens,
      ReadAs (Link.arguments.source (List.replicate 1000 lastParen))
        [.expression (Link.arguments.chain start parens)] ∧
      (Link.arguments.chain start parens).height = 1000 ∧
      Action.evalCapped 1 1001 1000 (Link.arguments.chain start parens) (Session.start {} {}) =
        .error .exhausted (Session.start {} {}) := by
  constructor
  · obtain ⟨start, operators, _, _, hread⟩ := exists_readAs_product 1000
    obtain ⟨hturns, hcapped⟩ :=
      (turns_limited.1 _ _ hread _ List.mem_cons_self).of_mem_exprs List.mem_cons_self
    exact ⟨start, operators, hread, hturns, (hcapped 1001).1⟩
  · have hkinds : ∀ word ∈ List.replicate 1000 lastParen, word.kind ∈ Link.arguments.kinds := by
      intro word hmem
      rw [List.eq_of_mem_replicate hmem]
      exact List.mem_cons_self
    obtain ⟨start, parens, _, hread, _, hheight, _, hcapped⟩ := turns_limited.2 _ _ hkinds
    rw [List.length_replicate] at hheight hcapped
    exact ⟨start, parens, hread, hheight, hcapped 1001 _⟩

end Sample

end Scriptlet
