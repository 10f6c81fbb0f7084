import Scriptlet.Proofs.Parser.Trees
import Scriptlet.Proofs.Writing.Program
import Scriptlet.Proofs.Writing.Text

/-!
# Chains that grow to the left

The operators of a level are joined in a repetition, and so are the argument lists behind a callee.
With each round the tree grows by one to the left, and no level is opened: the limits on nesting do
not see how long the chain is. So there is a script for a chain of any length, of any operators of a
level or of argument lists, and only one statement and one expression are ever open in it.

## Main definitions

* `Link`, `Link.chain` — what a chain goes on with, and the tree of a chain
* `Link.source` — a script for a chain
* `Flat` — the script is a statement, and no level is opened inside another of its kind

## Main results

* `Link.flat_chain` — chains of any length are flat
-/

namespace Scriptlet

open Grammar

/-- What a chain goes on with, round by round. -/
inductive Link where
  /-- An operator of a level, and one more operand. -/
  | operand (level : Level) (listed : level ∈ levels)
  /-- An empty list of arguments. -/
  | arguments

/-- What a token shows of its word. -/
def Token.spelling (token : Token) : TokenKind × String := (token.kind, token.lexeme)

/-- What a word shows in its token. -/
def Word.spelling (word : Word) : TokenKind × String := (word.kind, word.lexeme)

/-- A text in which no level is opened. -/
def Writing.flat (pieces : List Piece) : Writing := ⟨pieces, ⟨0, 0⟩⟩

theorem Writing.flat_append (first second : List Piece) :
    flat first ++ flat second = flat (first ++ second) := by
  rfl

namespace Link

/-- The number one. -/
def one : Expr := .literal (.integer 1)

/-- The kinds of tokens that a round can put into the tree. -/
def kinds : Link → List TokenKind
  | operand level _ => level.operators
  | arguments => [.rightParen]

/-- What the chain starts with: a number, or the name of what is called. -/
def first : Link → Token → Expr
  | operand _ _, _ => one
  | arguments, name => .var name

/-- The tree after one more round. -/
def grow : Link → Expr → Token → Expr
  | operand level _, left, operator => level.join left operator one
  | arguments, callee, paren => .call callee paren []

/-- The tree of a chain. -/
def chain (link : Link) (start : Token) (rounds : List Token) : Expr :=
  rounds.foldl link.grow (link.first start)

/-! ## Scripts -/

/-- The word for the number one. -/
def oneWord : Word := ⟨.number, "1", .number rfl (by simp)⟩

/-- The word for the start of the chain. -/
def startWord : Link → Word
  | operand _ _ => oneWord
  | arguments => ⟨.identifier, "f", .identifier rfl (by simp) (by decide)⟩

/-- The words of one more round. -/
def roundWords : Link → Word → List Word
  | operand _ _, operator => [operator, oneWord]
  | arguments, paren => [⟨.leftParen, "(", .symbol (by decide)⟩, paren]

/-- The words of a chain and the semicolon behind it. -/
def words (link : Link) (rounds : List Word) : List Word :=
  link.startWord :: (rounds.flatMap link.roundWords ++ [⟨.semicolon, ";", .symbol (by decide)⟩])

/-- A script for a chain, with a blank between any two words. -/
def source (link : Link) (rounds : List Word) : String :=
  String.ofList (scriptText [] (fun _ => ⟨' ', rfl, []⟩) (link.words rounds) none)

/-! ## How chains are written -/

/-- How tightly the chain binds. -/
def rank : Link → Nat
  | operand level _ => (level.operators.headD .star).tightness
  | arguments => 8

/-- What is written for the start of the chain. -/
def startPiece : Link → Token → Piece
  | operand _ _, _ => .numeral 1
  | arguments, name => .held name

/-- What is written for one more round. -/
def pieces : Link → Token → List Piece
  | operand _ _, operator => [.held operator, .numeral 1]
  | arguments, paren => [.mark .leftParen, .held paren]

/-- The operators of a level bind equally tightly. -/
theorem tightness_of_mem : ∀ level ∈ levels, ∀ kind ∈ level.operators,
    kind.tightness = (level.operators.headD .star).tightness := by decide

theorem writing_join {level : Level} (h : level ∈ levels) (left right : Expr) (operator : Token) :
    (level.join left operator right).writing =
      left.writing.placed left.rank operator.kind.tightness ++ .held operator ++
        right.writing.placed right.rank (operator.kind.tightness + 1) := by
  rcases join_cases h with ⟨hjoin, _⟩ | ⟨hjoin, _⟩ <;> rw [hjoin, Expr.writing]

theorem rank_join {level : Level} (h : level ∈ levels) (left right : Expr) (operator : Token) :
    (level.join left operator right).rank = operator.kind.tightness := by
  rcases join_cases h with ⟨hjoin, _⟩ | ⟨hjoin, _⟩ <;> rw [hjoin, Expr.rank]

theorem writable_join {level : Level} (h : level ∈ levels) {left right : Expr} {operator : Token}
    (hkind : operator.kind ∈ level.operators) (hleft : left.Writable) (hright : right.Writable) :
    (level.join left operator right).Writable := by
  rcases join_cases h with ⟨hjoin, hsubset⟩ | ⟨hjoin, hsubset⟩
  · rw [hjoin]
    exact .logical (hsubset hkind) hleft hright
  · rw [hjoin]
    exact .binary (hsubset hkind) hleft hright

/-- A tree that a chain can go on from, with what is written for it. -/
structure Grown (link : Link) (expr : Expr) (pieces : List Piece) : Prop where
  /-- The tree can be written. -/
  writable : expr.Writable
  /-- It needs no parentheses on the left of one more round. -/
  rank_le : link.rank ≤ expr.rank
  /-- It is written so, and nowhere is a level opened. -/
  writing_eq : expr.writing = .flat pieces

theorem Grown.placed {link : Link} {expr : Expr} {before : List Piece}
    (h : link.Grown expr before) :
    expr.writing.placed expr.rank link.rank = .flat before := by
  rw [Writing.placed, if_neg (Nat.not_lt.mpr h.rank_le), h.writing_eq]

theorem grown_first (link : Link) {start : Token}
    (h : start.spelling = link.startWord.spelling) :
    link.Grown (link.first start) [link.startPiece start] := by
  cases link with
  | operand level listed =>
    refine ⟨.literal nofun, ?_, ?_⟩
    · exact Nat.le_trans (tightness_le _) (by decide : 6 ≤ one.rank)
    · rw [first, one, Expr.writing]
      rfl
  | arguments =>
    have hname : start.kind = .identifier := (Prod.mk.inj h).1
    refine ⟨.var (by simp [hname]), ?_, ?_⟩
    · exact (by decide : 8 ≤ 9)
    · rw [first, Expr.writing]
      rfl

/-- One round more. -/
theorem Grown.grow {link : Link} {expr : Expr} {before : List Piece} (h : link.Grown expr before)
    {token : Token} (hkind : token.kind ∈ link.kinds) :
    link.Grown (link.grow expr token) (before ++ link.pieces token) := by
  cases link with
  | operand level listed =>
    have htight : token.kind.tightness = (operand level listed).rank :=
      tightness_of_mem level listed token.kind hkind
    have hright : one.writing.placed one.rank (token.kind.tightness + 1) =
        .flat [.numeral 1] := by
      have hlt : token.kind.tightness + 1 ≤ one.rank :=
        Nat.le_trans (Nat.succ_le_succ (tightness_le _)) (by decide)
      rw [Writing.placed, if_neg (Nat.not_lt.mpr hlt), one, Expr.writing]
      rfl
    refine ⟨writable_join listed hkind h.writable (.literal nofun), ?_, ?_⟩
    · rw [Link.grow, rank_join listed, htight]
    · have hheld : Writing.held token = .flat [.held token] := rfl
      rw [Link.grow, writing_join listed, hright, htight, h.placed, hheld, Writing.flat_append,
        Writing.flat_append, List.append_assoc]
      rfl
  | arguments =>
    refine ⟨.call h.writable (List.mem_singleton.mp hkind) nofun (by decide), Nat.le_refl 8, ?_⟩
    have hcallee : expr.writing.placed expr.rank 8 = .flat before := h.placed
    have hmark : Writing.mark .leftParen = .flat [.mark .leftParen] := rfl
    have hnone : Writing.separated (Expr.writings []) = .flat [] := by
      rw [Expr.writings]
      rfl
    have hheld : Writing.held token = .flat [.held token] := rfl
    rw [Link.grow, Expr.writing, hcallee, hmark, hnone, hheld, Writing.flat_append,
      Writing.flat_append, Writing.flat_append, List.append_nil, List.append_assoc]
    rfl

theorem Grown.foldl {link : Link} {expr : Expr} {before : List Piece} (h : link.Grown expr before)
    {rounds : List Token} (hkinds : ∀ token ∈ rounds, token.kind ∈ link.kinds) :
    link.Grown (rounds.foldl link.grow expr) (before ++ rounds.flatMap link.pieces) := by
  induction rounds generalizing expr before with
  | nil => rwa [List.flatMap_nil, List.append_nil]
  | cons token rounds ih =>
    obtain ⟨hfirst, hothers⟩ := List.forall_mem_cons.mp hkinds
    rw [List.flatMap_cons, ← List.append_assoc]
    exact ih (h.grow hfirst) hothers

theorem spelled_one {token : Token} (h : token.spelling = oneWord.spelling) :
    (Piece.numeral 1).Spelled token := by
  obtain ⟨hkind, hlexeme⟩ := Prod.mk.inj h
  have htext : oneWord.lexeme = Integer.text 1 := by decide +kernel
  exact ⟨hkind, hlexeme.trans htext⟩

/-- The tokens that a round puts into the tree are among those that are read for its words. -/
theorem exists_rounds (link : Link) (rounds : List Word) {tokens : List Token}
    (h : tokens.map Token.spelling = (rounds.flatMap link.roundWords).map Word.spelling) :
    ∃ held : List Token, held.map Token.spelling = rounds.map Word.spelling ∧
      List.Forall₂ Piece.Spelled (held.flatMap link.pieces) tokens := by
  induction rounds generalizing tokens with
  | nil =>
    obtain rfl := List.map_eq_nil_iff.mp h
    exact ⟨[], rfl, .nil⟩
  | cons word rounds ih =>
    cases link with
    | operand level listed =>
      obtain ⟨operator, tokens, rfl, hoperator, h⟩ := List.map_eq_cons_iff.mp h
      obtain ⟨number, tokens, rfl, hnumber, h⟩ := List.map_eq_cons_iff.mp h
      obtain ⟨held, hheld, hspelled⟩ := ih h
      exact ⟨operator :: held, by rw [List.map_cons, List.map_cons, hoperator, hheld],
        .cons rfl (.cons (spelled_one hnumber) hspelled)⟩
    | arguments =>
      obtain ⟨left, tokens, rfl, hleft, h⟩ := List.map_eq_cons_iff.mp h
      obtain ⟨right, tokens, rfl, hright, h⟩ := List.map_eq_cons_iff.mp h
      obtain ⟨held, hheld, hspelled⟩ := ih h
      exact ⟨right :: held, by rw [List.map_cons, List.map_cons, hright, hheld],
        .cons (Prod.mk.inj hleft).1 (.cons rfl hspelled)⟩

theorem tokenize_source (link : Link) (rounds : List Word) :
    ∃ tokens place, tokenize (link.source rounds) = .ok (tokens ++ [.endMark place]) ∧
      tokens.map Token.spelling = (link.words rounds).map Word.spelling := by
  obtain ⟨items, gap, htext, hlaid, hgap, hspelling⟩ :=
    exists_laid_words .start [] (fun _ => ⟨' ', rfl, []⟩) (link.words rounds) none
  refine ⟨items.map Item.token, Location.start.after (itemsText items ++ gap), ?_, ?_⟩
  · rw [tokenize, lex, source, String.toList_ofList, htext, lexChars_end hlaid hgap]
  · rw [List.map_map]
    exact hspelling

theorem spelled_start (link : Link) {start : Token}
    (h : start.spelling = link.startWord.spelling) : (link.startPiece start).Spelled start := by
  cases link with
  | operand level listed => exact spelled_one h
  | arguments => rfl

/-- A chain as a statement, with a semicolon behind it. -/
theorem writings_chain {link : Link} {expr : Expr} {pieces : List Piece} {start : Token}
    (h : link.Grown expr (link.startPiece start :: pieces))
    (hstart : start.spelling = link.startWord.spelling) :
    Stmt.writings [.expression expr] =
      ⟨link.startPiece start :: (pieces ++ [.mark .semicolon]), ⟨1, 1⟩⟩ := by
  have hprint : (link.startPiece start).kind ≠ .kwPrint := by
    rw [← (link.spelled_start hstart).kind_eq, (Prod.mk.inj hstart).1]
    cases link with
    | operand level listed => exact (by decide : TokenKind.number ≠ .kwPrint)
    | arguments => exact (by decide : TokenKind.identifier ≠ .kwPrint)
  have hguarded : expr.writing.guarded = .flat (link.startPiece start :: pieces) := by
    rw [h.writing_eq]
    exact if_neg fun hkind => hprint (Option.some.inj hkind)
  rw [Stmt.writings, Stmt.writings, Stmt.writing, hguarded]
  exact congrArg (Writing.mk · ⟨1, 1⟩) (List.append_nil _)

end Link

/-! ## Scripts that are flat -/

/-- The script is a statement, and nowhere in it is a level opened inside another of its kind. -/
def Flat (source : String) (stmt : Stmt) : Prop :=
  ∃ tokens place openings, tokenize source = .ok (tokens ++ [.endMark place]) ∧
    Program tokens [stmt] openings ∧ ∀ opening ∈ openings, opening.depth = 0

/-- **Chains of any length are flat.** -/
theorem Link.flat_chain (link : Link) {rounds : List Word}
    (h : ∀ word ∈ rounds, word.kind ∈ link.kinds) :
    ∃ start held, held.map Token.spelling = rounds.map Word.spelling ∧
      Flat (link.source rounds) (.expression (link.chain start held)) := by
  obtain ⟨all, place, htokens, hspelled⟩ := link.tokenize_source rounds
  obtain ⟨start, tokens, rfl, hstart, hothers⟩ := List.map_eq_cons_iff.mp hspelled
  rw [List.map_append] at hothers
  obtain ⟨before, after, rfl, hbefore, hafter⟩ := List.map_eq_append_iff.mp hothers
  obtain ⟨mark, rfl, hmark⟩ := List.map_eq_singleton_iff.mp hafter
  obtain ⟨held, hheld, hpieces⟩ := link.exists_rounds rounds hbefore
  have hkinds : ∀ token ∈ held, token.kind ∈ link.kinds := by
    intro token hmem
    have hword : token.spelling ∈ rounds.map Word.spelling := hheld ▸ List.mem_map_of_mem hmem
    obtain ⟨word, hmem, hsame⟩ := List.mem_map.mp hword
    rw [← (Prod.mk.inj hsame).1]
    exact h word hmem
  have hgrown := (link.grown_first hstart).foldl hkinds
  have hwriting := writings_chain hgrown hstart
  have hwritable : ∀ stmt ∈ [Stmt.expression (link.chain start held)], stmt.Writable := by
    intro stmt hmem
    obtain rfl := List.mem_singleton.mp hmem
    exact .expression hgrown.writable
  have hall : (Stmt.writings [.expression (link.chain start held)]).Spelled
      (start :: (before ++ [mark])) := by
    rw [chain, hwriting]
    exact .cons (link.spelled_start hstart)
      (List.rel_append hpieces (.cons (Prod.mk.inj hmark).1 .nil))
  obtain ⟨openings, hprogram, hmeasure⟩ := program_of_writable hwritable hall
  have hallow : Limits.Allow ⟨1, 1⟩ openings := (hmeasure ⟨1, 1⟩).mpr (by
    rw [chain, hwriting]
    exact (by decide : (⟨1, 1⟩ : Limits) ≤ ⟨1, 1⟩))
  refine ⟨start, held, hheld, _, _, openings, htokens, hprogram, fun opening hmem => ?_⟩
  have hwithin := hallow opening hmem
  cases hnesting : opening.nesting <;>
    simp only [Opening.Exceeds, Limits.of, hnesting] at hwithin <;> omega

end Scriptlet
