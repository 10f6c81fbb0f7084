import Scriptlet.Proofs.Grammar.Limits
import Mathlib.Data.List.Forall2

/-!
# Programs written as tokens

A tree is written with as few parentheses as possible. Each form of expression has a rank, from
assignment at the bottom to literals and names at the top, and each place where an expression can
stand needs a rank; an expression is put in parentheses where its own rank is lower. Statements
that may end in a semicolon end in one, and an expression that would start a statement with the
word `print` is put in parentheses.

A tree holds some of its tokens, such as operators and names, and leaves others open, such as
commas and keywords, of which only the kind is given. So what is written is a list of pieces, and
any tokens that fit the pieces will do.

## Main definitions

* `Piece`, `Writing` — a token to be written, and a text with the levels it opens
* `Expr.rank`, `Expr.writing`, `Stmt.writing` — how trees are written
* `Writing.Spelled` — tokens that fit a text
* `Expr.Writable`, `Stmt.Writable` — the trees that a script can stand for

## Implementation notes

The levels that a text opens are counted together with its pieces, because both depend on where
the parentheses are.
-/

namespace Scriptlet

open Grammar

/-! ## Texts -/

/-- A token to be written. -/
inductive Piece where
  /-- A token that a tree holds. -/
  | held (token : Token)
  /-- Some token of a kind. -/
  | mark (kind : TokenKind)
  /-- The decimal numeral of a number. -/
  | numeral (n : Int64)
  /-- A string. -/
  | text (s : String)

namespace Piece

/-- The kind of the token. -/
def kind : Piece → TokenKind
  | held token => token.kind
  | mark kind => kind
  | numeral _ => .number
  | text _ => .string

/-- The token fits the piece. -/
def Spelled : Piece → Token → Prop
  | .held known, token => token = known
  | .mark kind, token => token.kind = kind
  | .numeral n, token => token.kind = .number ∧ token.lexeme = Integer.text n
  | .text s, token => token.kind = .string ∧ token.lexeme = s

instance (piece : Piece) (token : Token) : Decidable (piece.Spelled token) :=
  match piece with
  | .held known => inferInstanceAs (Decidable (token = known))
  | .mark kind => inferInstanceAs (Decidable (token.kind = kind))
  | .numeral n => inferInstanceAs (Decidable (token.kind = .number ∧ token.lexeme = Integer.text n))
  | .text s => inferInstanceAs (Decidable (token.kind = .string ∧ token.lexeme = s))

theorem Spelled.kind_eq {piece : Piece} {token : Token} (h : piece.Spelled token) :
    token.kind = piece.kind := by
  cases piece with
  | held known => exact congrArg Token.kind h
  | mark kind => exact h
  | numeral n => exact h.1
  | text s => exact h.1

end Piece

/-- A text, and how many levels of each kind are open inside each other in it. -/
structure Writing where
  /-- The tokens to be written. -/
  pieces : List Piece
  /-- The levels that are opened. -/
  levels : Limits

namespace Writing

/-- Nothing. -/
def empty : Writing := ⟨[], ⟨0, 0⟩⟩

/-- A single token. -/
def piece (piece : Piece) : Writing := ⟨[piece], ⟨0, 0⟩⟩

/-- A token that a tree holds. -/
def held (token : Token) : Writing := piece (.held token)

/-- Some token of a kind. -/
def mark (kind : TokenKind) : Writing := piece (.mark kind)

/-- One text behind the other. -/
instance : Append Writing where
  append first second := ⟨first.pieces ++ second.pieces, first.levels.max second.levels⟩

/-- A text for which a level is opened. -/
def deeper (nesting : Nesting) (writing : Writing) : Writing :=
  { writing with levels := writing.levels.more nesting }

/-- An expression in parentheses. -/
def parenthesised (writing : Writing) : Writing :=
  mark .leftParen ++ writing.deeper .expression ++ mark .rightParen

/-- An expression of a rank in a place that needs a rank. -/
def placed (writing : Writing) (rank needed : Nat) : Writing :=
  if rank < needed then writing.parenthesised else writing

/-- An expression at the start of a statement, where the word `print` is no name. -/
def guarded (writing : Writing) : Writing :=
  if (writing.pieces.head?.map Piece.kind) = some .kwPrint then writing.parenthesised else writing

/-- Texts with commas between them. -/
def separated : List Writing → Writing
  | [] => empty
  | [writing] => writing
  | writing :: others => writing ++ mark .comma ++ separated others

/-- A text in braces. -/
def braced (writing : Writing) : Writing := mark .leftBrace ++ writing ++ mark .rightBrace

section Levels

variable (first second : Writing)

@[simp] theorem levels_held (token : Token) : (held token).levels = ⟨0, 0⟩ := rfl

@[simp] theorem levels_mark (kind : TokenKind) : (mark kind).levels = ⟨0, 0⟩ := rfl

@[simp] theorem levels_append : (first ++ second).levels = first.levels.max second.levels := rfl

@[simp] theorem levels_deeper (nesting : Nesting) :
    (first.deeper nesting).levels = first.levels.more nesting := rfl

@[simp] theorem levels_parenthesised :
    first.parenthesised.levels = first.levels.more .expression := by
  simp [parenthesised]

@[simp] theorem levels_braced : first.braced.levels = first.levels := by
  simp [braced]

end Levels

/-- Tokens that fit a text. -/
def Spelled (writing : Writing) (tokens : List Token) : Prop :=
  List.Forall₂ Piece.Spelled writing.pieces tokens

instance (writing : Writing) (tokens : List Token) : Decidable (writing.Spelled tokens) :=
  inferInstanceAs (Decidable (List.Forall₂ _ _ _))

section Spelled

variable {first second : Writing} {tokens : List Token}

/-- The tokens of two texts are those of the first and then those of the second. -/
theorem Spelled.append (h : (first ++ second).Spelled tokens) :
    ∃ before after, tokens = before ++ after ∧ first.Spelled before ∧ second.Spelled after := by
  obtain ⟨pieces, levels⟩ := first
  have h : List.Forall₂ Piece.Spelled (pieces ++ second.pieces) tokens := h
  induction pieces generalizing tokens with
  | nil => exact ⟨[], tokens, rfl, .nil, h⟩
  | cons piece pieces ih =>
    obtain ⟨token, rest, hpiece, hrest, rfl⟩ := List.forall₂_cons_left_iff.mp h
    obtain ⟨before, after, rfl, hbefore, hafter⟩ := ih hrest hrest
    exact ⟨token :: before, after, rfl, .cons hpiece hbefore, hafter⟩

theorem Spelled.piece {wanted : Piece} (h : (Writing.piece wanted).Spelled tokens) :
    ∃ token, tokens = [token] ∧ wanted.Spelled token := by
  obtain ⟨token, rest, hpiece, hrest, rfl⟩ := List.forall₂_cons_left_iff.mp h
  cases hrest
  exact ⟨token, rfl, hpiece⟩

theorem Spelled.held {token : Token} (h : (Writing.held token).Spelled tokens) :
    tokens = [token] := by
  obtain ⟨found, rfl, rfl⟩ := Spelled.piece h
  rfl

theorem Spelled.mark {kind : TokenKind} (h : (Writing.mark kind).Spelled tokens) :
    ∃ token, tokens = [token] ∧ token.kind = kind := Spelled.piece h

theorem Spelled.deeper {nesting : Nesting} (h : (first.deeper nesting).Spelled tokens) :
    first.Spelled tokens := h

/-- The first token is of the kind of the first piece. -/
theorem Spelled.head_kind (h : first.Spelled tokens) :
    tokens.head?.map Token.kind = first.pieces.head?.map Piece.kind := by
  obtain ⟨pieces, levels⟩ := first
  cases h with
  | nil => rfl
  | cons hpiece _ => exact congrArg some hpiece.kind_eq

end Spelled

end Writing

/-! ## Expressions -/

/-- How tightly an operator between two operands binds; zero for all that is no such operator. -/
def TokenKind.tightness : TokenKind → Nat
  | .kwOr => 1
  | .kwAnd => 2
  | .equalEqual | .notEqual => 3
  | .less | .lessEqual | .greater | .greaterEqual => 4
  | .plus | .minus => 5
  | .star | .slash => 6
  | _ => 0

/-- The value of a literal. -/
def Literal.writing : Literal → Writing
  | integer n => .piece (.numeral n)
  | string s => .piece (.text s)
  | boolean true => .mark .kwTrue
  | boolean false => .mark .kwFalse
  | absent => .empty

namespace Expr

/-- The rank of an expression: how tightly its outermost form binds. -/
def rank : Expr → Nat
  | assign _ _ => 0
  | binary _ operator _ | logical _ operator _ => operator.kind.tightness
  | unary _ _ => 7
  | call _ _ _ => 8
  | literal _ | var _ => 9

mutual

/-- How an expression is written where no parentheses are needed around it. -/
def writing : Expr → Writing
  | binary left operator right | logical left operator right =>
    left.writing.placed left.rank operator.kind.tightness ++ .held operator ++
      right.writing.placed right.rank (operator.kind.tightness + 1)
  | unary operator operand =>
    .held operator ++ (operand.writing.placed operand.rank 7).deeper .expression
  | literal value => value.writing
  | var name => .held name
  | assign name value => .held name ++ .mark .assign ++ value.writing.deeper .expression
  | call callee paren arguments =>
    callee.writing.placed callee.rank 8 ++ .mark .leftParen ++ .separated (writings arguments) ++
      .held paren

/-- How each of some arguments is written. -/
def writings : List Expr → List Writing
  | [] => []
  | argument :: others => argument.writing.deeper .expression :: writings others

end

/-- An expression that a script can stand for. -/
inductive Writable : Expr → Prop
  | binary {left right : Expr} {operator : Token}
      (isOperator : operator.kind ∈ [TokenKind.equalEqual, .notEqual, .less, .lessEqual, .greater,
        .greaterEqual, .plus, .minus, .star, .slash])
      (hleft : Writable left) (hright : Writable right) : Writable (.binary left operator right)
  | logical {left right : Expr} {operator : Token}
      (isOperator : operator.kind ∈ [TokenKind.kwAnd, .kwOr])
      (hleft : Writable left) (hright : Writable right) : Writable (.logical left operator right)
  | unary {operator : Token} {operand : Expr}
      (isOperator : operator.kind ∈ [TokenKind.kwNot, .minus]) (hoperand : Writable operand) :
      Writable (.unary operator operand)
  | literal {value : Literal} (present : value ≠ .absent) : Writable (.literal value)
  | var {name : Token} (isName : name.kind ∈ [TokenKind.identifier, .kwPrint, .kwInput]) :
      Writable (.var name)
  | assign {name : Token} {value : Expr}
      (isName : name.kind ∈ [TokenKind.identifier, .kwPrint, .kwInput])
      (hvalue : Writable value) : Writable (.assign name value)
  | call {callee : Expr} {paren : Token} {arguments : List Expr} (hcallee : Writable callee)
      (isRight : paren.kind = .rightParen) (harguments : ∀ argument ∈ arguments, Writable argument)
      (count : arguments.length ≤ 255) : Writable (.call callee paren arguments)

end Expr

/-! ## Statements -/

namespace Stmt

mutual

/-- How a statement or a function is written. -/
def writing : Stmt → Writing
  | expression value =>
    (value.writing.guarded.deeper .expression ++ .mark .semicolon).deeper .statement
  | print value =>
    (.mark .kwPrint ++ value.writing.deeper .expression ++ .mark .semicolon).deeper .statement
  | var _ _ => .empty
  | block body => (writings body).braced.deeper .statement
  | branch condition yes none =>
    (.mark .kwIf ++ condition.writing.deeper .expression ++ .mark .kwThen ++ yes.writing).deeper
      .statement
  | branch condition yes (some no) =>
    (.mark .kwIf ++ condition.writing.deeper .expression ++ .mark .kwThen ++ yes.writing ++
      .mark .kwElse ++ no.writing).deeper .statement
  | loop condition body =>
    (.mark .kwWhile ++ condition.writing.deeper .expression ++ .mark .kwDo ++
      body.writing).deeper .statement
  | function name params body =>
    .mark .kwFunction ++ .deeper .statement (.held name ++ .mark .leftParen ++
      .separated (params.map .held) ++ .mark .rightParen ++ (writings body).braced)
  | ret keyword none => (Writing.held keyword ++ .mark .semicolon).deeper .statement
  | ret keyword (some value) =>
    (.held keyword ++ value.writing.deeper .expression ++ .mark .semicolon).deeper .statement

/-- How statements and functions are written one behind the other. -/
def writings : List Stmt → Writing
  | [] => .empty
  | statement :: others => statement.writing ++ writings others

end

/-- Whether a statement is a function. -/
def IsFunction : Stmt → Prop
  | function _ _ _ => True
  | _ => False

/-- Whether a statement ends in a branch that an `else` behind it would belong to. -/
def EndsOpen : Stmt → Prop
  | branch _ _ none => True
  | branch _ _ (some no) => no.EndsOpen
  | loop _ body => body.EndsOpen
  | _ => False

/-- A statement or a function that a script can stand for. -/
inductive Writable : Stmt → Prop
  | expression {value : Expr} (hvalue : value.Writable) : Writable (.expression value)
  | print {value : Expr} (hvalue : value.Writable) : Writable (.print value)
  | block {body : List Stmt} (hbody : ∀ statement ∈ body, Writable statement) :
      Writable (.block body)
  | branch {condition : Expr} {yes : Stmt} (hcondition : condition.Writable)
      (hyes : Writable yes) (plain : ¬ yes.IsFunction) : Writable (.branch condition yes none)
  | branchElse {condition : Expr} {yes no : Stmt} (hcondition : condition.Writable)
      (hyes : Writable yes) (plain : ¬ yes.IsFunction) (closed : ¬ yes.EndsOpen)
      (hno : Writable no) (plainNo : ¬ no.IsFunction) : Writable (.branch condition yes (some no))
  | loop {condition : Expr} {body : Stmt} (hcondition : condition.Writable)
      (hbody : Writable body) (plain : ¬ body.IsFunction) : Writable (.loop condition body)
  | function {name : Token} {params : List Token} {body : List Stmt}
      (isName : name.kind = .identifier) (hparams : ∀ param ∈ params, param.kind = .identifier)
      (count : params.length ≤ 255) (hbody : ∀ statement ∈ body, Writable statement) :
      Writable (.function name params body)
  | ret {keyword : Token} (isReturn : keyword.kind = .kwReturn) : Writable (.ret keyword none)
  | retValue {keyword : Token} {value : Expr} (isReturn : keyword.kind = .kwReturn)
      (hvalue : value.Writable) : Writable (.ret keyword (some value))

end Stmt

end Scriptlet
