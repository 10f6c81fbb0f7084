import Scriptlet.Syntax.Basic

/-!
# Trees with other tokens

Trees keep the tokens that they were read from. To compare trees up to something that tokens say
beyond their kind and spelling, each token of a tree is replaced by another.

## Main definitions

* `Token.unplaced` — a token of which only the kind and the spelling are left
* `Expr.relabel`, `Stmt.relabel` — a tree with each token replaced
* `FunctionDecl.relabel` — a declaration with each token replaced

## Main results

* `Expr.relabel_id`, `Stmt.relabel_id` — replacing tokens by themselves changes nothing
-/

namespace Scriptlet

/-- The token, at no place in particular. -/
def Token.unplaced (token : Token) : Token := { token with location := .unknown }

@[simp] theorem Token.kind_unplaced (token : Token) : token.unplaced.kind = token.kind := rfl

@[simp] theorem Token.lexeme_unplaced (token : Token) : token.unplaced.lexeme = token.lexeme := rfl

/-- Tokens are the same up to places if their kinds and spellings are. -/
theorem Token.unplaced_eq_iff {token token' : Token} :
    token.unplaced = token'.unplaced ↔
      token.kind = token'.kind ∧ token.lexeme = token'.lexeme := by
  simp [Token.unplaced]

namespace Expr

mutual

/-- The expression with each token replaced. -/
def relabel (change : Token → Token) : Expr → Expr
  | binary left operator right =>
    binary (left.relabel change) (change operator) (right.relabel change)
  | logical left operator right =>
    logical (left.relabel change) (change operator) (right.relabel change)
  | unary operator operand => unary (change operator) (operand.relabel change)
  | literal value => literal value
  | var name => var (change name)
  | assign name value => assign (change name) (value.relabel change)
  | call callee paren arguments =>
    call (callee.relabel change) (change paren) (relabelAll change arguments)

/-- Each of some expressions with each token replaced. -/
def relabelAll (change : Token → Token) : List Expr → List Expr
  | [] => []
  | expr :: rest => expr.relabel change :: relabelAll change rest

end

@[simp] theorem relabelAll_eq_map (change : Token → Token) (exprs : List Expr) :
    relabelAll change exprs = exprs.map (relabel change) := by
  induction exprs with
  | nil => rfl
  | cons expr rest ih => rw [relabelAll, ih, List.map_cons]

mutual

theorem relabel_id : ∀ expr : Expr, expr.relabel id = expr
  | binary left operator right => by rw [relabel, relabel_id left, relabel_id right, id]
  | logical left operator right => by rw [relabel, relabel_id left, relabel_id right, id]
  | unary operator operand => by rw [relabel, relabel_id operand, id]
  | literal value => rfl
  | var name => rfl
  | assign name value => by rw [relabel, relabel_id value, id]
  | call callee paren arguments => by rw [relabel, relabel_id callee, relabelAll_id arguments, id]

theorem relabelAll_id : ∀ exprs : List Expr, relabelAll id exprs = exprs
  | [] => rfl
  | expr :: rest => by rw [relabelAll, relabel_id expr, relabelAll_id rest]

end

end Expr

namespace Stmt

mutual

/-- The statement with each token replaced. -/
def relabel (change : Token → Token) : Stmt → Stmt
  | expression value => expression (value.relabel change)
  | print value => print (value.relabel change)
  | var name value? => var (change name) (value?.map (Expr.relabel change))
  | block body => block (relabelAll change body)
  | branch condition yes none => branch (condition.relabel change) (yes.relabel change) none
  | branch condition yes (some no) =>
    branch (condition.relabel change) (yes.relabel change) (some (no.relabel change))
  | loop condition body => loop (condition.relabel change) (body.relabel change)
  | function name params body =>
    function (change name) (params.map change) (relabelAll change body)
  | ret keyword value? => ret (change keyword) (value?.map (Expr.relabel change))

/-- Each of some statements with each token replaced. -/
def relabelAll (change : Token → Token) : List Stmt → List Stmt
  | [] => []
  | stmt :: rest => stmt.relabel change :: relabelAll change rest

end

@[simp] theorem relabelAll_eq_map (change : Token → Token) (stmts : List Stmt) :
    relabelAll change stmts = stmts.map (relabel change) := by
  induction stmts with
  | nil => rfl
  | cons stmt rest ih => rw [relabelAll, ih, List.map_cons]

theorem relabel_branch (change : Token → Token) (condition : Expr) (yes : Stmt)
    (no? : Option Stmt) :
    (branch condition yes no?).relabel change =
      branch (condition.relabel change) (yes.relabel change) (no?.map (relabel change)) := by
  cases no? <;> rw [relabel] <;> rfl

theorem map_relabel_id (value? : Option Expr) : value?.map (Expr.relabel id) = value? := by
  cases value? with
  | none => rfl
  | some value => rw [Option.map_some, Expr.relabel_id]

mutual

theorem relabel_id : ∀ stmt : Stmt, stmt.relabel id = stmt
  | expression value => by rw [relabel, Expr.relabel_id]
  | print value => by rw [relabel, Expr.relabel_id]
  | var name value? => by rw [relabel, map_relabel_id, id]
  | block body => by rw [relabel, relabelAll_id body]
  | branch condition yes none => by rw [relabel, Expr.relabel_id, relabel_id yes]
  | branch condition yes (some no) => by
    rw [relabel, Expr.relabel_id, relabel_id yes, relabel_id no]
  | loop condition body => by rw [relabel, Expr.relabel_id, relabel_id body]
  | function name params body => by rw [relabel, List.map_id, relabelAll_id body, id]
  | ret keyword value? => by rw [relabel, map_relabel_id, id]

theorem relabelAll_id : ∀ stmts : List Stmt, relabelAll id stmts = stmts
  | [] => rfl
  | stmt :: rest => by rw [relabelAll, relabel_id stmt, relabelAll_id rest]

end

end Stmt

/-- The declaration with each token replaced. -/
def FunctionDecl.relabel (change : Token → Token) (decl : FunctionDecl) : FunctionDecl :=
  ⟨change decl.name, decl.params.map change, decl.body.map (Stmt.relabel change)⟩

end Scriptlet
