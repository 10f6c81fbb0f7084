import Scriptlet.Proofs.Store.Region
import Scriptlet.Proofs.Syntax.Relabel
import Scriptlet.Value.Operator

/-!
# Values and stores up to places

A function holds the tree it was declared with, and so the places of all tokens in it. Here values
are compared with these places erased, and stores binding by binding: a scope binds the same names
to values that are the same up to places, inside the same scope. Operators, names and assignments
do not see the difference.

## Main definitions

* `Value.unplaced` — a value with the places in its tree erased
* `Scope.Alike`, `Store.Alike` — scopes and stores with the same bindings up to places

## Main results

* `Value.unary_congr`, `Value.binary_congr` — operators do not look at places
* `Store.Alike.get?`, `Store.Alike.target`, `Store.Alike.names` — nor do names
* `Store.Alike.define`, `Store.Alike.add` — stores stay alike
-/

namespace Scriptlet

namespace Value

/-- The value with the places of all tokens in its tree erased. -/
def unplaced : Value → Value
  | function f => function { f with declaration := f.declaration.relabel Token.unplaced }
  | other => other

@[simp] theorem typeName_unplaced (value : Value) : value.unplaced.typeName = value.typeName := by
  cases value <;> rfl

@[simp] theorem text_unplaced (value : Value) : value.unplaced.text = value.text := by
  cases value <;> rfl

@[simp] theorem beq_unplaced (a b : Value) : (a.unplaced == b.unplaced) = (a == b) := by
  cases a <;> cases b <;> rfl

theorem unary_unplaced (operator : Token) (operand : Value) :
    unary operator.unplaced operand.unplaced = unary operator operand := by
  cases operand <;> rfl

/-- An operator in front of its operand does not look at places. -/
theorem unary_congr {operator operator' : Token} {operand operand' : Value}
    (hoperator : operator.unplaced = operator'.unplaced)
    (hoperand : operand.unplaced = operand'.unplaced) :
    unary operator operand = unary operator' operand' := by
  rw [← unary_unplaced, hoperator, hoperand, unary_unplaced]

theorem binary_unplaced (operator : Token) (a b : Value) :
    binary operator.unplaced a.unplaced b.unplaced = binary operator a b := by
  simp only [binary, Token.kind_unplaced, Token.lexeme_unplaced, beq_unplaced, bne,
    typeName_unplaced]
  cases a <;> cases b <;> rfl

/-- An operator with two operands does not look at places. -/
theorem binary_congr {operator operator' : Token} {a a' b b' : Value}
    (hoperator : operator.unplaced = operator'.unplaced) (ha : a.unplaced = a'.unplaced)
    (hb : b.unplaced = b'.unplaced) : binary operator a b = binary operator' a' b' := by
  rw [← binary_unplaced, hoperator, ha, hb, binary_unplaced]

end Value

/-! ## Scopes -/

/-- Scopes inside the same scope that bind the same names to values that are the same up to
places. -/
structure Scope.Alike (scope other : Scope) : Prop where
  enclosing? : scope.enclosing? = other.enclosing?
  bindings : ∀ name : String,
    scope.bindings[name]?.map Value.unplaced = other.bindings[name]?.map Value.unplaced

namespace Scope.Alike

variable {scope other : Scope}

theorem refl (scope : Scope) : scope.Alike scope := ⟨rfl, fun _ => rfl⟩

/-- The same names are bound, in the same order. -/
theorem keys (h : scope.Alike other) : scope.bindings.keys = other.bindings.keys := by
  have hequiv : (scope.bindings.map fun _ => Value.unplaced).Equiv
      (other.bindings.map fun _ => Value.unplaced) := by
    refine .of_forall_constGet?_eq fun name => ?_
    rw [Std.TreeMap.getElem?_map, Std.TreeMap.getElem?_map]
    exact h.bindings name
  have hkeys := hequiv.keys_eq
  rwa [Std.TreeMap.keys_map, Std.TreeMap.keys_map] at hkeys

theorem insert {value value' : Value} (h : scope.Alike other) (name : String)
    (hvalue : value.unplaced = value'.unplaced) :
    Scope.Alike { scope with bindings := scope.bindings.insert name value }
      { other with bindings := other.bindings.insert name value' } := by
  refine ⟨h.enclosing?, fun wanted => ?_⟩
  rw [Std.TreeMap.getElem?_insert, Std.TreeMap.getElem?_insert]
  split
  · exact congrArg some hvalue
  · exact h.bindings wanted

end Scope.Alike

/-! ## Stores -/

namespace Store

/-- Stores with the same scopes up to places. -/
structure Alike (store other : Store) : Prop where
  size : store.scopes.size = other.scopes.size
  scope? : ∀ id, Option.Rel Scope.Alike (store.scope? id) (other.scope? id)

namespace Alike

variable {store other : Store}

theorem refl (store : Store) : store.Alike store := by
  refine ⟨rfl, fun id => ?_⟩
  cases store.scope? id with
  | none => exact .none
  | some scope => exact .some (.refl scope)

theorem binding? (h : store.Alike other) (id : ScopeId) (name : String) :
    (store.binding? id name).map Value.unplaced =
      (other.binding? id name).map Value.unplaced := by
  have hscope := h.scope? id
  rw [Store.binding?, Store.binding?]
  generalize store.scope? id = scope?, other.scope? id = scope?' at hscope
  cases hscope with
  | none => rfl
  | some hscope => exact hscope.bindings name

theorem binds (h : store.Alike other) (id : ScopeId) (name : String) :
    store.binds id name = other.binds id name := by
  have hbinding := congrArg Option.isSome (h.binding? id name)
  rwa [Option.isSome_map, Option.isSome_map] at hbinding

theorem chainFrom (h : store.Alike other) (count : Nat) (id : ScopeId) :
    store.chainFrom count id = other.chainFrom count id := by
  induction count generalizing id with
  | zero => rfl
  | succ count ih =>
    have hscope := h.scope? id
    rw [Store.chainFrom, Store.chainFrom]
    generalize store.scope? id = scope?, other.scope? id = scope?' at hscope
    cases hscope with
    | none => rfl
    | some hscope => simp only [hscope.enclosing?, ih]

theorem chain (h : store.Alike other) (id : ScopeId) : store.chain id = other.chain id :=
  h.chainFrom (id + 1) id

/-- A name is looked up alike. -/
theorem get? (h : store.Alike other) (id : ScopeId) (name : String) :
    (store.get? id name).map Value.unplaced = (other.get? id name).map Value.unplaced := by
  rw [Store.get?, Store.get?, List.map_findSome?, List.map_findSome?, h.chain]
  exact congrArg (List.findSome? · _) (funext fun found => h.binding? found name)

/-- A name is assigned to alike. -/
theorem target (h : store.Alike other) (id : ScopeId) (name : String) :
    store.target id name = other.target id name := by
  have hbinds : (fun id => store.binds id name) = fun id => other.binds id name :=
    funext fun found => h.binds found name
  rw [Store.target, Store.target, h.chain, hbinds]

/-- The same names are bound in a scope, in the same order. -/
theorem names (h : store.Alike other) (id : ScopeId) : store.names id = other.names id := by
  have hscope := h.scope? id
  rw [Store.names, Store.names]
  generalize store.scope? id = scope?, other.scope? id = scope?' at hscope
  cases hscope with
  | none => rfl
  | some hscope => exact hscope.keys

/-! ## Changes -/

theorem define {value value' : Value} (h : store.Alike other) (id : ScopeId) (name : String)
    (hvalue : value.unplaced = value'.unplaced) :
    (store.define id name value).Alike (other.define id name value') := by
  refine ⟨?_, fun found => ?_⟩
  · rw [size_define, size_define, h.size]
  · have hscope := h.scope? found
    rw [scope?_define, scope?_define]
    generalize store.scope? found = scope?, other.scope? found = scope?' at hscope
    cases hscope with
    | none => exact .none
    | some hscope =>
      refine .some ?_
      split
      · exact hscope.insert name hvalue
      · exact hscope

theorem fst_add (h : store.Alike other) (enclosing? : Option ScopeId) :
    (store.add enclosing?).1 = (other.add enclosing?).1 := h.size

theorem add (h : store.Alike other) (enclosing? : Option ScopeId) :
    (store.add enclosing?).2.Alike (other.add enclosing?).2 := by
  refine ⟨?_, fun id => ?_⟩
  · simp [Store.add, h.size]
  · rw [scope?_add, scope?_add, h.fst_add]
    split
    · exact .some (.refl _)
    · exact h.scope? id

end Alike

end Store

end Scriptlet
