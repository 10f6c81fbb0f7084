import Std.Data.TreeMap
import Scriptlet.Value.Basic

/-!
# Scopes that share bindings

A scope binds names to values and may be enclosed by another scope. All scopes live in one store
and refer to each other by number, so several functions can share a scope and change what the
others see. Scopes are only ever added, and a new scope is enclosed only by one that is already
there; the chain from a scope outward therefore ends.

A name is looked up along the chain, innermost scope first. An assignment changes the nearest
binding of its name, and adds a binding to the scope it starts from if there is none.

## Main definitions

* `Scope`, `Store` — one scope, and all of them
* `Store.openOutermost`, `Store.openEnclosed` — new scopes
* `Store.chain` — the scopes in which a name is looked up, innermost first
* `Store.get?`, `Store.define`, `Store.assign` — looking up and binding
* `Store.target` — the scope whose binding an assignment changes
* `Store.depth`, `Store.names`, `Store.listing`, `Store.describe` — what a scope looks like from
  outside

## Main results

* `Store.binding?_define` — what binding a name does to the bindings
* `Store.chain_define` — binding a name leaves the way outward as it is
-/

namespace Scriptlet

/-- The bindings of a scope, and the scope around it. -/
structure Scope where
  /-- The values bound here, in the order of their names. -/
  bindings : Std.TreeMap String Value := ∅
  /-- The scope around this one; an outermost scope has none. -/
  enclosing? : Option ScopeId := none
deriving Inhabited

/-- All scopes that were ever opened. -/
structure Store where
  /-- The scopes, each at the place that its number names. -/
  scopes : Array Scope := #[]
deriving Inhabited

namespace Store

/-! ## Scopes -/

/-- A scope of the store. -/
def scope? (store : Store) (id : ScopeId) : Option Scope := store.scopes[id]?

/-- Adds an empty scope. -/
def add (store : Store) (enclosing? : Option ScopeId) : ScopeId × Store :=
  (store.scopes.size, ⟨store.scopes.push ⟨∅, enclosing?⟩⟩)

/-- Adds an empty scope that no other encloses. -/
def openOutermost (store : Store) : ScopeId × Store := store.add none

/-- Adds an empty scope inside another. -/
def openEnclosed (store : Store) (enclosing : ScopeId) : ScopeId × Store :=
  store.add (some enclosing)

/-- The first scopes on the way outward from a scope, at most as many as stated. -/
def chainFrom (store : Store) : Nat → ScopeId → List ScopeId
  | 0, _ => []
  | count + 1, id =>
    match store.scope? id with
    | none => []
    | some scope =>
      match scope.enclosing? with
      | none => [id]
      | some enclosing => id :: store.chainFrom count enclosing

/-- The scopes on the way outward from a scope, that scope first. An enclosing scope has a
smaller number, so there are not more of them than the number of the scope says. -/
def chain (store : Store) (id : ScopeId) : List ScopeId := store.chainFrom (id + 1) id

/-- How many scopes are on the way outward from a scope, itself included. -/
def depth (store : Store) (id : ScopeId) : Nat := (store.chain id).length

/-! ## Bindings -/

/-- The value that a scope itself binds to a name. -/
def binding? (store : Store) (id : ScopeId) (name : String) : Option Value :=
  (store.scope? id).bind fun scope => scope.bindings[name]?

/-- Whether a scope itself binds a name. -/
def binds (store : Store) (id : ScopeId) (name : String) : Bool :=
  (store.binding? id name).isSome

/-- The value of a name as seen from a scope. -/
def get? (store : Store) (id : ScopeId) (name : String) : Option Value :=
  (store.chain id).findSome? fun id => store.binding? id name

/-- Binds a name in a scope, whatever was bound to it there. -/
def define (store : Store) (id : ScopeId) (name : String) (value : Value) : Store :=
  ⟨store.scopes.modify id fun scope =>
    { scope with bindings := scope.bindings.insert name value }⟩

/-- The scope in which an assignment binds a name: the nearest that already does, else the scope
that the assignment starts from. -/
def target (store : Store) (id : ScopeId) (name : String) : ScopeId :=
  ((store.chain id).find? fun id => store.binds id name).getD id

/-- Changes the nearest binding of a name, or adds one to the scope that the assignment starts
from. -/
def assign (store : Store) (id : ScopeId) (name : String) (value : Value) : Store :=
  store.define (store.target id name) name value

/-! ## What binding a name changes -/

/-- Binding a name changes the bindings of one scope and nothing else. -/
theorem scope?_define (store : Store) (id other : ScopeId) (name : String) (value : Value) :
    (store.define id name value).scope? other =
      (store.scope? other).map fun scope =>
        if id = other then { scope with bindings := scope.bindings.insert name value }
        else scope := by
  unfold define scope?
  rw [Array.getElem?_modify]
  split
  · rfl
  · exact Option.map_id'.symm

/-- **What binding a name does to the bindings.** Only that name in that scope is affected. -/
theorem binding?_define (store : Store) (id other : ScopeId) (name wanted : String)
    (value : Value) (h : (store.scope? id).isSome) :
    (store.define id name value).binding? other wanted =
      if id = other ∧ name = wanted then some value else store.binding? other wanted := by
  unfold binding?
  rw [scope?_define]
  by_cases hid : id = other
  · subst hid
    obtain ⟨scope, hscope⟩ := Option.isSome_iff_exists.1 h
    by_cases hname : name = wanted
    · simp [hscope, hname]
    · simp [hscope, hname, Std.TreeMap.getElem?_insert]
  · cases hother : store.scope? other <;> simp [hid]

/-- Binding a name leaves the way outward as it is. -/
@[simp] theorem chainFrom_define (store : Store) (id : ScopeId) (name : String) (value : Value)
    (count : Nat) (start : ScopeId) :
    (store.define id name value).chainFrom count start = store.chainFrom count start := by
  induction count generalizing start with
  | zero => rfl
  | succ count ih =>
    rw [chainFrom, chainFrom, scope?_define]
    cases hstart : store.scope? start with
    | none => rfl
    | some scope =>
      have link : (if id = start then
          { scope with bindings := scope.bindings.insert name value } else scope).enclosing? =
          scope.enclosing? := by
        split <;> rfl
      simp only [Option.map_some, link, ih]

@[simp] theorem chain_define (store : Store) (id : ScopeId) (name : String) (value : Value)
    (start : ScopeId) : (store.define id name value).chain start = store.chain start :=
  chainFrom_define ..

@[simp] theorem depth_define (store : Store) (id : ScopeId) (name : String) (value : Value)
    (start : ScopeId) : (store.define id name value).depth start = store.depth start := by
  simp [depth]

/-! ## Descriptions -/

/-- The names that a scope itself binds, in increasing order. -/
def names (store : Store) (id : ScopeId) : List String :=
  ((store.scope? id).map fun scope => scope.bindings.keys).getD []

/-- The line that lists names and a depth. -/
def listing (names : List String) (depth : Nat) : String :=
  "Environment \x7b names: [" ++ ", ".intercalate (names.map Text.quoted) ++ "], depth: " ++
    toString depth ++ " \x7d"

/-- The line that describes a scope: the names it binds itself, and its depth. -/
def describe (store : Store) (id : ScopeId) : String := listing (store.names id) (store.depth id)

end Store

end Scriptlet
