import Mathlib.Data.List.Basic
import Mathlib.Data.List.Find
import Scriptlet.Proofs.Store.Extension

/-!
# Regions of a store

A region is a set of scopes. It is closed if nothing leads out of it: with a scope it has the scope
around that scope, and the scope of every function that is bound there. Functions may well be bound
in the very scope that they remember, so a region is not built up from the inside; it is given as a
whole, and being closed is a property of it.

Looking up a name and assigning to it, from a scope of a closed region, depends on the region and
changes the region only.

## Main definitions

* `Value.LeadsInto` — a value that leads to no scope outside a region
* `Store.Closed` — a region that nothing leads out of
* `Store.AgreeOn` — two stores with the same scopes in a region

## Main results

* `Store.AgreeOn.get?`, `Store.AgreeOn.target` — names are looked up and assigned to alike
* `Store.Closed.define`, `Store.Closed.add` — regions stay closed
-/

namespace Scriptlet

/-- A value that leads to no scope outside a region: the scope that a function remembers is
inside. -/
def Value.LeadsInto (region : ScopeId → Prop) : Value → Prop
  | .function f => region f.scope
  | _ => True

theorem Value.LeadsInto.mono {region larger : ScopeId → Prop} {value : Value}
    (h : value.LeadsInto region) (hle : ∀ id, region id → larger id) : value.LeadsInto larger := by
  cases value with
  | function f => exact hle _ h
  | _ => trivial

namespace Store

/-- A region of the store that nothing leads out of. -/
structure Closed (region : ScopeId → Prop) (store : Store) : Prop where
  /-- The region consists of scopes of the store. -/
  present : ∀ ⦃id⦄, region id → (store.scope? id).isSome
  /-- The scope around a scope of the region is in the region. -/
  outward : ∀ ⦃id scope outer⦄, region id → store.scope? id = some scope →
    scope.enclosing? = some outer → region outer
  /-- The scope of a function that is bound in the region is in the region. -/
  bound : ∀ ⦃id name value⦄, region id → store.binding? id name = some value →
    value.LeadsInto region

/-- Two stores with the same scopes in a region, and with equally many scopes. -/
structure AgreeOn (region : ScopeId → Prop) (store other : Store) : Prop where
  size : other.scopes.size = store.scopes.size
  scope? : ∀ ⦃id⦄, region id → other.scope? id = store.scope? id

variable {region : ScopeId → Prop} {store other : Store} {id : ScopeId} {name : String}
  {value : Value}

/-! ## Names -/

/-- The way outward from a scope of a closed region stays inside. -/
theorem Closed.mem_chainFrom (h : store.Closed region) {count : Nat} {found : ScopeId}
    (hid : region id) (hfound : found ∈ store.chainFrom count id) : region found := by
  induction count generalizing id with
  | zero => cases hfound
  | succ count ih =>
    rw [chainFrom] at hfound
    cases hscope : store.scope? id with
    | none =>
      rw [hscope] at hfound
      cases hfound
    | some scope =>
      cases hlink : scope.enclosing? with
      | none =>
        simp only [hscope, hlink, List.mem_singleton] at hfound
        exact hfound ▸ hid
      | some outer =>
        simp only [hscope, hlink, List.mem_cons] at hfound
        rcases hfound with rfl | hfound
        · exact hid
        · exact ih (h.outward hid hscope hlink) hfound

theorem Closed.get? (h : store.Closed region) (hid : region id)
    (hvalue : store.get? id name = some value) : value.LeadsInto region := by
  obtain ⟨found, hfound, hbinding⟩ := List.exists_of_findSome?_eq_some hvalue
  exact h.bound (h.mem_chainFrom hid hfound) hbinding

theorem Closed.target (h : store.Closed region) (hid : region id) (name : String) :
    region (store.target id name) := by
  unfold Store.target
  cases hfind : (store.chain id).find? fun id => store.binds id name with
  | none => exact hid
  | some found => exact h.mem_chainFrom hid (List.mem_of_find?_eq_some hfind)

namespace AgreeOn

theorem binding? (h : store.AgreeOn region other) (hid : region id) (name : String) :
    other.binding? id name = store.binding? id name := by
  unfold Store.binding?
  rw [h.scope? hid]

theorem chainFrom (h : store.AgreeOn region other) (hclosed : store.Closed region) (hid : region id)
    (count : Nat) : other.chainFrom count id = store.chainFrom count id := by
  induction count generalizing id with
  | zero => rfl
  | succ count ih =>
    rw [Store.chainFrom, Store.chainFrom, h.scope? hid]
    cases hscope : store.scope? id with
    | none => rfl
    | some scope =>
      cases hlink : scope.enclosing? with
      | none => simp only [hlink]
      | some outer => simp only [hlink, ih (hclosed.outward hid hscope hlink)]

/-- A name is looked up alike. -/
theorem get? (h : store.AgreeOn region other) (hclosed : store.Closed region) (hid : region id)
    (name : String) : other.get? id name = store.get? id name := by
  unfold Store.get? chain
  rw [h.chainFrom hclosed hid, ← List.head?_filterMap, ← List.head?_filterMap]
  refine congrArg List.head? (List.filterMap_congr fun found hfound => ?_)
  exact h.binding? (hclosed.mem_chainFrom hid hfound) name

/-- A name is assigned to alike. -/
theorem target (h : store.AgreeOn region other) (hclosed : store.Closed region) (hid : region id)
    (name : String) : other.target id name = store.target id name := by
  unfold Store.target chain
  rw [h.chainFrom hclosed hid]
  refine congrArg (Option.getD · id) (List.find?_congr fun found hfound => ?_)
  unfold binds
  rw [h.binding? (hclosed.mem_chainFrom hid hfound)]

end AgreeOn

/-! ## Binding a name -/

theorem scope?_define_of_ne {target : ScopeId} (h : target ≠ id) (name : String) (value : Value) :
    (store.define target name value).scope? id = store.scope? id := by
  rw [scope?_define]
  simp [h]

theorem size_define (store : Store) (id : ScopeId) (name : String) (value : Value) :
    (store.define id name value).scopes.size = store.scopes.size := Array.size_modify

/-- A value that is bound was just bound or was bound before. -/
theorem eq_or_of_binding?_define {target : ScopeId} {wanted : String} {result : Value}
    (h : (store.define target name value).binding? id wanted = some result) :
    target = id ∧ result = value ∨ store.binding? id wanted = some result := by
  by_cases htarget : target = id
  · subst htarget
    have hpresent : (store.scope? target).isSome := by
      unfold Store.binding? at h
      rw [scope?_define] at h
      cases hscope : store.scope? target with
      | none => simp [hscope] at h
      | some scope => rfl
    rw [binding?_define _ _ _ _ _ _ hpresent] at h
    split at h
    · exact .inl ⟨rfl, (Option.some.inj h).symm⟩
    · exact .inr h
  · unfold Store.binding? at h ⊢
    rw [scope?_define_of_ne htarget] at h
    exact .inr h

theorem AgreeOn.define (h : store.AgreeOn region other) (id : ScopeId) (name : String)
    (value : Value) :
    (store.define id name value).AgreeOn region (other.define id name value) := by
  refine ⟨?_, ?_⟩
  · rw [size_define, size_define, h.size]
  · intro found hfound
    rw [scope?_define, scope?_define, h.scope? hfound]

theorem Closed.define (h : store.Closed region) (id : ScopeId) (name : String)
    (hvalue : region id → value.LeadsInto region) : (store.define id name value).Closed region := by
  refine ⟨?_, ?_, ?_⟩
  · intro found hfound
    rw [scope?_define, Option.isSome_map]
    exact h.present hfound
  · intro found scope outer hfound hscope hlink
    rw [scope?_define, Option.map_eq_some_iff] at hscope
    obtain ⟨old, hold, rfl⟩ := hscope
    refine h.outward hfound hold ?_
    rw [← hlink]
    split <;> rfl
  · intro found wanted result hfound hresult
    rcases eq_or_of_binding?_define hresult with ⟨rfl, rfl⟩ | hresult
    · exact hvalue hfound
    · exact h.bound hfound hresult

/-! ## New scopes -/

theorem scope?_add_of_ne {enclosing? : Option ScopeId} (h : id ≠ (store.add enclosing?).1) :
    (store.add enclosing?).2.scope? id = store.scope? id := by
  rw [scope?_add, if_neg h]

/-- Nothing is bound in a new scope. -/
theorem of_binding?_add {enclosing? : Option ScopeId}
    (h : (store.add enclosing?).2.binding? id name = some value) :
    id ≠ (store.add enclosing?).1 ∧ store.binding? id name = some value := by
  unfold Store.binding? at h
  rw [scope?_add] at h
  split at h
  · simp at h
  · next hnew => exact ⟨hnew, h⟩

theorem AgreeOn.fst_add (h : store.AgreeOn region other) (enclosing? : Option ScopeId) :
    (other.add enclosing?).1 = (store.add enclosing?).1 := h.size

theorem AgreeOn.add (h : store.AgreeOn region other) (enclosing? : Option ScopeId) :
    (store.add enclosing?).2.AgreeOn (fun id => region id ∨ id = (store.add enclosing?).1)
      (other.add enclosing?).2 := by
  refine ⟨?_, ?_⟩
  · simp [Store.add, h.size]
  · intro id hid
    rw [scope?_add, scope?_add, h.fst_add]
    split
    · rfl
    · next hnew => exact h.scope? (hid.resolve_right hnew)

theorem Closed.add (h : store.Closed region) {outer : ScopeId} (houter : region outer) :
    (store.add (some outer)).2.Closed fun id => region id ∨ id = (store.add (some outer)).1 := by
  refine ⟨?_, ?_, ?_⟩
  · intro id hid
    rw [scope?_add]
    split
    · rfl
    · next hnew => exact h.present (hid.resolve_right hnew)
  · intro id scope found hid hscope hlink
    rw [scope?_add] at hscope
    split at hscope
    · obtain rfl := Option.some.inj hscope
      exact .inl (Option.some.inj hlink ▸ houter)
    · next hnew => exact .inl (h.outward (hid.resolve_right hnew) hscope hlink)
  · intro id name value hid hvalue
    obtain ⟨hnew, hold⟩ := of_binding?_add hvalue
    exact (h.bound (hid.resolve_right hnew) hold).mono fun _ => .inl

end Store

end Scriptlet
