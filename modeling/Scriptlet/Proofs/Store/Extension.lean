import Scriptlet.Store

/-!
# Stores that grow

A store grows by new scopes and by new bindings. No scope and no binding is ever lost, and no scope
is ever moved to another place in a chain. Which of the scopes that were there may have got new
names is part of the statement; all the others bind the names they did.

## Main definitions

* `Store.Extends` — a store that another has grown into, with new names in some scopes only

## Main results

* `Store.extends_define`, `Store.extends_assign`, `Store.extends_add` — the operations on a store
* `Store.Extends.of_add` — what happens in a new scope leaves the names of all others alone
* `Store.Extends.isSome_get?` — a name that has a value keeps having one
-/

namespace Scriptlet

namespace Store

/-- The second store has grown out of the first. Of the scopes that were there, only those that are
owned may bind names that they did not bind. -/
structure Extends (owned : ScopeId → Prop) (before after : Store) : Prop where
  /-- Every scope is still there, inside the same scope. -/
  link : ∀ ⦃id scope⦄, before.scope? id = some scope →
    ∃ later, after.scope? id = some later ∧ later.enclosing? = scope.enclosing?
  /-- Every name that a scope bound it still binds. -/
  kept : ∀ ⦃id name⦄, before.binds id name = true → after.binds id name = true
  /-- A scope that was there and is not owned binds no other names. -/
  added : ∀ ⦃id name⦄, (before.scope? id).isSome → ¬ owned id → after.binds id name = true →
    before.binds id name = true

namespace Extends

variable {owned other : ScopeId → Prop} {before middle after : Store}

theorem refl (owned : ScopeId → Prop) (store : Store) : store.Extends owned store :=
  ⟨fun _ scope h => ⟨scope, h, rfl⟩, fun _ _ h => h, fun _ _ _ _ h => h⟩

theorem isSome (h : before.Extends owned after) {id : ScopeId} (hid : (before.scope? id).isSome) :
    (after.scope? id).isSome := by
  obtain ⟨scope, hscope⟩ := Option.isSome_iff_exists.mp hid
  obtain ⟨later, hlater, _⟩ := h.link hscope
  exact Option.isSome_iff_exists.mpr ⟨later, hlater⟩

theorem trans (first : before.Extends owned middle) (second : middle.Extends owned after) :
    before.Extends owned after := by
  refine ⟨?_, fun _ _ h => second.kept (first.kept h), ?_⟩
  · intro id scope hscope
    obtain ⟨moved, hmoved, hlink⟩ := first.link hscope
    obtain ⟨later, hlater, hlink'⟩ := second.link hmoved
    exact ⟨later, hlater, hlink'.trans hlink⟩
  · intro id name hid howned hbinds
    exact first.added hid howned (second.added (first.isSome hid) howned hbinds)

theorem mono (h : before.Extends owned after) (hle : ∀ id, owned id → other id) :
    before.Extends other after :=
  ⟨h.link, h.kept, fun _ _ hid hother => h.added hid fun howned => hother (hle _ howned)⟩

end Extends

/-! ## The operations on a store -/

/-- Binding a name adds that name to that scope, if there is such a scope. -/
theorem binds_define {store : Store} {id other : ScopeId} {name wanted : String} {value : Value} :
    (store.define id name value).binds other wanted = true ↔
      store.binds other wanted = true ∨
        (store.scope? other).isSome ∧ id = other ∧ name = wanted := by
  unfold binds binding?
  rw [scope?_define]
  cases hother : store.scope? other with
  | none => simp
  | some scope =>
    by_cases hid : id = other
    · by_cases hname : name = wanted
      · simp [hid, hname]
      · simp [hid, hname, Std.TreeMap.getElem?_insert]
    · simp [hid]

theorem extends_define (store : Store) (id : ScopeId) (name : String) (value : Value) :
    store.Extends (· = id) (store.define id name value) := by
  refine ⟨?_, fun _ _ h => binds_define.mpr (.inl h), ?_⟩
  · intro other scope hscope
    rw [scope?_define, hscope]
    exact ⟨_, rfl, by split <;> rfl⟩
  · intro other wanted _ howned hbinds
    rcases binds_define.mp hbinds with h | ⟨_, hid, _⟩
    · exact h
    · exact absurd hid.symm howned

/-- Binding a name again adds nothing. -/
theorem extends_define_of_binds {store : Store} {id : ScopeId} {name : String}
    (h : store.binds id name = true) (owned : ScopeId → Prop) (value : Value) :
    store.Extends owned (store.define id name value) := by
  obtain ⟨hlink, hkept, _⟩ := store.extends_define id name value
  refine ⟨hlink, hkept, ?_⟩
  intro other wanted _ _ hbinds
  rcases binds_define.mp hbinds with hbefore | ⟨_, rfl, rfl⟩
  · exact hbefore
  · exact h

/-- An assignment adds a name to the scope that it starts from, or none. -/
theorem extends_assign (store : Store) (id : ScopeId) (name : String) (value : Value) :
    store.Extends (· = id) (store.assign id name value) := by
  unfold assign target
  cases hfind : (store.chain id).find? fun id => store.binds id name with
  | none => exact store.extends_define id name value
  | some found =>
    have hbinds : store.binds found name = true := by
      simpa using List.find?_some hfind
    exact extends_define_of_binds hbinds _ value

/-! ## New scopes -/

theorem scope?_add (store : Store) (enclosing? : Option ScopeId) (id : ScopeId) :
    (store.add enclosing?).2.scope? id =
      if id = (store.add enclosing?).1 then some ⟨∅, enclosing?⟩ else store.scope? id :=
  Array.getElem?_push

/-- The number of a new scope was not in use. -/
theorem scope?_add_fst (store : Store) (enclosing? : Option ScopeId) :
    store.scope? (store.add enclosing?).1 = none :=
  Array.getElem?_eq_none (Nat.le_refl _)

theorem extends_add (store : Store) (enclosing? : Option ScopeId) (owned : ScopeId → Prop) :
    store.Extends owned (store.add enclosing?).2 := by
  have hsame : ∀ ⦃id⦄, (store.scope? id).isSome →
      (store.add enclosing?).2.scope? id = store.scope? id := by
    intro id hid
    rw [scope?_add, if_neg]
    rintro rfl
    rw [scope?_add_fst] at hid
    cases hid
  refine ⟨?_, ?_, ?_⟩
  · intro id scope hscope
    exact ⟨scope, (hsame (Option.isSome_iff_exists.mpr ⟨scope, hscope⟩)).trans hscope, rfl⟩
  · intro id name hbinds
    have hid : (store.scope? id).isSome := by
      unfold binds binding? at hbinds
      cases hscope : store.scope? id with
      | none => simp [hscope] at hbinds
      | some scope => rfl
    unfold binds binding? at hbinds ⊢
    rwa [hsame hid]
  · intro id name hid _ hbinds
    unfold binds binding? at hbinds ⊢
    rwa [hsame hid] at hbinds

/-- What adds names to a new scope only adds none to the scopes that were there. -/
theorem Extends.of_add {store after : Store} {enclosing? : Option ScopeId}
    (h : (store.add enclosing?).2.Extends (· = (store.add enclosing?).1) after)
    (owned : ScopeId → Prop) : store.Extends owned after := by
  have hadd := store.extends_add enclosing? owned
  refine ⟨?_, fun _ _ hbinds => h.kept (hadd.kept hbinds), ?_⟩
  · intro id scope hscope
    obtain ⟨moved, hmoved, hlink⟩ := hadd.link hscope
    obtain ⟨later, hlater, hlink'⟩ := h.link hmoved
    exact ⟨later, hlater, hlink'.trans hlink⟩
  · intro id name hid howned hbinds
    have hnew : id ≠ (store.add enclosing?).1 := by
      rintro rfl
      rw [scope?_add_fst] at hid
      cases hid
    exact hadd.added hid howned (h.added (hadd.isSome hid) hnew hbinds)

/-! ## Names that have a value -/

/-- The way outward from a scope is not changed; at most it goes on where it ended. -/
theorem Extends.chainFrom_subset {owned : ScopeId → Prop} {before after : Store}
    (h : before.Extends owned after) (count : Nat) (id : ScopeId) :
    before.chainFrom count id ⊆ after.chainFrom count id := by
  induction count generalizing id with
  | zero => exact List.Subset.refl _
  | succ count ih =>
    rw [chainFrom, chainFrom]
    cases hscope : before.scope? id with
    | none => exact List.nil_subset _
    | some scope =>
      obtain ⟨later, hlater, hlink⟩ := h.link hscope
      simp only [hlater, hlink]
      cases scope.enclosing? with
      | none => exact List.Subset.refl _
      | some enclosing => exact List.cons_subset_cons id (ih enclosing)

/-- **A name that has a value keeps having one**, as seen from the same scope. -/
theorem Extends.isSome_get? {owned : ScopeId → Prop} {before after : Store}
    (h : before.Extends owned after) {id : ScopeId} {name : String}
    (hvalue : (before.get? id name).isSome) : (after.get? id name).isSome := by
  unfold get? at hvalue ⊢
  rw [List.findSome?_isSome_iff] at hvalue ⊢
  obtain ⟨found, hfound, hbinding⟩ := hvalue
  exact ⟨found, h.chainFrom_subset (id + 1) id hfound, h.kept hbinding⟩

end Store

end Scriptlet
