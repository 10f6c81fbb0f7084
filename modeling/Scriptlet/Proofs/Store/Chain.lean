import Mathlib.Logic.Relation
import Scriptlet.Proofs.Store.Region

/-!
# The way outward ends

A store is built from nothing by opening scopes and by binding names. The number of a new scope is
larger than all that are in use, and it is enclosed by a scope that is there, so every link leads to
a scope that was opened earlier. No operation changes a link. Functions may be bound in the very
scope that they remember, but the way outward only follows links and does not look at values.

The operations that go along a chain are bounded by the number of the scope they start from. Here
stands what they do without such a bound: a walk outward, scope by scope, up to the first that is
wanted. That there is such a walk from every scope is what ending means.

## Main definitions

* `Store.Step`, `Store.Becomes`, `Store.Reachable` — what can be done to a store, and what comes
  of it
* `Store.Grounded` — links lead to smaller numbers
* `Store.Walk` — the way outward up to the first scope that is wanted
* `Store.Founded`, `Store.Kept` — what this says about one store, and about an earlier and a later

## Main results

* `Store.Reachable.grounded` — so they do in every store that is built from nothing
* `Store.Grounded.exists_walk` — every walk ends
* `Store.Walk.get?_eq`, `Store.Walk.target_eq`, `Store.Walk.depth_eq` — what looking up a name,
  assigning to it and counting scopes have to do with walks
* `Store.Extends.depth_eq`, `Store.Grounded.depth_openEnclosed`, `Store.Grounded.depth_eq_one_iff` —
  how deep a scope is
* `Store.Grounded.founded`, `Store.Becomes.kept` — all of it together
-/

namespace Scriptlet

namespace Store

/-- A scope that is in the store. -/
abbrev Present (store : Store) (id : ScopeId) : Prop := (store.scope? id).isSome

/-- The numbers in use are those below the next one. -/
theorem present_iff {store : Store} {id : ScopeId} : store.Present id ↔ id < store.scopes.size := by
  simp [Present, scope?]

theorem present_add (store : Store) (enclosing? : Option ScopeId) :
    (store.add enclosing?).2.Present (store.add enclosing?).1 := by
  rw [Present, scope?_add, if_pos rfl]
  rfl

/-! ## What can be done to a store -/

/-- One thing that can be done to a store. -/
inductive Step (store : Store) : Store → Prop
  | openOutermost : Step store store.openOutermost.2
  | openEnclosed {outer : ScopeId} : store.Present outer → Step store (store.openEnclosed outer).2
  | define {id : ScopeId} (name : String) (value : Value) :
      store.Present id → Step store (store.define id name value)

/-- The second store comes of the first, one thing being done after the other. -/
def Becomes : Store → Store → Prop := Relation.ReflTransGen Step

/-- A store that is built from nothing. -/
def Reachable (store : Store) : Prop := Store.Becomes {} store

theorem Step.extends {store after : Store} (h : store.Step after) :
    store.Extends (fun _ => True) after := by
  cases h with
  | openOutermost => exact store.extends_add none _
  | openEnclosed _ => exact store.extends_add _ _
  | define name value _ => exact (store.extends_define _ name value).mono fun _ _ => trivial

theorem Becomes.extends {store after : Store} (h : store.Becomes after) :
    store.Extends (fun _ => True) after := by
  induction h with
  | refl => exact .refl _ store
  | tail _ hstep ih => exact ih.trans hstep.extends

theorem Becomes.present {store after : Store} (h : store.Becomes after) {id : ScopeId}
    (hid : store.Present id) : after.Present id := h.extends.isSome hid

/-! ## Links -/

/-- Every scope that is enclosed is enclosed by one with a smaller number. -/
def Grounded (store : Store) : Prop :=
  ∀ ⦃id scope outer⦄, store.scope? id = some scope → scope.enclosing? = some outer → outer < id

theorem Grounded.present {store : Store} (h : store.Grounded) {id outer : ScopeId} {scope : Scope}
    (hscope : store.scope? id = some scope) (hlink : scope.enclosing? = some outer) :
    store.Present outer := by
  have hid : store.Present id := Option.isSome_iff_exists.mpr ⟨scope, hscope⟩
  exact present_iff.mpr (Nat.lt_trans (h hscope hlink) (present_iff.mp hid))

theorem Grounded.define {store : Store} (h : store.Grounded) (id : ScopeId) (name : String)
    (value : Value) : (store.define id name value).Grounded := by
  intro other scope outer hscope hlink
  rw [scope?_define, Option.map_eq_some_iff] at hscope
  obtain ⟨old, hold, rfl⟩ := hscope
  refine h hold ?_
  rw [← hlink]
  split <;> rfl

theorem Grounded.add {store : Store} (h : store.Grounded) {enclosing? : Option ScopeId}
    (hlink : ∀ outer, enclosing? = some outer → store.Present outer) :
    (store.add enclosing?).2.Grounded := by
  intro id scope outer hscope houter
  rw [scope?_add] at hscope
  split at hscope
  · next hid =>
    obtain rfl := Option.some.inj hscope
    rw [hid]
    exact present_iff.mp (hlink outer houter)
  · exact h hscope houter

theorem Step.grounded {store after : Store} (h : store.Step after) (hstore : store.Grounded) :
    after.Grounded := by
  cases h with
  | openOutermost => exact hstore.add nofun
  | openEnclosed houter => exact hstore.add fun _ heq => Option.some.inj heq ▸ houter
  | define name value _ => exact hstore.define _ name value

/-- **Links lead to scopes that were opened earlier**, in every store that is built from nothing. -/
theorem Reachable.grounded {store : Store} (h : store.Reachable) : store.Grounded := by
  induction h with
  | refl => intro id scope outer hscope; simp [scope?] at hscope
  | tail _ hstep ih => exact hstep.grounded ih

/-! ## Outermost scopes -/

/-- Binding a name leaves every link as it is. -/
theorem enclosing?_define (store : Store) (target : ScopeId) (name : String) (value : Value)
    (id : ScopeId) : ((store.define target name value).scope? id).map Scope.enclosing? =
      (store.scope? id).map Scope.enclosing? := by
  rw [scope?_define, Option.map_map]
  congr 1
  funext scope
  dsimp only [Function.comp]
  split <;> rfl

/-- A scope that no other encloses. -/
def Outermost (store : Store) (id : ScopeId) : Prop :=
  (store.scope? id).map Scope.enclosing? = some none

theorem outermost_define {store : Store} {target id : ScopeId} {name : String} {value : Value} :
    (store.define target name value).Outermost id ↔ store.Outermost id := by
  rw [Outermost, enclosing?_define, Outermost]

theorem outermost_openEnclosed {store : Store} {outer id : ScopeId} :
    (store.openEnclosed outer).2.Outermost id ↔ store.Outermost id := by
  unfold Outermost
  rw [openEnclosed, scope?_add]
  split
  · next hid => simp [hid, scope?_add_fst]
  · rfl

theorem outermost_openOutermost {store : Store} {id : ScopeId} :
    store.openOutermost.2.Outermost id ↔ store.Outermost id ∨ id = store.openOutermost.1 := by
  unfold Outermost
  rw [openOutermost, scope?_add]
  split
  · next hid => simp [hid]
  · next hid => simp [hid]

/-! ## Chains without a bound -/

/-- From a scope on, its number is bound enough. -/
theorem Grounded.chainFrom_eq {store : Store} (h : store.Grounded) {count : Nat} {id : ScopeId}
    (hcount : id < count) : store.chainFrom count id = store.chain id := by
  induction id using Nat.strong_induction_on generalizing count with
  | _ id ih =>
    obtain ⟨count, rfl⟩ := Nat.exists_eq_add_one_of_ne_zero (Nat.ne_zero_of_lt hcount)
    rw [chain, chainFrom, chainFrom]
    cases hscope : store.scope? id with
    | none => rfl
    | some scope =>
      cases hlink : scope.enclosing? with
      | none => simp only [hlink]
      | some outer =>
        have hlt := h hscope hlink
        simp only [hlink, ih outer hlt (Nat.lt_of_lt_of_le hlt (Nat.le_of_lt_succ hcount)),
          ih outer hlt hlt]

/-- **A chain** is a scope and the chain of the scope around it. -/
theorem Grounded.chain_eq {store : Store} (h : store.Grounded) {id : ScopeId} {scope : Scope}
    (hscope : store.scope? id = some scope) :
    store.chain id = id :: scope.enclosing?.elim [] store.chain := by
  rw [chain, chainFrom, hscope]
  cases hlink : scope.enclosing? with
  | none => simp only [hlink]; rfl
  | some outer => simp only [hlink, h.chainFrom_eq (h hscope hlink)]; rfl

/-- What is done to a store leaves every chain as it was. -/
theorem Extends.chain_eq {owned : ScopeId → Prop} {before after : Store}
    (h : before.Extends owned after) (hbefore : before.Grounded) {id : ScopeId}
    (hid : before.Present id) : after.chain id = before.chain id := by
  unfold chain
  generalize id + 1 = count
  induction count generalizing id with
  | zero => rfl
  | succ count ih =>
    obtain ⟨scope, hscope⟩ := Option.isSome_iff_exists.mp hid
    obtain ⟨later, hlater, hlink⟩ := h.link hscope
    rw [chainFrom, chainFrom, hscope, hlater]
    simp only [hlink]
    cases houter : scope.enclosing? with
    | none => rfl
    | some outer => simp only [ih (hbefore.present hscope houter)]

/-! ## How deep a scope is -/

/-- **A scope stays as deep as it is.** -/
theorem Extends.depth_eq {owned : ScopeId → Prop} {before after : Store}
    (h : before.Extends owned after) (hbefore : before.Grounded) {id : ScopeId}
    (hid : before.Present id) : after.depth id = before.depth id := by
  rw [depth, depth, h.chain_eq hbefore hid]

/-- **A new scope is one deeper** than the scope that encloses it. -/
theorem Grounded.depth_openEnclosed {store : Store} (h : store.Grounded) {outer : ScopeId}
    (houter : store.Present outer) :
    (store.openEnclosed outer).2.depth (store.openEnclosed outer).1 = store.depth outer + 1 := by
  have hafter : (store.openEnclosed outer).2.Grounded :=
    h.add fun _ heq => Option.some.inj heq ▸ houter
  have hnew : (store.openEnclosed outer).2.scope? (store.openEnclosed outer).1 =
      some ⟨∅, some outer⟩ := by
    rw [openEnclosed, scope?_add, if_pos rfl]
  have hchain := (store.extends_add (some outer) fun _ => True).chain_eq h houter
  rw [depth, hafter.chain_eq hnew, List.length_cons, depth, ← hchain]
  rfl

/-- **A scope is at depth one** if and only if it is an outermost one. -/
theorem Grounded.depth_eq_one_iff {store : Store} (h : store.Grounded) {id : ScopeId} :
    store.depth id = 1 ↔ store.Outermost id := by
  unfold Outermost
  cases hscope : store.scope? id with
  | none => simp [depth, chain, chainFrom, hscope]
  | some scope =>
    rw [depth, h.chain_eq hscope]
    cases hlink : scope.enclosing? with
    | none => simp [hlink]
    | some outer =>
      obtain ⟨around, haround⟩ := Option.isSome_iff_exists.mp (h.present hscope hlink)
      simp [hlink, h.chain_eq haround]

/-! ## Walks -/

/-- The way outward from a scope, if any, up to the first that is wanted: the scopes that are
passed, and the one where the walk ends, if it does not lead outside. -/
inductive Walk (store : Store) (wanted : ScopeId → Prop) :
    Option ScopeId → List ScopeId → Option ScopeId → Prop
  | outside : Walk store wanted none [] none
  | here {id : ScopeId} : store.Present id → wanted id → Walk store wanted (some id) [] (some id)
  | onward {id : ScopeId} {scope : Scope} {passed : List ScopeId} {found? : Option ScopeId} :
      store.scope? id = some scope → ¬ wanted id →
      Walk store wanted scope.enclosing? passed found? →
      Walk store wanted (some id) (id :: passed) found?

/-- **Every walk ends.** Each link leads to a smaller number. -/
theorem Grounded.exists_walk {store : Store} (h : store.Grounded) (wanted : ScopeId → Prop)
    {id : ScopeId} (hid : store.Present id) :
    ∃ passed found?, store.Walk wanted (some id) passed found? := by
  classical
  induction id using Nat.strong_induction_on with
  | _ id ih =>
    obtain ⟨scope, hscope⟩ := Option.isSome_iff_exists.mp hid
    by_cases hwanted : wanted id
    · exact ⟨[], some id, .here hid hwanted⟩
    · cases hlink : scope.enclosing? with
      | none =>
        have hend : store.Walk wanted scope.enclosing? [] none := by
          rw [hlink]
          exact .outside
        exact ⟨[id], none, .onward hscope hwanted hend⟩
      | some outer =>
        obtain ⟨passed, found?, hwalk⟩ := ih outer (h hscope hlink) (h.present hscope hlink)
        exact ⟨id :: passed, found?, .onward hscope hwanted (hlink ▸ hwalk)⟩

namespace Walk

variable {store : Store} {wanted : ScopeId → Prop} {start? found? : Option ScopeId}
  {passed : List ScopeId} {id found : ScopeId} {name : String}

theorem wanted_of_eq (h : store.Walk wanted start? passed found?) (hfound : found? = some found) :
    wanted found := by
  induction h with
  | outside => cases hfound
  | here _ hwanted => exact Option.some.inj hfound ▸ hwanted
  | onward _ _ _ ih => exact ih hfound

theorem present_of_eq (h : store.Walk wanted start? passed found?) (hfound : found? = some found) :
    store.Present found := by
  induction h with
  | outside => cases hfound
  | here hid _ => exact Option.some.inj hfound ▸ hid
  | onward _ _ _ ih => exact ih hfound

theorem not_wanted_of_mem (h : store.Walk wanted start? passed found?) (hid : id ∈ passed) :
    ¬ wanted id := by
  induction h with
  | outside | here => cases hid
  | onward _ hwanted _ ih =>
    rcases List.mem_cons.mp hid with rfl | hid
    · exact hwanted
    · exact ih hid

/-- The chain of a scope is what is passed on a walk and the chain of where it ends. -/
theorem chain_eq (h : store.Walk wanted start? passed found?) (hstore : store.Grounded) :
    start?.elim [] store.chain = passed ++ found?.elim [] store.chain := by
  induction h with
  | outside => rfl
  | here => rfl
  | onward hscope _ _ ih => rw [List.cons_append, ← ih, ← hstore.chain_eq hscope]; rfl

/-- A walk ends at the first scope of the chain that is wanted. -/
theorem find?_chain {wanted : ScopeId → Bool}
    (h : store.Walk (fun id => wanted id = true) (some id) passed found?)
    (hstore : store.Grounded) :
    (store.chain id).find? wanted = found? := by
  have hpassed : passed.find? wanted = none :=
    List.find?_eq_none.mpr fun _ hid => h.not_wanted_of_mem hid
  have hchain : store.chain id = _ := h.chain_eq hstore
  rw [hchain, List.find?_append, hpassed, Option.none_or]
  cases found? with
  | none => rfl
  | some found =>
    obtain ⟨scope, hscope⟩ := Option.isSome_iff_exists.mp (h.present_of_eq rfl)
    rw [Option.elim_some, hstore.chain_eq hscope, List.find?_cons_of_pos (h.wanted_of_eq rfl)]

/-- **A name is looked up** by walking to the first scope that binds it. -/
theorem get?_eq (h : store.Walk (fun id => store.binds id name = true) (some id) passed found?)
    (hstore : store.Grounded) :
    store.get? id name = found?.bind fun found => store.binding? found name := by
  rw [← h.find?_chain hstore, get?]
  induction store.chain id with
  | nil => rfl
  | cons first rest ih =>
    rw [List.findSome?_cons, List.find?_cons]
    cases hbinding : store.binding? first name with
    | none => simpa [binds, hbinding] using ih
    | some value => simp [binds, hbinding]

/-- **A name is assigned to** where such a walk ends, or where it starts. -/
theorem target_eq (h : store.Walk (fun id => store.binds id name = true) (some id) passed found?)
    (hstore : store.Grounded) : store.target id name = found?.getD id := by
  rw [target, h.find?_chain hstore]

/-- **A scope is as deep** as a walk to the outside is long. -/
theorem depth_eq (h : store.Walk (fun _ => False) (some id) passed found?)
    (hstore : store.Grounded) : found? = none ∧ store.depth id = passed.length := by
  have hfound : found? = none := by
    cases found? with
    | none => rfl
    | some found => exact (h.wanted_of_eq rfl).elim
  subst hfound
  have hchain : store.chain id = passed ++ [] := h.chain_eq hstore
  rw [depth, hchain, List.append_nil]
  exact ⟨rfl, rfl⟩

end Walk

/-- What is assigned to is in the store. -/
theorem Grounded.present_target {store : Store} (h : store.Grounded) {id : ScopeId}
    (hid : store.Present id) (name : String) : store.Present (store.target id name) := by
  obtain ⟨passed, found?, hwalk⟩ := h.exists_walk (fun id => store.binds id name = true) hid
  rw [hwalk.target_eq h]
  cases found? with
  | none => exact hid
  | some found => exact hwalk.present_of_eq rfl

/-! ## What every store has -/

/-- What is said about a store whose chains are well-founded, given which scopes were opened as
outermost ones. -/
structure Founded (made : ScopeId → Prop) (store : Store) : Prop where
  /-- Scopes are numbered in the order in which they are opened. -/
  numbered : ∀ enclosing? id, store.Present id ↔ id < (store.add enclosing?).1
  /-- A link leads to a scope that was opened earlier. -/
  earlier : store.Grounded
  /-- A name is looked up and assigned to by a walk, and this walk ends. -/
  resolved : ∀ ⦃id⦄, store.Present id → ∀ name, ∃ passed found?,
    store.Walk (fun id => store.binds id name = true) (some id) passed found? ∧
      store.get? id name = (found?.bind fun found => store.binding? found name) ∧
        ∀ value, store.assign id name value = store.define (found?.getD id) name value
  /-- Scopes are counted by a walk to the outside, and this walk ends. -/
  counted : ∀ ⦃id⦄, store.Present id → ∃ passed,
    store.Walk (fun _ => False) (some id) passed none ∧ store.depth id = passed.length
  /-- A scope inside another is one deeper. -/
  enclosed : ∀ ⦃outer⦄, store.Present outer →
    (store.openEnclosed outer).2.depth (store.openEnclosed outer).1 = store.depth outer + 1
  /-- The scopes at depth one are those opened as outermost ones. -/
  outermost : ∀ id, store.depth id = 1 ↔ made id

theorem Grounded.founded {store : Store} (h : store.Grounded) {made : ScopeId → Prop}
    (hmade : ∀ id, store.Outermost id ↔ made id) : store.Founded made where
  numbered _ _ := present_iff
  earlier := h
  resolved id hid name := by
    obtain ⟨passed, found?, hwalk⟩ := h.exists_walk (fun id => store.binds id name = true) hid
    refine ⟨passed, found?, hwalk, hwalk.get?_eq h, fun value => ?_⟩
    rw [assign, hwalk.target_eq h]
  counted id hid := by
    obtain ⟨passed, found?, hwalk⟩ := h.exists_walk (fun _ => False) hid
    obtain ⟨rfl, hdepth⟩ := hwalk.depth_eq h
    exact ⟨passed, hwalk, hdepth⟩
  enclosed _ houter := h.depth_openEnclosed houter
  outermost id := h.depth_eq_one_iff.trans (hmade id)

/-- Two stores, the second of which has all scopes of the first, each where it was. -/
structure Kept (before after : Store) : Prop where
  link : ∀ ⦃id⦄, before.Present id →
    (after.scope? id).map Scope.enclosing? = (before.scope? id).map Scope.enclosing?
  depth : ∀ ⦃id⦄, before.Present id → after.depth id = before.depth id

/-- **No link ever changes**, and no scope gets deeper. -/
theorem Becomes.kept {before after : Store} (h : before.Becomes after) (hbefore : before.Grounded) :
    before.Kept after where
  link id hid := by
    obtain ⟨scope, hscope⟩ := Option.isSome_iff_exists.mp hid
    obtain ⟨later, hlater, hlink⟩ := h.extends.link hscope
    rw [hlater, hscope, Option.map_some, Option.map_some, hlink]
  depth _ hid := h.extends.depth_eq hbefore hid

end Store

end Scriptlet
