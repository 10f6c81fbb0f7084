import Scriptlet.Proofs.Store.Chain

/-!
# What a write changes, and who sees it

Scopes share what they are enclosed by, so a write through one scope can be seen from others. It
changes one binding of one scope, the target. From another scope it is seen if the target is the
first on the way outward, as it then stands, that binds the name; a scope in between that binds the
name as well hides it. All else is as it was, also where the write adds a name that hides or is
hidden by others.

## Main definitions

* `Store.Written` — a store in which one binding was written, and what is then seen from everywhere

## Main results

* `Store.Grounded.written_define` — binding a name writes one binding
* `writes_resolved` — where definitions and assignments write, and who sees it
-/

namespace Scriptlet

namespace Store

/-- A store in which a name of one scope was bound to a value. -/
structure Written (store : Store) (target : ScopeId) (name : String) (value : Value)
    (after : Store) : Prop where
  /-- All other bindings are as they were. -/
  binding? : ∀ id wanted, after.binding? id wanted =
    if id = target ∧ wanted = name then some value else store.binding? id wanted
  /-- So are all links, and there are no other scopes. -/
  link : ∀ id, (after.scope? id).map Scope.enclosing? = (store.scope? id).map Scope.enclosing?
  /-- From any scope, the name has that value if the first scope that now binds it is the target.
  All other names have the values they had, and so has this one if another scope comes first. -/
  seen : ∀ ⦃viewer⦄, store.Present viewer → ∃ passed first?,
    after.Walk (fun id => after.binds id name = true) (some viewer) passed first? ∧
      ∀ wanted, after.get? viewer wanted =
        if wanted = name ∧ first? = some target then some value else store.get? viewer wanted

variable {store : Store} {target : ScopeId} {name : String} {value : Value}

/-- A walk after a write that does not end at the target would have been the same before it. -/
theorem Walk.of_define {start? found? : Option ScopeId} {passed : List ScopeId}
    (h : (store.define target name value).Walk
      (fun id => (store.define target name value).binds id name = true) start? passed found?)
    (hother : found? ≠ some target) :
    store.Walk (fun id => store.binds id name = true) start? passed found? := by
  induction h with
  | outside => exact .outside
  | @here id hid hbinds =>
    rw [Present, scope?_define, Option.isSome_map] at hid
    rcases binds_define.mp hbinds with hbefore | ⟨_, rfl, _⟩
    · exact .here hid hbefore
    · exact absurd rfl hother
  | @onward id scope passed found? hscope hbinds _ ih =>
    have hlink := enclosing?_define store target name value id
    rw [hscope, Option.map_some] at hlink
    obtain ⟨before, hbefore, hsame⟩ := Option.map_eq_some_iff.mp hlink.symm
    refine .onward hbefore (fun hbound => hbinds (binds_define.mpr (.inl hbound))) ?_
    rw [hsame]
    exact ih hother

/-- Other names are looked up as before a write. -/
theorem get?_define_of_ne (htarget : store.Present target) {wanted : String} (h : wanted ≠ name)
    (viewer : ScopeId) :
    (store.define target name value).get? viewer wanted = store.get? viewer wanted := by
  unfold get?
  rw [chain_define]
  congr 1
  funext id
  rw [binding?_define _ _ _ _ _ _ htarget, if_neg fun hboth => h hboth.2.symm]

/-- The name that was written has the new value where the target comes first, and else the value it
had. -/
theorem Walk.get?_define {viewer : ScopeId} {passed : List ScopeId} {first? : Option ScopeId}
    (h : (store.define target name value).Walk
      (fun id => (store.define target name value).binds id name = true) (some viewer) passed first?)
    (hstore : store.Grounded) (htarget : store.Present target) :
    (store.define target name value).get? viewer name =
      if first? = some target then some value else store.get? viewer name := by
  rw [h.get?_eq (hstore.define target name value)]
  split
  · next hfirst =>
    subst hfirst
    rw [Option.bind_some, binding?_define _ _ _ _ _ _ htarget, if_pos ⟨rfl, rfl⟩]
  · next hother =>
    rw [(h.of_define hother).get?_eq hstore]
    cases first? with
    | none => rfl
    | some first =>
      rw [Option.bind_some, Option.bind_some, binding?_define _ _ _ _ _ _ htarget, if_neg]
      rintro ⟨rfl, _⟩
      exact hother rfl

/-- **Binding a name writes one binding.** -/
theorem Grounded.written_define (h : store.Grounded) (htarget : store.Present target)
    (name : String) (value : Value) :
    store.Written target name value (store.define target name value) where
  binding? id wanted := by
    rw [binding?_define _ _ _ _ _ _ htarget]
    simp only [eq_comm]
  link := enclosing?_define store target name value
  seen viewer hviewer := by
    have hpresent : (store.define target name value).Present viewer :=
      (store.extends_define target name value).isSome hviewer
    obtain ⟨passed, first?, hwalk⟩ := (h.define target name value).exists_walk
      (fun id => (store.define target name value).binds id name = true) hpresent
    refine ⟨passed, first?, hwalk, fun wanted => ?_⟩
    by_cases hname : wanted = name
    · subst hname
      simpa using hwalk.get?_define h htarget
    · simpa [hname] using get?_define_of_ne htarget hname viewer

end Store

/-- **Where names are written, and who sees it.** In every store that is built from nothing and for
every scope of it, a definition writes the binding of the name in that very scope, and nothing else.
An assignment writes the binding in the nearest scope on the way outward that binds the name, and in
the scope that it starts from if none does. Afterwards the name has the new value as seen from those
scopes from which the first scope that binds it is the one that was written, and every name has the
value that it had in every other case. -/
theorem writes_resolved {store : Store} (hstore : store.Reachable) {id : ScopeId}
    (hid : store.Present id) (name : String) (value : Value) :
    store.Written id name value (store.define id name value) ∧
    ∃ passed found?, store.Walk (fun id => store.binds id name = true) (some id) passed found? ∧
      store.Written (found?.getD id) name value (store.assign id name value) := by
  have hgrounded := hstore.grounded
  refine ⟨hgrounded.written_define hid name value, ?_⟩
  obtain ⟨passed, found?, hwalk⟩ := hgrounded.exists_walk (fun id => store.binds id name = true) hid
  refine ⟨passed, found?, hwalk, ?_⟩
  have htarget := hgrounded.present_target hid name
  rw [Store.assign]
  rw [hwalk.target_eq hgrounded] at htarget ⊢
  exact hgrounded.written_define htarget name value

namespace Sample

/-- A scope with a name, and two scopes inside it, the second of which binds the name as well. -/
def shadowing : Store :=
  ((((Store.openOutermost {}).2.define 0 "x" (.integer 1)).openEnclosed 0).2.openEnclosed 0).2.define
    2 "x" (.integer 2)

theorem reachable_shadowing : shadowing.Reachable := by
  have hroot : Store.Reachable (Store.openOutermost {}).2 := .single .openOutermost
  have hbound := hroot.tail (.define "x" (.integer 1) (rfl : Store.Present _ 0))
  have hfirst := hbound.tail (.openEnclosed (by decide +kernel : Store.Present _ 0))
  have hsecond := hfirst.tail (.openEnclosed (by decide +kernel : Store.Present _ 0))
  exact hsecond.tail (.define "x" (.integer 2) (by decide +kernel : Store.Present _ 2))

/-- An assignment from the first of them is seen there and outside, but not from the second. -/
theorem shadowing_resolved :
    shadowing.Reachable ∧ shadowing.Present 1 ∧
      [0, 1, 2].map (fun id => ((shadowing.assign 1 "x" (.integer 3)).get? id "x").map Value.text) =
        [some "3", some "3", some "2"] ∧
      ∃ passed found?,
        shadowing.Walk (fun id => shadowing.binds id "x" = true) (some 1) passed found? ∧
        shadowing.Written (found?.getD 1) "x" (.integer 3)
          (shadowing.assign 1 "x" (.integer 3)) := by
  have hpresent : shadowing.Present 1 := by decide +kernel
  exact ⟨reachable_shadowing, hpresent, by decide +kernel,
    (writes_resolved reachable_shadowing hpresent "x" (.integer 3)).2⟩

end Sample

end Scriptlet
