import Mathlib.Data.List.Induction
import Scriptlet.Proofs.Store.Chain

/-!
# Handles on scopes

A handle stands for a scope. New handles are made for new scopes, outermost or inside the scope of
another handle, and as copies of handles; through a handle names can be bound and assigned to. A
handle is named by how many were made before it, and what is done with a handle that was never made
does nothing.

## Main definitions

* `HandleOp`, `HandleOp.apply` — what can be done with handles
* `Handles`, `Handles.after` — the handles made so far, and the store they have in common
* `Handles.MadeByNew` — the scopes that were opened as outermost ones
* `Handles.Happened` — something that was done at some time, as things stood then

## Main results

* `Handles.valid_after` — every handle stands for a scope of the store, for good
* `Handles.outermost_iff` — the scopes without a scope around them are those opened as such
-/

namespace Scriptlet

/-- What can be done with handles. -/
inductive HandleOp where
  /-- A handle on a new outermost scope is made. -/
  | new
  /-- A handle on a new scope is made, inside the scope of another. -/
  | enclosed (handle : Nat)
  /-- Another handle on the same scope is made. -/
  | clone (handle : Nat)
  /-- A name is bound. -/
  | define (handle : Nat) (name : String) (value : Value)
  /-- A name is assigned to. -/
  | assign (handle : Nat) (name : String) (value : Value)

/-- The handles that were made, and the store they have in common. -/
structure Handles where
  store : Store := {}
  /-- The scopes that the handles stand for, in the order in which the handles were made. -/
  scopes : List ScopeId := []

namespace Handles

/-- Makes a handle on a scope. -/
def push (handles : Handles) (opened : ScopeId × Store) : Handles :=
  ⟨opened.2, handles.scopes ++ [opened.1]⟩

/-- Does something with the scope of a handle, if there is such a handle. -/
def through (handles : Handles) (handle : Nat) (action : ScopeId → Handles) : Handles :=
  (handles.scopes[handle]?).elim handles action

end Handles

/-- The handles and the store after something was done. -/
def HandleOp.apply (handles : Handles) : HandleOp → Handles
  | new => handles.push handles.store.openOutermost
  | enclosed handle => handles.through handle fun id => handles.push (handles.store.openEnclosed id)
  | clone handle => handles.through handle fun id => handles.push (id, handles.store)
  | define handle name value => handles.through handle fun id =>
      { handles with store := handles.store.define id name value }
  | assign handle name value => handles.through handle fun id =>
      { handles with store := handles.store.assign id name value }

namespace Handles

/-- The handles and the store after several things were done, one after the other. -/
def after (ops : List HandleOp) : Handles := ops.foldl HandleOp.apply {}

/-- The scopes that were opened as outermost ones. -/
def MadeByNew (ops : List HandleOp) (id : ScopeId) : Prop :=
  ∃ i, ops[i]? = some .new ∧ id = (after (ops.take i)).store.openOutermost.1

theorem after_concat (ops : List HandleOp) (op : HandleOp) :
    after (ops ++ [op]) = op.apply (after ops) := by
  rw [after, List.foldl_append]
  rfl

/-! ## One thing that is done -/

/-- Every handle stands for a scope of the store. -/
def Valid (handles : Handles) : Prop := ∀ id ∈ handles.scopes, handles.store.Present id

/-- The second handles come of the first: no handle is lost, and the store is built on. -/
structure Becomes (before after : Handles) : Prop where
  scopes : before.scopes <+: after.scopes
  store : before.store.Becomes after.store

theorem Becomes.refl (handles : Handles) : handles.Becomes handles :=
  ⟨List.prefix_refl _, .refl⟩

theorem Becomes.trans {first second third : Handles} (h : first.Becomes second)
    (h' : second.Becomes third) : first.Becomes third :=
  ⟨h.scopes.trans h'.scopes, h.store.trans h'.store⟩

theorem Becomes.of_step {handles : Handles} {store : Store} (h : handles.store.Step store) :
    handles.Becomes { handles with store } := ⟨List.prefix_refl _, .single h⟩

theorem becomes_push {handles : Handles} {opened : ScopeId × Store}
    (h : handles.store.Becomes opened.2) : handles.Becomes (handles.push opened) :=
  ⟨List.prefix_append _ _, h⟩

theorem through_cases {handles : Handles} {property : Handles → Prop} {action : ScopeId → Handles}
    (hnone : property handles) (hsome : ∀ id ∈ handles.scopes, property (action id))
    (handle : Nat) : property (handles.through handle action) := by
  unfold through
  cases hhandle : handles.scopes[handle]? with
  | none => exact hnone
  | some id => exact hsome id (List.mem_of_getElem? hhandle)

theorem Valid.becomes_apply {handles : Handles} (h : handles.Valid)
    (hgrounded : handles.store.Grounded) (op : HandleOp) :
    handles.Becomes (op.apply handles) := by
  cases op with
  | new => exact becomes_push (.single .openOutermost)
  | enclosed handle =>
    exact through_cases (.refl handles)
      (fun id hid => becomes_push (.single (.openEnclosed (h id hid))))
      handle
  | clone handle =>
    exact through_cases (.refl handles) (fun id _ => @becomes_push handles (id, _) .refl) handle
  | define handle name value =>
    exact through_cases (.refl handles)
      (fun id hid => .of_step (.define name value (h id hid))) handle
  | assign handle name value =>
    refine through_cases (.refl handles) (fun id hid => .of_step (.define name value ?_)) handle
    exact hgrounded.present_target (h id hid) name

theorem Valid.push {handles : Handles} (h : handles.Valid) {opened : ScopeId × Store}
    (hstore : handles.store.Becomes opened.2) (hnew : opened.2.Present opened.1) :
    (handles.push opened).Valid := by
  intro id hid
  rcases List.mem_append.mp hid with hid | hid
  · exact hstore.present (h id hid)
  · exact List.mem_singleton.mp hid ▸ hnew

theorem Valid.apply {handles : Handles} (h : handles.Valid) (hgrounded : handles.store.Grounded)
    (op : HandleOp) : (op.apply handles).Valid := by
  have hnew := handles.store.present_add
  cases op with
  | new => exact h.push (.single .openOutermost) (hnew none)
  | enclosed handle =>
    exact through_cases h
      (fun id hid => h.push (.single (.openEnclosed (h id hid))) (hnew _)) handle
  | clone handle =>
    exact through_cases h (fun id hid => @Valid.push handles h (id, _) .refl (h id hid)) handle
  | define handle name value =>
    refine through_cases h (fun id hid other hother => ?_) handle
    exact Store.Becomes.present (.single (.define name value (h id hid))) (h other hother)
  | assign handle name value =>
    refine through_cases h (fun id hid other hother => ?_) handle
    have htarget := hgrounded.present_target (h id hid) name
    exact Store.Becomes.present (.single (.define name value htarget)) (h other hother)

/-- Only opening an outermost scope makes one. -/
theorem outermost_apply (handles : Handles) (op : HandleOp) (id : ScopeId) :
    (op.apply handles).store.Outermost id ↔
      handles.store.Outermost id ∨ op = .new ∧ id = handles.store.openOutermost.1 := by
  have hthrough (handle : Nat) (action : ScopeId → Handles)
      (h : ∀ scope, (action scope).store.Outermost id ↔ handles.store.Outermost id) :
      (handles.through handle action).store.Outermost id ↔ handles.store.Outermost id :=
    @through_cases handles (fun after => after.store.Outermost id ↔ handles.store.Outermost id)
      action .rfl (fun scope _ => h scope) handle
  cases op with
  | new => exact Store.outermost_openOutermost.trans (by simp)
  | enclosed handle =>
    exact (hthrough handle _ fun _ => Store.outermost_openEnclosed).trans (or_iff_left nofun).symm
  | clone handle =>
    have hclone := hthrough handle (fun scope => handles.push (scope, handles.store)) fun _ => .rfl
    exact hclone.trans (or_iff_left nofun).symm
  | define handle name value | assign handle name value =>
    exact (hthrough handle _ fun _ => Store.outermost_define).trans (or_iff_left nofun).symm

/-! ## Everything that is done -/

/-- **Every handle stands for a scope of the store**, which is built from nothing. -/
theorem valid_after (ops : List HandleOp) : (after ops).Valid ∧ (after ops).store.Reachable := by
  induction ops using List.reverseRecOn with
  | nil => exact ⟨nofun, .refl⟩
  | append_singleton ops op ih =>
    obtain ⟨hvalid, hreachable⟩ := ih
    rw [after_concat]
    exact ⟨hvalid.apply hreachable.grounded op,
      hreachable.trans (hvalid.becomes_apply hreachable.grounded op).store⟩

/-- **Handles stay**, and the store is only built on. -/
theorem becomes_after (ops more : List HandleOp) : (after ops).Becomes (after (ops ++ more)) := by
  induction more using List.reverseRecOn with
  | nil =>
    rw [List.append_nil]
    exact .refl _
  | append_singleton more op ih =>
    obtain ⟨hvalid, hreachable⟩ := valid_after (ops ++ more)
    rw [← List.append_assoc, after_concat]
    exact ih.trans (hvalid.becomes_apply hreachable.grounded op)

/-- Something happened, in the way that things stood then. -/
def Happened (what : Handles → HandleOp → Prop) (ops : List HandleOp) : Prop :=
  ∃ i op, ops[i]? = some op ∧ what (after (ops.take i)) op

/-- What happened until now happened before, or it happens now. -/
theorem happened_concat (what : Handles → HandleOp → Prop) (ops : List HandleOp) (op : HandleOp) :
    Happened what (ops ++ [op]) ↔ Happened what ops ∨ what (after ops) op := by
  constructor
  · rintro ⟨i, done, hdone, hwhat⟩
    rcases Nat.lt_trichotomy i ops.length with hlt | rfl | hgt
    · rw [List.getElem?_append_left hlt] at hdone
      rw [List.take_append_of_le_length (Nat.le_of_lt hlt)] at hwhat
      exact .inl ⟨i, done, hdone, hwhat⟩
    · rw [List.getElem?_concat_length] at hdone
      rw [List.take_left' rfl, ← Option.some.inj hdone] at hwhat
      exact .inr hwhat
    · rw [List.getElem?_eq_none (by simpa using Nat.succ_le_of_lt hgt)] at hdone
      cases hdone
  · rintro (⟨i, done, hdone, hwhat⟩ | hwhat)
    · have hlt := (List.getElem?_eq_some_iff.mp hdone).1
      refine ⟨i, done, (List.getElem?_append_left hlt).trans hdone, ?_⟩
      rwa [List.take_append_of_le_length (Nat.le_of_lt hlt)]
    · exact ⟨ops.length, op, List.getElem?_concat_length, by rwa [List.take_left' rfl]⟩

theorem madeByNew_iff (ops : List HandleOp) (id : ScopeId) : MadeByNew ops id ↔
    Happened (fun handles op => op = .new ∧ id = handles.store.openOutermost.1) ops := by
  constructor
  · rintro ⟨i, hnew, hid⟩
    exact ⟨i, .new, hnew, rfl, hid⟩
  · rintro ⟨i, _, hnew, rfl, hid⟩
    exact ⟨i, hnew, hid⟩

theorem madeByNew_concat (ops : List HandleOp) (op : HandleOp) (id : ScopeId) :
    MadeByNew (ops ++ [op]) id ↔
      MadeByNew ops id ∨ op = .new ∧ id = (after ops).store.openOutermost.1 := by
  rw [madeByNew_iff, madeByNew_iff, happened_concat]

/-- **The outermost scopes are those opened as such.** -/
theorem outermost_iff (ops : List HandleOp) (id : ScopeId) :
    (after ops).store.Outermost id ↔ MadeByNew ops id := by
  induction ops using List.reverseRecOn with
  | nil => simp [after, MadeByNew, Store.Outermost, Store.scope?]
  | append_singleton ops op ih => rw [after_concat, outermost_apply, ih, madeByNew_concat]

end Handles

end Scriptlet
