import Scriptlet.Proofs.Session.Replay
import Scriptlet.Proofs.Store.Region

/-!
# Closures that have nothing to do with each other

Functions share the scopes that they remember, and change what others see there. All that a
statement can get at lies in a closed region of the store: the scopes around the current one, those
of the functions that are bound there, and so on, and that of the last value, which a function that
does not return gives away. Nothing outside that region has any influence on the run, and the run
leaves all of it as it was.

A call does not look at the scope that it is made from. The region then only needs to have the scope
of the function that is called, and those of the functions among the arguments.

## Main definitions

* `Store.grown` — a region with the scopes that are new
* `Action.StaysIn` — an action that has to do with a region only

## Main results

* `runs_separated` — evaluation, execution and calls have to do with a closed region only
-/

namespace Scriptlet

open Scriptlet.Action

variable {α : Type}

/-- A region with the scopes that a later store has and an earlier one did not have. -/
def Store.grown (before : Store) (region : ScopeId → Prop) (after : Store) (id : ScopeId) : Prop :=
  region id ∨ before.scope? id = none ∧ (after.scope? id).isSome

/-- What an action does from a session has to do with a region of the store only. -/
structure Action.StaysIn (region : ScopeId → Prop) (leads : (ScopeId → Prop) → α → Prop)
    (action : Action α) (before : Session) : Prop where
  /-- Every scope outside the region is as it was. -/
  untouched : ∀ ⦃id⦄, (before.store.scope? id).isSome → ¬ region id →
    (stateAfter action before).store.scope? id = before.store.scope? id
  /-- Nothing leads out of the region and the new scopes. -/
  closed : (stateAfter action before).store.Closed
    (before.store.grown region (stateAfter action before).store)
  lastValue : (stateAfter action before).lastValue.LeadsInto
    (before.store.grown region (stateAfter action before).store)
  result : ∀ ⦃result after⦄, action before = .ok result after →
    leads (before.store.grown region after.store) result
  /-- Whatever the other scopes are, the action does the same. -/
  independent : ∀ ⦃other⦄, before.store.AgreeOn region other → ∃ after,
    (stateAfter action before).store.AgreeOn
      (before.store.grown region (stateAfter action before).store) after ∧
    action { before with store := other } =
      onState (fun session => { session with store := after }) (action before)

/-- The value that a statement returns leads to no scope outside a region. -/
def Flow.LeadsInto (region : ScopeId → Prop) : Flow → Prop
  | .normal => True
  | .returned value => value.LeadsInto region

/-! ## Two stores that differ outside a region -/

/-- What two stores have in common that started with the same region. -/
structure Store.Separated (region : ScopeId → Prop) (start : Store) (inside : ScopeId → Prop)
    (store other : Store) : Prop where
  closed : store.Closed inside
  agree : store.AgreeOn inside other
  grown : ∀ id, inside id ↔ start.grown region store id
  untouched : ∀ ⦃id⦄, (start.scope? id).isSome → ¬ region id → store.scope? id = start.scope? id

namespace Store.Separated

variable {region inside : ScopeId → Prop} {start store other : Store} {scope : ScopeId}

/-- At the start the stores have the region in common. -/
theorem of_agree (hclosed : start.Closed region) (hagree : start.AgreeOn region other) :
    start.Separated region region start other := by
  refine ⟨hclosed, hagree, fun id => ⟨.inl, ?_⟩, fun _ _ _ => rfl⟩
  rintro (hid | ⟨hnone, hsome⟩)
  · exact hid
  · rw [hnone] at hsome
    cases hsome

/-- A scope that is not in use was not in use at the start. -/
theorem scope?_start (h : start.Separated region inside store other)
    (hscope : store.scope? scope = none) : start.scope? scope = none := by
  by_contra hstart
  have hsome : (start.scope? scope).isSome := Option.isSome_iff_ne_none.mpr hstart
  by_cases hregion : region scope
  · have hpresent := h.closed.present ((h.grown scope).mpr (.inl hregion))
    rw [hscope] at hpresent
    cases hpresent
  · rw [h.untouched hsome hregion] at hscope
    exact hstart hscope

theorem define (h : start.Separated region inside store other) (hscope : inside scope)
    (name : String) {value : Value} (hvalue : value.LeadsInto inside) :
    start.Separated region inside (store.define scope name value)
      (other.define scope name value) := by
  refine ⟨h.closed.define scope name fun _ => hvalue, h.agree.define scope name value, ?_, ?_⟩
  · intro id
    rw [h.grown, Store.grown, Store.grown, scope?_define, Option.isSome_map]
  · intro id hid hregion
    have hne : scope ≠ id := by
      rintro rfl
      rcases (h.grown scope).mp hscope with hinside | ⟨hnone, _⟩
      · exact hregion hinside
      · rw [hnone] at hid
        cases hid
    rw [scope?_define_of_ne hne, h.untouched hid hregion]

theorem add (h : start.Separated region inside store other) (hscope : inside scope) :
    start.Separated region (fun id => inside id ∨ id = (store.add (some scope)).1)
      (store.add (some scope)).2 (other.add (some scope)).2 := by
  have hnew := h.scope?_start (store.scope?_add_fst (some scope))
  refine ⟨h.closed.add hscope, h.agree.add (some scope), ?_, ?_⟩
  · intro id
    rw [h.grown, Store.grown, Store.grown, scope?_add]
    split
    · next hid => simp [hid, hnew]
    · next hid => simp [hid]
  · intro id hid hregion
    rw [scope?_add_of_ne, h.untouched hid hregion]
    rintro rfl
    rw [hnew] at hid
    cases hid

end Store.Separated

/-- Two runs in stores that agree on a region. What they have in common is the region with the new
scopes. -/
def separation (region : ScopeId → Prop) (start : Store) : Replay (ScopeId → Prop) where
  le inside larger := ∀ id, inside id → larger id
  stmts _ := True
  values inside value := value.LeadsInto inside
  scopes inside scope := inside scope
  stores := start.Separated region
  limits := Eq
  excused _ := False

theorem separation_lawful (region : ScopeId → Prop) (start : Store) :
    (separation region start).Lawful where
  refl _ _ h := h
  trans first second id h := second id (first id h)
  values_mono h hle := h.mono hle
  scopes_mono h hle := hle _ h
  block _ _ _ := trivial
  yes _ := trivial
  no _ := trivial
  loop _ := trivial
  declared _ _ _ := trivial
  literal inside literal := by cases literal <;> trivial
  function := ⟨fun h => ⟨fun _ _ => trivial, h⟩, fun h => h.2⟩
  get? name h hscope := ⟨h.agree.get? h.closed hscope name, fun _ => h.closed.get? hscope⟩
  target name h hscope := ⟨h.agree.target h.closed hscope name, h.closed.target hscope name⟩
  define name h hscope hvalue := h.define hscope name hvalue
  openEnclosed h hscope :=
    ⟨h.agree.fst_add _, _, fun _ hid => .inl hid, .inr rfl, h.add hscope⟩
  limits_le h := h.le
  overflow _ h := .inl h

/-! ## Outcomes -/

section Outcomes

variable {region : ScopeId → Prop} {before : Session} {action : Action α} {attached : Prop}
  {leads : (ScopeId → Prop) → α → Prop}

/-- Sessions that are alike are the same but for their stores. -/
theorem eq_of_separation {inside : ScopeId → Prop} {start : Store} {session session' : Session}
    (h : (separation region start).Sessions inside session session')
    (hscope : session'.scope = session.scope) :
    session' = { session with store := session'.store } := by
  have heq := h.eq hscope
  have hlimit : session.options.maxCallDepth = session'.options.maxCallDepth := h.limits
  rw [← hlimit] at heq
  exact heq

theorem eq_of_flows {inside : ScopeId → Prop} {start : Store} {flow flow' : Flow}
    (h : (separation region start).likeness.Flows inside flow flow') :
    flow' = flow ∧ flow.LeadsInto inside := by
  cases h with
  | normal => exact ⟨rfl, trivial⟩
  | returned hvalue => exact ⟨congrArg Flow.returned hvalue.1, hvalue.2⟩

/-- How an action ends in two stores that agree on a closed region, if it is run alike there. -/
theorem exists_separated
    (h : (separation region before.store).likeness.Alike attached region
      (fun inside result result' => result' = result ∧ leads inside result) action action)
    (hclosed : before.store.Closed region) (hlast : before.lastValue.LeadsInto region)
    (hscope : attached → region before.scope) {other : Store}
    (hagree : before.store.AgreeOn region other) :
    ∃ inside after, before.store.Separated region inside (stateAfter action before).store after ∧
      (stateAfter action before).lastValue.LeadsInto inside ∧
      (∀ result session, action before = .ok result session → leads inside result) ∧
      action { before with store := other } =
        onState (fun session => { session with store := after }) (action before) := by
  have hsessions : (separation region before.store).Sessions region before
      { before with store := other } :=
    ⟨.of_agree hclosed hagree, rfl, hlast, rfl, rfl, rfl, rfl, rfl, rfl⟩
  have houtcome := h hsessions fun hattached => ⟨rfl, hscope hattached⟩
  unfold stateAfter
  generalize action before = outcome, action { before with store := other } = outcome' at houtcome ⊢
  cases houtcome with
  | @ok inside result _ session session' hlater hpost =>
    obtain ⟨rfl, hleads⟩ := hpost
    have heq := eq_of_separation hlater.sessions (hlater.scope'.trans hlater.scope.symm)
    refine ⟨inside, session'.store, hlater.sessions.stores, hlater.sessions.value, ?_, ?_⟩
    · rintro _ _ ⟨⟩
      exact hleads
    · rw [onState, ← heq]
  | @error inside stop _ session session' hlater hstops =>
    obtain rfl : stop = _ := hstops
    have heq := eq_of_separation hlater.sessions (hlater.scope'.trans hlater.scope.symm)
    refine ⟨inside, session'.store, hlater.sessions.stores, hlater.sessions.value, ?_, ?_⟩
    · rintro _ _ ⟨⟩
    · rw [onState, ← heq]
  | excused hnever => exact hnever.elim

/-- An action that is run alike in all stores that agree on a closed region has to do with that
region only. -/
theorem staysIn_of_alike
    (h : (separation region before.store).likeness.Alike attached region
      (fun inside result result' => result' = result ∧ leads inside result) action action)
    (hclosed : before.store.Closed region) (hlast : before.lastValue.LeadsInto region)
    (hscope : attached → region before.scope) : StaysIn region leads action before := by
  obtain ⟨inside, _, hstores, hlast', hresult, _⟩ :=
    exists_separated h hclosed hlast hscope ⟨rfl, fun _ _ => rfl⟩
  obtain rfl := funext fun id => propext (hstores.grown id)
  refine ⟨hstores.untouched, hstores.closed, hlast', ?_, ?_⟩
  · intro result after haction
    have hleads := hresult result after haction
    rwa [stateAfter, haction] at hleads
  · intro other hagree
    obtain ⟨inside, after, hstores, _, _, haction⟩ :=
      exists_separated h hclosed hlast hscope hagree
    obtain rfl := funext fun id => propext (hstores.grown id)
    exact ⟨after, hstores.agree, haction⟩

end Outcomes

/-- **Closures that have nothing to do with each other do not leak.** Let nothing lead out of a
region, not even the last value. An expression or a statement that is run in a scope of the region,
and a call of a function with arguments that lead into the region, from wherever it is made, leaves
every scope outside as it was. Nothing leads out of the region and the new scopes afterwards,
neither the last value nor the result. And all this is the same, with the same outcome and the same
session but for the scopes outside, whatever these scopes are. -/
theorem runs_separated (steps : Nat) (before : Session) (region : ScopeId → Prop)
    (hclosed : before.store.Closed region) (hlast : before.lastValue.LeadsInto region) :
    (region before.scope →
      (∀ expr, StaysIn region Value.LeadsInto (Action.eval steps expr) before) ∧
      ∀ stmt, StaysIn region Flow.LeadsInto (Action.exec steps stmt) before) ∧
    ∀ location callee arguments, callee.LeadsInto region →
      (∀ argument ∈ arguments, argument.LeadsInto region) →
      StaysIn region Value.LeadsInto (Action.call (Action.exec steps) location callee arguments)
        before := by
  have law := (separation_lawful region before.store).likeness
  obtain ⟨heval, hexec⟩ := law.steps (.inl (rfl : steps = steps))
  refine ⟨fun hscope => ⟨fun expr => ?_, fun stmt => ?_⟩, ?_⟩
  · exact staysIn_of_alike (heval rfl) hclosed hlast fun _ => hscope
  · have hstmt := @hexec region stmt stmt ⟨rfl, trivial⟩
    exact staysIn_of_alike (hstmt.imp eq_of_flows) hclosed hlast fun _ => hscope
  · intro location callee arguments hcallee harguments
    have hvalues : List.Forall₂ ((separation region before.store).likeness.values region)
        arguments arguments :=
      List.forall₂_same.mpr fun argument hargument => ⟨rfl, harguments argument hargument⟩
    have hcall := law.call hexec (rfl : location = location) ⟨rfl, hcallee⟩ hvalues
    exact staysIn_of_alike hcall hclosed hlast False.elim

namespace Sample

/-- A function that takes nothing and gives the value bound to `value`. -/
def getter (scope : ScopeId) : Value :=
  .function ⟨scope, ⟨⟨.identifier, "get", .unknown⟩, [],
    [.ret ⟨.kwReturn, "return", .unknown⟩ (some (.var ⟨.identifier, "value", .unknown⟩))]⟩, scope⟩

/-- Two scopes with nothing around them, each with a value and a function that gives it. The second
one is the current scope. -/
def getters : Session :=
  { store := ((((⟨#[{}, {}]⟩ : Store).define 0 "value" (.integer 1)).define 0 "get"
      (getter 0)).define 1 "value" (.integer 2)).define 1 "get" (getter 1)
    globals := 0, scope := 1, terminal := {}, options := {}
    lastValue := .absent, callDepth := 0, functions := 2 }

theorem closed_getters : getters.store.Closed (· = 0) := by
  have hempty : (⟨#[{}, {}]⟩ : Store).Closed (· = 0) := by
    refine ⟨?_, ?_, ?_⟩
    · rintro _ rfl
      rfl
    · rintro _ _ _ rfl ⟨⟩ ⟨⟩
    · rintro _ name value rfl hvalue
      simp [Store.binding?, Store.scope?] at hvalue
  refine (((hempty.define 0 "value" ?_).define 0 "get" ?_).define 1 "value" ?_).define 1 "get" ?_
  · exact fun _ => trivial
  · exact fun _ => rfl
  · exact fun _ => trivial
  · exact fun hother => absurd hother (by decide)

/-- The first function is called from the scope of the second. -/
theorem getter_separated :
    getters.store.Closed (· = 0) ∧ getters.scope ≠ 0 ∧
      (∃ after, Action.call (Action.exec 2) .unknown (getter 0) [] getters =
        .ok (.integer 1) after) ∧
      StaysIn (· = 0) Value.LeadsInto (Action.call (Action.exec 2) .unknown (getter 0) [])
        getters :=
  ⟨closed_getters, by decide, ⟨_, rfl⟩,
    (runs_separated 2 getters (· = 0) closed_getters trivial).2 .unknown (getter 0) [] rfl nofun⟩

end Sample

end Scriptlet
