import Scriptlet.Proofs.Session.CallDepth
import Scriptlet.Proofs.Session.Upkeep
import Scriptlet.Proofs.Store.Handles

/-!
# Scopes are well-founded at every moment

Scopes refer to each other by their links, and functions refer to the scope in which they were
declared, in which they may be bound themselves. Values and scopes so form cycles. Links alone never
do, at no moment of any run: a session only ever does to its store what can be done to a store, with
scopes that are there, because every function it comes across remembers such a scope.

## Main definitions

* `Session.Sound` — a session whose store is built from nothing, with all that it refers to in it
* `Use`, `Session.states` — what can be done with a session and its scopes, and all sessions that
  are gone through

## Main results

* `scopeUpkeep_lawful` — sessions stay sound
* `scopes_well_founded` — chains are well-founded, for handles and in sessions
-/

namespace Scriptlet

open Scriptlet.Action

/-- A session in which every scope that is referred to is in the store, and the store is built from
nothing with one outermost scope. -/
structure Session.Sound (session : Session) : Prop where
  reachable : session.store.Reachable
  scope : session.store.Present session.scope
  globals : session.store.Present session.globals
  /-- So is the scope of every function that is bound anywhere. -/
  bound : ∀ ⦃id name value⦄, session.store.binding? id name = some value →
    value.LeadsInto session.store.Present
  lastValue : session.lastValue.LeadsInto session.store.Present
  outermost : ∀ id, session.store.Outermost id ↔ id = session.globals

namespace Session.Sound

variable {session : Session} {id : ScopeId}

theorem get? (h : session.Sound) {name : String} {value : Value}
    (hvalue : session.store.get? id name = some value) : value.LeadsInto session.store.Present := by
  obtain ⟨found, _, hbinding⟩ := List.exists_of_findSome?_eq_some hvalue
  exact h.bound hbinding

theorem define (h : session.Sound) (hid : session.store.Present id) (name : String) {value : Value}
    (hvalue : value.LeadsInto session.store.Present) :
    Session.Sound { session with store := session.store.define id name value } := by
  have hstep : session.store.Becomes (session.store.define id name value) :=
    .single (.define name value hid)
  refine ⟨h.reachable.trans hstep, hstep.present h.scope, hstep.present h.globals, ?_,
    h.lastValue.mono fun _ => hstep.present, fun other => ?_⟩
  · intro other wanted found hfound
    rcases Store.eq_or_of_binding?_define hfound with ⟨_, rfl⟩ | hold
    · exact hvalue.mono fun _ => hstep.present
    · exact (h.bound hold).mono fun _ => hstep.present
  · exact Store.outermost_define.trans (h.outermost other)

theorem assign (h : session.Sound) (hid : session.store.Present id) (name : String) {value : Value}
    (hvalue : value.LeadsInto session.store.Present) :
    Session.Sound { session with store := session.store.assign id name value } :=
  h.define (h.reachable.grounded.present_target hid name) name hvalue

theorem openEnclosed (h : session.Sound) (hid : session.store.Present id) :
    Session.Sound { session with store := (session.store.openEnclosed id).2 } := by
  have hstep : session.store.Becomes (session.store.openEnclosed id).2 :=
    .single (.openEnclosed hid)
  refine ⟨h.reachable.trans hstep, hstep.present h.scope, hstep.present h.globals, ?_,
    h.lastValue.mono fun _ => hstep.present, fun other => ?_⟩
  · intro other wanted found hfound
    exact (h.bound (Store.of_binding?_add hfound).2).mono fun _ => hstep.present
  · exact Store.outermost_openEnclosed.trans (h.outermost other)

/-- Only which scope is the current one matters, and not how many calls are open. -/
theorem enter (h : session.Sound) (hid : session.store.Present id) (callDepth : Nat) :
    Session.Sound { session with scope := id, callDepth } :=
  ⟨h.reachable, hid, h.globals, h.bound, h.lastValue, h.outermost⟩

theorem bindParams (h : session.Sound) (hid : session.store.Present id)
    {bindings : List (Token × Value)}
    (hvalues : ∀ binding ∈ bindings, binding.2.LeadsInto session.store.Present) :
    let store := bindings.foldl (fun store (param, argument) =>
      store.define id param.lexeme argument) session.store
    session.store.Becomes store ∧ Session.Sound { session with store } := by
  induction bindings generalizing session with
  | nil => exact ⟨.refl, h⟩
  | cons binding bindings ih =>
    obtain ⟨hvalue, hrest⟩ := List.forall_mem_cons.mp hvalues
    have hstep : session.store.Becomes (session.store.define id binding.1.lexeme binding.2) :=
      .single (.define _ _ hid)
    obtain ⟨hbecomes, hsound⟩ := ih (h.define hid binding.1.lexeme hvalue) (hstep.present hid)
      fun binding hmem => (hrest binding hmem).mono fun _ => hstep.present
    exact ⟨hstep.trans hbecomes, hsound⟩

theorem back {outer inner : Session} (houter : outer.Sound)
    (h : outer.store.Becomes inner.store) (hinner : inner.Sound) : (outer.back inner).Sound :=
  hinner.enter (h.present houter.scope) outer.callDepth

theorem start (terminal : Terminal) (options : Options) :
    (Session.start terminal options).Sound := by
  have hopen : Session.Sound
      { Session.start terminal options with store := (Store.openOutermost {}).2 } := by
    refine ⟨.single .openOutermost, rfl, rfl, ?_, trivial, ?_⟩
    · intro id name value hvalue
      obtain ⟨_, hempty⟩ := Store.of_binding?_add hvalue
      simp [Store.binding?, Store.scope?] at hempty
    · intro id
      refine Store.outermost_openOutermost.trans (or_iff_right ?_)
      simp [Store.Outermost, Store.scope?]
  have hprint := @define _ _ hopen hopen.globals Native.print.name (.native .print) trivial
  exact hprint.define hprint.globals Native.input.name trivial

end Session.Sound

/-! ## Runs -/

/-- The store as the world in which a session is sound. -/
def scopeUpkeep : Upkeep Store where
  le := Store.Becomes
  values store value := value.LeadsInto store.Present
  holds store session := store = session.store ∧ session.Sound

theorem scopeUpkeep_lawful : scopeUpkeep.Lawful where
  refl _ := .refl
  trans := .trans
  values_mono hvalue hle := hvalue.mono fun _ => Store.Becomes.present hle
  literal w literal := by cases literal <;> trivial
  lookup h hvalue := h.1 ▸ h.2.get? hvalue
  lastValue h := h.1 ▸ h.2.lastValue
  terminal terminal h :=
    ⟨h.1, h.2.reachable, h.2.scope, h.2.globals, h.2.bound, h.2.lastValue, h.2.outermost⟩
  remember h hvalue :=
    ⟨h.1, h.2.reachable, h.2.scope, h.2.globals, h.2.bound, h.1 ▸ hvalue, h.2.outermost⟩
  define name h hvalue := by
    obtain ⟨rfl, h⟩ := h
    exact ⟨_, .single (.define name _ h.scope), rfl, h.define h.scope name hvalue⟩
  assign name h hvalue := by
    obtain ⟨rfl, h⟩ := h
    have htarget := h.reachable.grounded.present_target h.scope name
    exact ⟨_, .single (.define name _ htarget), rfl, h.assign h.scope name hvalue⟩
  makeFunction declaration h := by
    obtain ⟨rfl, h⟩ := h
    refine ⟨_, .refl, ⟨rfl, ?_⟩, h.scope⟩
    exact ⟨h.reachable, h.scope, h.globals, h.bound, h.lastValue, h.outermost⟩
  nested h := by
    obtain ⟨rfl, h⟩ := h
    have hopen := h.openEnclosed h.scope
    exact ⟨_, .single (.openEnclosed h.scope), rfl, hopen.enter (Store.present_add _ _) _⟩
  entered h hfunction harguments := by
    obtain ⟨rfl, h⟩ := h
    have hstep : Store.Becomes _ _ := .single (.openEnclosed hfunction)
    obtain ⟨hbecomes, hsound⟩ := (h.openEnclosed hfunction).bindParams (Store.present_add _ _)
      fun binding hmem => (harguments _ (List.of_mem_zip hmem).2).mono fun _ => hstep.present
    exact ⟨_, hstep.trans hbecomes, rfl, hsound.enter (hbecomes.present (Store.present_add _ _)) _⟩
  back houter hle hinner := by
    obtain ⟨rfl, houter⟩ := houter
    obtain ⟨rfl, hinner⟩ := hinner
    exact ⟨rfl, houter.back hle hinner⟩

/-! ## Sessions over time -/

/-- What can be done with a session and with handles on its scopes. -/
inductive Use where
  /-- The session is used with a number of steps. -/
  | act (steps : Nat) (activity : Activity)
  /-- A scope is opened inside one of the session's. -/
  | enclose (outer : ScopeId)
  /-- A name is bound in a scope. -/
  | define (scope : ScopeId) (name : String) (value : Value)
  /-- A name is assigned to from a scope. -/
  | assign (scope : ScopeId) (name : String) (value : Value)

namespace Use

/-- Scopes and values that are given from outside stem from the session. -/
def Fits (session : Session) : Use → Prop
  | act _ activity => activity.Among (Value.LeadsInto session.store.Present)
  | enclose outer => session.store.Present outer
  | define scope _ value => session.store.Present scope ∧ value.LeadsInto session.store.Present
  | assign scope _ value => session.store.Present scope ∧ value.LeadsInto session.store.Present

/-- The sessions that are gone through. -/
def inside (session : Session) : Use → List Session
  | act steps activity => (activity.log steps session).map Event.session
  | _ => []

/-- The session afterwards. -/
def after (session : Session) : Use → Session
  | act steps activity => activity.after steps session
  | enclose outer => { session with store := (session.store.openEnclosed outer).2 }
  | define scope name value => { session with store := session.store.define scope name value }
  | assign scope name value => { session with store := session.store.assign scope name value }

end Use

/-- All sessions that are gone through from a session on. -/
def Session.states (session : Session) : List Use → List Session
  | [] => [session]
  | use :: uses => session :: use.inside session ++ (use.after session).states uses

/-- Whatever is given from outside stems from the session. -/
def Session.Fits (session : Session) : List Use → Prop
  | [] => True
  | use :: uses => use.Fits session ∧ (use.after session).Fits uses

/-- What is known about sessions that are gone through between one store and another: they are
sound, and the stores are built one on the other. -/
structure Session.Between (before after : Store) (sessions : List Session) : Prop where
  sound : ∀ session ∈ sessions, session.Sound
  first : ∀ session ∈ sessions, before.Becomes session.store
  last : ∀ session ∈ sessions, session.store.Becomes after
  order : sessions.Pairwise fun earlier later => earlier.store.Becomes later.store

theorem Session.between_nil (before after : Store) : Between before after [] :=
  ⟨fun _ hmem => absurd hmem List.not_mem_nil, fun _ hmem => absurd hmem List.not_mem_nil,
    fun _ hmem => absurd hmem List.not_mem_nil, .nil⟩

theorem between_of_passes {before after : Store} {log : List Event}
    (h : scopeUpkeep.Passes before log after) :
    Session.Between before after (log.map Event.session) := by
  induction h with
  | nil => exact Session.between_nil _ _
  | @cons before middle after event log hle hevent hrest ih =>
    obtain ⟨rfl, hsound⟩ := hevent
    have hlast := scopeUpkeep_lawful.le_of_passes hrest
    refine ⟨List.forall_mem_cons.mpr ⟨hsound, ih.sound⟩, ?_,
      List.forall_mem_cons.mpr ⟨hlast, ih.last⟩, List.pairwise_cons.mpr ⟨ih.first, ih.order⟩⟩
    exact List.forall_mem_cons.mpr ⟨hle, fun session hmem => .trans hle (ih.first session hmem)⟩

/-- One use of a session. -/
theorem Session.Sound.use {session : Session} (h : session.Sound) {use : Use}
    (hfits : use.Fits session) :
    (use.after session).Sound ∧ session.store.Becomes (use.after session).store ∧
      Between session.store (use.after session).store (use.inside session) := by
  cases use with
  | act steps activity =>
    obtain ⟨_, hpasses, rfl, hsound⟩ := scopeUpkeep_lawful.after steps hfits ⟨rfl, h⟩
    exact ⟨hsound, scopeUpkeep_lawful.le_of_passes hpasses, between_of_passes hpasses⟩
  | enclose outer => exact ⟨h.openEnclosed hfits, .single (.openEnclosed hfits), between_nil _ _⟩
  | define scope name value =>
    exact ⟨h.define hfits.1 name hfits.2, .single (.define name value hfits.1), between_nil _ _⟩
  | assign scope name value =>
    have htarget := h.reachable.grounded.present_target hfits.1 name
    exact ⟨h.assign hfits.1 name hfits.2, .single (.define name value htarget), between_nil _ _⟩

/-- **All sessions that are gone through are sound**, and no store is ever built anew. -/
theorem Session.Sound.states {session : Session} (h : session.Sound) {uses : List Use}
    (hfits : session.Fits uses) :
    (∀ state ∈ session.states uses, state.Sound ∧ session.store.Becomes state.store) ∧
      (session.states uses).Pairwise fun earlier later => earlier.store.Becomes later.store := by
  induction uses generalizing session with
  | nil => exact ⟨List.forall_mem_singleton.mpr ⟨h, .refl⟩, List.pairwise_singleton _ _⟩
  | cons use uses ih =>
    obtain ⟨hafter, hbecomes, hinside⟩ := h.use hfits.1
    obtain ⟨hrest, horder⟩ := ih hafter hfits.2
    have hall : ∀ state ∈ use.inside session ++ (use.after session).states uses,
        state.Sound ∧ session.store.Becomes state.store := by
      intro state hmem
      rcases List.mem_append.mp hmem with hmem | hmem
      · exact ⟨hinside.sound state hmem, hinside.first state hmem⟩
      · exact ⟨(hrest state hmem).1, hbecomes.trans (hrest state hmem).2⟩
    refine ⟨List.forall_mem_cons.mpr ⟨⟨h, .refl⟩, hall⟩, List.pairwise_cons.mpr ⟨?_, ?_⟩⟩
    · exact fun state hmem => (hall state hmem).2
    · refine List.pairwise_append.mpr
        ⟨hinside.order, horder, fun earlier hearlier later hlater => ?_⟩
      exact (hinside.last earlier hearlier).trans (hrest later hlater).2

/-- **Scope chains are well-founded.** Whatever is done with handles on scopes, and at every moment
of whatever is done with a new session: every link leads to a scope that was opened earlier, so that
looking a name up, assigning to it and counting the scopes around a scope end; a scope inside
another is one deeper; and the scopes at depth one are those that were opened as outermost ones,
which in a session is the one scope that it starts with. Every handle, and every scope that a
session or one of its functions refers to, is in the store. From one moment to any later one,
handles stand for the same scopes, no link changes, and every scope is as deep as it was. -/
theorem scopes_well_founded :
    (∀ ops more : List HandleOp,
      let handles := Handles.after ops
      let later := Handles.after (ops ++ more)
      handles.store.Founded (Handles.MadeByNew ops) ∧
      (∀ id ∈ handles.scopes, handles.store.Present id) ∧
      handles.scopes <+: later.scopes ∧ handles.store.Kept later.store) ∧
    ∀ (terminal : Terminal) (options : Options) (uses : List Use),
      (Session.start terminal options).Fits uses →
      let states := (Session.start terminal options).states uses
      (∀ state ∈ states, state.Sound ∧ state.store.Founded (· = state.globals)) ∧
      states.Pairwise fun earlier later => earlier.store.Kept later.store := by
  constructor
  · intro ops more
    obtain ⟨hvalid, hreachable⟩ := Handles.valid_after ops
    obtain ⟨hscopes, hstore⟩ := Handles.becomes_after ops more
    exact ⟨hreachable.grounded.founded (Handles.outermost_iff ops), hvalid, hscopes,
      hstore.kept hreachable.grounded⟩
  · intro terminal options uses hfits
    obtain ⟨hall, horder⟩ := (Session.Sound.start terminal options).states hfits
    refine ⟨fun state hmem => ?_, horder.imp_of_mem fun hearlier _ hbecomes => ?_⟩
    · have hsound := (hall state hmem).1
      exact ⟨hsound, hsound.reachable.grounded.founded hsound.outermost⟩
    · exact hbecomes.kept (hall _ hearlier).1.reachable.grounded

namespace Sample

/-- `spin` is bound in the scope that it remembers. It calls itself as often as may be, and then a
scope is opened inside the outermost one. -/
def spinningUses : List Use := [.act 9 (.interpret spinning), .enclose 0]

/-- The bodies of `spin` all run at depth two, and the links stay. -/
theorem spinning_scopes :
    (Session.start {} ⟨false, 2⟩).Fits spinningUses ∧
      ((Session.start {} ⟨false, 2⟩).states spinningUses).map
        (fun state => state.store.depth state.scope) =
          [1, 1, 1, 1, 1, 1, 2, 2, 2, 2, 2, 2, 2, 2, 1, 1] ∧
      ((Session.start {} ⟨false, 2⟩).states spinningUses).Pairwise
        fun earlier later => earlier.store.Kept later.store := by
  have hfits : (Session.start {} ⟨false, 2⟩).Fits spinningUses := by
    refine ⟨trivial, ?_, trivial⟩
    change Store.Present _ 0
    decide +kernel
  exact ⟨hfits, by decide +kernel, (scopes_well_founded.2 {} ⟨false, 2⟩ spinningUses hfits).2⟩

end Sample

end Scriptlet
