import Scriptlet.Proofs.Session.Replay
import Scriptlet.Proofs.Session.Trace

/-!
# The limit on open calls

Only so many calls may be open at once. The limit does nothing but refuse a call too many. Nothing
is ever entered with more calls open; a refusal is the last thing that happens in a run; and a run
in which no call is refused is the same with every larger limit.

The first two are about what is entered in a run, and are shown of traced runs. For the third, a run
is compared with one that has a larger limit.

## Main definitions

* `Session.Opens` — a session that is come to by opening calls, as far as the limit goes
* `Refused` — a log that ends with a call that was refused
* `Traced.Guarded` — what is entered has to do with the limit in this way
* `Session.withLimit` — a session with another limit

## Main results

* `Traced.lawful_guarded` — all runs are guarded
* `interpret_withLimit` — another limit
* `interpret_limited` — the limit is a guard and nothing else
-/

namespace Scriptlet

open Scriptlet.Action

/-! ## Calls that are opened -/

/-- The second session is come to from the first by opening calls, and no more than may be open. -/
structure Session.Opens (start inner : Session) : Prop where
  options : inner.options = start.options
  callDepth : start.callDepth ≤ inner.callDepth
  limit : start.callDepth ≤ start.options.maxCallDepth →
    inner.callDepth ≤ start.options.maxCallDepth

namespace Session.Opens

variable {start middle inner : Session}

theorem refl (session : Session) : session.Opens session := ⟨rfl, Nat.le_refl _, id⟩

theorem trans (first : start.Opens middle) (second : middle.Opens inner) : start.Opens inner := by
  refine ⟨second.options.trans first.options, Nat.le_trans first.callDepth second.callDepth, ?_⟩
  intro hstart
  have hmiddle := first.limit hstart
  rw [← first.options] at hmiddle ⊢
  exact second.limit hmiddle

theorem of_advances {owned : ScopeId → Prop} (h : start.Advances owned middle) :
    start.Opens middle := by
  refine ⟨h.options, Nat.le_of_eq h.callDepth.symm, ?_⟩
  rw [h.callDepth]
  exact id

theorem entered (function : Function) (arguments : List Value)
    (h : start.callDepth < start.options.maxCallDepth) :
    start.Opens (start.entered function arguments) :=
  ⟨rfl, Nat.le_succ _, fun _ => h⟩

end Session.Opens

/-- A call of a function was refused because of the limit, with nothing entered after that. What is
left behind is the session in which the call was made. -/
def Refused (log : List Event) (start : Session) (limit : Nat) (place : Location)
    (after : Session) : Prop :=
  ∃ earlier function arguments inner,
    log = earlier ++ [⟨.call place (.function function) arguments, inner⟩] ∧
      inner.options.maxCallDepth ≤ inner.callDepth ∧ limit = inner.options.maxCallDepth ∧
      after = start.back inner

namespace Refused

variable {log : List Event} {start middle after : Session} {limit : Nat} {place : Location}

/-- What was entered earlier does not matter. -/
theorem append (h : Refused log middle limit place after) (earlier : List Event)
    (hback : ∀ inner, middle.back inner = start.back inner) :
    Refused (earlier ++ log) start limit place after := by
  obtain ⟨first, function, arguments, inner, rfl, hfull, rfl, rfl⟩ := h
  refine ⟨earlier ++ first, function, arguments, inner, ?_, hfull, rfl, hback inner⟩
  rw [List.append_assoc]

theorem back (h : Refused log middle limit place after) :
    Refused log start limit place (start.back after) := by
  obtain ⟨first, function, arguments, inner, rfl, hfull, rfl, rfl⟩ := h
  exact ⟨first, function, arguments, inner, rfl, hfull, rfl, rfl⟩

end Refused

/-! ## Traced runs -/

namespace Traced

/-- A traced action in which calls are opened as far as the limit goes, and in which nothing is
entered after a call was refused. -/
structure Guarded {α : Type} (traced : Traced α) : Prop where
  tidy : traced.run.Tidy
  opens : ∀ ⦃start event⦄, event ∈ traced.log start → start.Opens event.session
  refused : ∀ ⦃start limit place after⦄,
    traced.run start = .error (.fault ⟨.stackOverflow limit, place⟩) after →
      Refused (traced.log start) start limit place after

theorem Guarded.enter {α : Type} {traced : Traced α} (h : traced.Guarded) (task : Task) :
    (enter task traced).Guarded := by
  refine ⟨h.tidy, ?_, ?_⟩
  · intro start event hevent
    rcases List.mem_cons.mp hevent with rfl | hevent
    · exact .refl start
    · exact h.opens hevent
  · intro start limit place after herror
    exact (h.refused herror).append [_] fun _ => rfl

theorem Guarded.bind {α β : Type} {first : Traced α} {next : α → Traced β} (h : first.Guarded)
    (hnext : ∀ ⦃start result middle⦄, first.run start = .ok result middle →
      (next result).Guarded) : (first >>= next).Guarded := by
  refine ⟨h.tidy.bind_of fun _ _ _ hfirst => (hnext hfirst).tidy, ?_, ?_⟩
  · intro start event hevent
    rcases mem_log_bind hevent with hevent | ⟨result, middle, hfirst, hevent⟩
    · exact h.opens hevent
    · exact (Session.Opens.of_advances (h.tidy.of_ok hfirst)).trans ((hnext hfirst).opens hevent)
  · intro start limit place after herror
    cases hfirst : first.run start with
    | ok result middle =>
      rw [run_bind_of_ok hfirst] at herror
      rw [log_bind_of_ok hfirst]
      exact ((hnext hfirst).refused herror).append _ (h.tidy.of_ok hfirst).back_eq
    | error stop middle =>
      rw [run_bind_of_error hfirst] at herror
      rw [log_bind_of_error hfirst]
      exact h.refused (hfirst.trans (by cases herror; rfl))

theorem guarded_silent {α : Type} {action : Action α} (htidy : action.Tidy)
    (h : ∀ ⦃start limit place after⦄,
      action start ≠ .error (.fault ⟨.stackOverflow limit, place⟩) after) :
    (silent action).Guarded :=
  ⟨htidy, fun _ _ hevent => absurd hevent List.not_mem_nil,
    fun _ _ _ _ herror => absurd herror (@h _ _ _ _)⟩

theorem inherited_guarded : Inherited @Guarded where
  silent htidy hbrief := guarded_silent htidy fun _ _ _ _ herror => hbrief herror ⟨_, rfl⟩
  bind := Guarded.bind

section Parts

variable {exec : Stmt → Traced Flow}

/-- A block is guarded if its statements are. -/
theorem guarded_block (hexec : ∀ stmt, (exec stmt).Guarded) (body : List Stmt) :
    (block exec body).Guarded := by
  have hbody := inherited_guarded.execAll hexec body
  have htidy : ∀ stmt, (exec stmt).run.Tidy := fun stmt => (hexec stmt).tidy
  refine ⟨tidy_block htidy body, ?_, ?_⟩
  · intro start event hevent
    have hopens := hbody.opens hevent
    exact ⟨hopens.options, hopens.callDepth, hopens.limit⟩
  · intro start limit place after herror
    rw [run_block htidy] at herror
    obtain ⟨inner, hinner, rfl⟩ := error_of_onState herror
    exact (hbody.refused hinner).back

/-- A call is guarded if the statements of the body are. -/
theorem guarded_call (hexec : ∀ stmt, (exec stmt).Guarded) (location : Location) (callee : Value)
    (arguments : List Value) : (call exec location callee arguments).Guarded := by
  have law := inherited_guarded
  cases callee with
  | function f =>
    have hbody := law.execAll hexec f.declaration.body
    have htidy : ∀ stmt, (exec stmt).run.Tidy := fun stmt => (hexec stmt).tidy
    refine ⟨tidy_call htidy location _ arguments, ?_, ?_⟩
    · intro start event hevent
      rw [log_call_function] at hevent
      rcases List.mem_cons.mp hevent with rfl | hevent
      · exact .refl start
      · split at hevent
        · next hopen => exact (Session.Opens.entered f arguments hopen.2).trans (hbody.opens hevent)
        · cases hevent
    · intro start limit place after herror
      rw [log_call_function]
      by_cases harity : arguments.length = f.arity
      · by_cases hdepth : start.callDepth < start.options.maxCallDepth
        · rw [run_call_entered htidy location harity hdepth] at herror
          obtain ⟨inner, hinner, rfl⟩ := Session.error_of_finished herror
          rw [if_pos ⟨harity, hdepth⟩]
          exact (hbody.refused hinner).back.append [_] fun _ => rfl
        · rw [morphism_run.run_call (fun _ => rfl), call_function _ _ harity,
            callFunction_full _ _ _ (Nat.not_lt.mp hdepth)] at herror
          cases herror
          rw [if_neg fun hopen => hdepth hopen.2]
          exact ⟨[], f, arguments, start, rfl, Nat.not_lt.mp hdepth, rfl, rfl⟩
      · rw [morphism_run.run_call (fun _ => rfl), call_function_of_ne _ _ harity] at herror
        cases herror
  | native f =>
    have hcheck := law.silent (confined_checkArity location f.name f.arity arguments)
      (brief_checkArity location f.name f.arity arguments)
    have hcall := law.silent (confined_callNative location f arguments)
      (brief_callNative location f arguments)
    rw [← checkArity_eq] at hcheck
    rw [← callNative_eq] at hcall
    exact (hcheck.bind fun _ _ _ _ => hcall).enter _
  | _ =>
    refine Guarded.enter ?_ _
    exact law.fault nofun

end Parts

/-- **The limit on open calls is a discipline.** -/
theorem lawful_guarded : (discipline @Guarded).Lawful runner where
  toMoves := inherited_guarded.moves
  exhausted := ⟨guarded_silent (confined_throw _) (by rintro _ _ _ _ ⟨⟩), by rintro _ _ _ ⟨⟩⟩
  enter _ h := ⟨h.1.enter _, h.2⟩
  block _ hexec :=
    ⟨guarded_block (fun stmt => (hexec () stmt trivial).1) _,
      fun _ flow _ _ => Inherited.flows flow⟩
  call _ hexec _ _ :=
    ⟨guarded_call (fun stmt => (hexec () stmt trivial).1) _ _ _, fun _ _ _ _ => trivial⟩
  echo stmt := by
    rw [echo_eq]
    exact ⟨inherited_guarded.silent (confined_echo stmt) (brief_echo stmt), fun _ _ _ _ => trivial⟩
  flush := ⟨inherited_guarded.silent (confined_onTerminal _ _) (brief_onTerminal _ _),
    fun _ _ _ _ => trivial⟩

theorem guarded_exec (steps : Nat) (stmt : Stmt) : (exec steps stmt).Guarded :=
  ((lawful_guarded.steps steps).2 () stmt trivial).1

theorem guarded_interpret (steps : Nat) (statements : List Stmt) :
    (interpret steps statements).Guarded :=
  (lawful_guarded.interpret steps (fun _ _ => trivial) ()).1

end Traced

/-! ## Another limit -/

/-- A session with another limit on open calls. -/
def Session.withLimit (limit : Nat) (session : Session) : Session :=
  { session with options := { session.options with maxCallDepth := limit } }

/-- A run next to one with a larger limit. As long as no call is refused, both have the same
values and stores. -/
def raisedLimit : Replay Unit where
  le _ _ := True
  stmts _ := True
  values _ _ := True
  scopes _ _ := True
  stores _ store store' := store' = store
  limits := (· ≤ ·)
  excused := Stop.AtLimit

theorem raisedLimit_lawful : raisedLimit.Lawful :=
  Replay.sameStores_lawful (fun h => h) fun _ _ => .inr ⟨_, rfl⟩

theorem eq_withLimit {limit : Nat} {session session' : Session}
    (h : raisedLimit.Sessions () session session') (hscope : session'.scope = session.scope)
    (hlimit : session'.options.maxCallDepth = limit) : session' = session.withLimit limit := by
  have heq := h.eq hscope
  have hstore : session'.store = session.store := h.stores
  rw [hstore, hlimit] at heq
  exact heq

/-- **A run in which no call is refused is the same with every larger limit.** -/
theorem interpret_withLimit {steps more limit : Nat} (statements : List Stmt) (session : Session)
    (hsteps : steps ≤ more) (hlimit : session.options.maxCallDepth ≤ limit)
    (h : ∀ stop after, interpret steps statements session = .error stop after → ¬ stop.AtLimit) :
    interpret more statements (session.withLimit limit) =
      onState (Session.withLimit limit) (interpret steps statements session) := by
  have law := raisedLimit_lawful.likeness
  have halike := @Likeness.Lawful.interpret _ _ () law steps more (.inr ⟨hsteps, trivial⟩)
    (fun hsessions => hsessions.dump.symm)
    (fun _ => (Replay.onTerminal_alike raisedLimit_lawful.refl _ _).imp fun _ => trivial)
    statements statements (Replay.parts_same fun _ _ => trivial)
  have hsessions : raisedLimit.Sessions () session (session.withLimit limit) :=
    ⟨rfl, hlimit, trivial, rfl, rfl, rfl, rfl, rfl, rfl⟩
  have houtcome := halike hsessions fun _ => ⟨rfl, trivial⟩
  have hkept : (stateAfter (interpret more statements)
      (session.withLimit limit)).options.maxCallDepth = limit :=
    congrArg Options.maxCallDepth (tidy_interpret more statements (session.withLimit limit)).options
  unfold stateAfter at hkept
  generalize interpret steps statements session = outcome,
    interpret more statements (session.withLimit limit) = outcome' at h houtcome hkept
  cases houtcome with
  | ok hlater _ =>
    have hscope := hlater.scope'.trans hlater.scope.symm
    rw [onState, ← eq_withLimit hlater.sessions hscope hkept]
  | error hlater hstops =>
    have hscope := hlater.scope'.trans hlater.scope.symm
    obtain rfl : _ = _ := hstops
    rw [onState, ← eq_withLimit hlater.sessions hscope hkept]
  | excused hstop => exact absurd hstop (h _ _ rfl)

/-- **The limit on open calls is a guard and nothing else.** Take a script in a session in which no
call is open. Every expression, every statement and every call is entered with at most as many calls
open as may be. If the script ends and no call was refused, it ends in the same way with every
larger limit, in the same session but for the limit. If a call was refused, then it was the call of
a function that a script declared, with exactly as many calls open as may be; the fault carries the
limit; and nothing is entered and nothing changes after that. -/
theorem interpret_limited (steps : Nat) (statements : List Stmt) (session : Session)
    (hdepth : session.callDepth = 0) :
    (Traced.interpret steps statements).run = interpret steps statements ∧
    (∀ event ∈ (Traced.interpret steps statements).log session,
      event.session.callDepth ≤ session.options.maxCallDepth) ∧
    ((∀ stop after, interpret steps statements session = .error stop after → ¬ stop.AtLimit) →
      ∀ more limit, steps ≤ more → session.options.maxCallDepth ≤ limit →
        interpret more statements (session.withLimit limit) =
          onState (Session.withLimit limit) (interpret steps statements session)) ∧
    ∀ limit place after,
      interpret steps statements session = .error (.fault ⟨.stackOverflow limit, place⟩) after →
      limit = session.options.maxCallDepth ∧
      ∃ earlier function arguments inner,
        (Traced.interpret steps statements).log session =
          earlier ++ [⟨.call place (.function function) arguments, inner⟩] ∧
        inner.callDepth = session.options.maxCallDepth ∧ after = session.back inner := by
  have hguarded := Traced.guarded_interpret steps statements
  have hrun := Traced.run_interpret steps statements
  have hstart : session.callDepth ≤ session.options.maxCallDepth := by omega
  refine ⟨hrun, fun event hevent => (hguarded.opens hevent).limit hstart, ?_, ?_⟩
  · exact fun h more limit hsteps hlimit => interpret_withLimit statements session hsteps hlimit h
  · intro limit place after herror
    rw [← hrun] at herror
    obtain ⟨earlier, function, arguments, inner, hlog, hfull, rfl, rfl⟩ := hguarded.refused herror
    have hopens : session.Opens inner :=
      hguarded.opens (hlog ▸ List.mem_append_right earlier List.mem_cons_self)
    have hopen := hopens.limit hstart
    rw [hopens.options] at hfull ⊢
    exact ⟨rfl, earlier, function, arguments, inner, hlog, by omega, rfl⟩

namespace Sample

/-- A call of `spin` without arguments. -/
def spin : Stmt :=
  .expression (.call (.var ⟨.identifier, "spin", .unknown⟩) ⟨.rightParen, ")", .unknown⟩ [])

/-- A function that does nothing but call itself, and a call of it. -/
def spinning : List Stmt := [.function ⟨.identifier, "spin", .unknown⟩ [] [spin], spin]

/-- Of the calls that `spin` makes of itself, the third is refused if two may be open. -/
theorem spinning_limited :
    (Session.start {} ⟨false, 2⟩).callDepth = 0 ∧
      ∃ earlier function arguments inner,
        (Traced.interpret 9 spinning).log (Session.start {} ⟨false, 2⟩) =
          earlier ++ [⟨.call .unknown (.function function) arguments, inner⟩] ∧
        inner.callDepth = 2 := by
  have hstart : (Session.start {} ⟨false, 2⟩).callDepth = 0 := rfl
  obtain ⟨_, _, _, hrefused⟩ := interpret_limited 9 spinning (Session.start {} ⟨false, 2⟩) hstart
  have herror : error? (interpret 9 spinning (Session.start {} ⟨false, 2⟩)) =
      some (.fault ⟨.stackOverflow 2, .unknown⟩) := by decide +kernel
  obtain ⟨after, hafter⟩ := exists_of_error? herror
  obtain ⟨_, earlier, function, arguments, inner, hlog, hdepth, _⟩ := hrefused _ _ after hafter
  exact ⟨hstart, earlier, function, arguments, inner, hlog, hdepth⟩

end Sample

end Scriptlet
