import Scriptlet.Proofs.Session.Activity
import Scriptlet.Proofs.Session.Layout
import Scriptlet.Proofs.Session.Replay
import Scriptlet.Proofs.Session.Trace

/-!
# What is kept up in every session that a run goes through

An invariant of sessions that is to hold at every moment of a run has to hold whenever something is
entered, inside blocks and calls as well, and not only where the run ends. What is said about a
session may refer to a world that the run builds up on its way, such as the scopes there are; what
holds of a value in one world holds in all later ones.

It is enough to show that the invariant survives the few things that change a session: binding and
assigning, making functions, entering blocks and calls and coming back from them. The worlds of a
run then follow each other, from the start over everything that is entered to the end.

## Main definitions

* `Upkeep`, `Upkeep.Lawful` — an invariant over worlds, and what has to be shown about it
* `Upkeep.Passes` — worlds that follow each other along a log
* `Upkeep.Kept`, `Upkeep.discipline` — a traced action that keeps the invariant up all the way, and
  that as a discipline
* `Activity.log` — what is entered while a session is used

## Main results

* `Upkeep.Lawful.lawful` — all runs are subject to the discipline
* `Upkeep.Lawful.after` — all that can be done with a session
-/

namespace Scriptlet

open Scriptlet.Action

/-- An invariant of sessions over worlds. -/
structure Upkeep (World : Type) where
  /-- The second world can come after the first. -/
  le : World → World → Prop
  /-- The values that can be come across in a world. -/
  values : World → Value → Prop
  /-- The sessions that are as they should be in a world. -/
  holds : World → Session → Prop

/-- The statements of a script, if it can be read. -/
def script? (source : String) : Option (List Stmt) :=
  match Parser.ofSource source with
  | .error _ => none
  | .ok parser =>
    match Parse.program parser with
    | .error _ _ => none
    | .ok statements _ => some statements

/-- A script that cannot be read leaves the session as it is. -/
theorem stateAfter_run (steps : Nat) (source : String) (session : Session) :
    stateAfter (Session.run steps source) session = (script? source).elim session
      fun statements => stateAfter (Action.interpret steps statements) session := by
  unfold stateAfter script?
  cases hread : Parser.ofSource source with
  | error error => rw [Session.run_of_lex hread]; rfl
  | ok parser =>
    cases hprogram : Parse.program parser with
    | error fatal stop => rw [Session.run_of_error hread hprogram]; simp only [hprogram]; rfl
    | ok statements stop =>
      simp only [hprogram, Option.elim_some]
      cases hinterpret : Action.interpret steps statements session with
      | ok result after => rw [Session.run_of_ok hread hprogram hinterpret]
      | error stop after => rw [Session.run_of_stop hread hprogram hinterpret]

/-- What a run makes of how the statements of the script ended, given the errors that reading went
on after. -/
def Session.RunResult.finish (noted : List ParseError) :
    EStateM.Result Stop Session Unit → Session.RunResult
  | .ok _ after => .ok noted after
  | .error stop after => .error (.stop stop) after

/-- A script that cannot be read fails alike in every session. Of any other one the statements are
executed. -/
theorem Session.run_cases (steps : Nat) (source : String) :
    (script? source = none ∧
      ∃ error, ∀ session, Session.run steps source session = .error error session) ∨
    ∃ statements noted, script? source = some statements ∧ ∀ session,
      Session.run steps source session =
        Session.RunResult.finish noted (interpret steps statements session) := by
  simp only [script?]
  cases hread : Parser.ofSource source with
  | error error => exact .inl ⟨rfl, _, fun session => Session.run_of_lex hread⟩
  | ok parser =>
    cases hprogram : Parse.program parser with
    | error fatal stop =>
      exact .inl ⟨by simp [hprogram], _, fun session => Session.run_of_error hread hprogram⟩
    | ok statements stop =>
      refine .inr ⟨statements, stop.diagnostics.toList, by simp [hprogram], fun session => ?_⟩
      cases hinterpret : interpret steps statements session with
      | ok result after => exact Session.run_of_ok hread hprogram hinterpret
      | error reason after => exact Session.run_of_stop hread hprogram hinterpret

/-- What is entered while a session is used. -/
def Activity.log (steps : Nat) : Activity → Session → List Event
  | eval expr => (Traced.eval steps expr).log
  | exec stmt => (Traced.exec steps stmt).log
  | call callee location arguments =>
    (Traced.call (Traced.exec steps) location callee arguments).log
  | interpret statements => (Traced.interpret steps statements).log
  | run source => fun session =>
    (script? source).elim [] fun statements => (Traced.interpret steps statements).log session

/-- The values that a session is given from outside are among those stated. -/
def Activity.Among (known : Value → Prop) : Activity → Prop
  | call callee _ arguments => known callee ∧ ∀ argument ∈ arguments, known argument
  | _ => True

namespace Upkeep

variable {World α β : Type}

/-- **What has to be shown about an invariant.** -/
structure Lawful (upkeep : Upkeep World) : Prop where
  refl : ∀ w, upkeep.le w w
  trans : ∀ {w₁ w₂ w₃}, upkeep.le w₁ w₂ → upkeep.le w₂ w₃ → upkeep.le w₁ w₃
  values_mono : ∀ {w w' value}, upkeep.values w value → upkeep.le w w' → upkeep.values w' value
  literal : ∀ w literal, upkeep.values w (.ofLiteral literal)
  lookup : ∀ {w session name value}, upkeep.holds w session →
    session.store.get? session.scope name = some value → upkeep.values w value
  lastValue : ∀ {w session}, upkeep.holds w session → upkeep.values w session.lastValue
  terminal : ∀ {w session} (terminal : Terminal), upkeep.holds w session →
    upkeep.holds w { session with terminal }
  remember : ∀ {w session value}, upkeep.holds w session → upkeep.values w value →
    upkeep.holds w { session with lastValue := value }
  define : ∀ {w session value} (name : String), upkeep.holds w session → upkeep.values w value →
    ∃ w', upkeep.le w w' ∧
      upkeep.holds w' { session with store := session.store.define session.scope name value }
  assign : ∀ {w session value} (name : String), upkeep.holds w session → upkeep.values w value →
    ∃ w', upkeep.le w w' ∧
      upkeep.holds w' { session with store := session.store.assign session.scope name value }
  makeFunction : ∀ {w session} (declaration : FunctionDecl), upkeep.holds w session →
    ∃ w', upkeep.le w w' ∧
      upkeep.holds w' { session with functions := session.functions + 1 } ∧
      upkeep.values w' (.function ⟨session.functions, declaration, session.scope⟩)
  nested : ∀ {w session}, upkeep.holds w session →
    ∃ w', upkeep.le w w' ∧ upkeep.holds w' session.nested
  entered : ∀ {w session function arguments}, upkeep.holds w session →
    upkeep.values w (.function function) → (∀ argument ∈ arguments, upkeep.values w argument) →
      ∃ w', upkeep.le w w' ∧ upkeep.holds w' (session.entered function arguments)
  back : ∀ {w w' outer inner}, upkeep.holds w outer → upkeep.le w w' → upkeep.holds w' inner →
    upkeep.holds w' (outer.back inner)

variable (upkeep : Upkeep World)

/-- Worlds that follow each other, one for each entry of a log, in which its session is as it should
be. -/
inductive Passes : World → List Event → World → Prop
  | nil {w w' : World} : upkeep.le w w' → Passes w [] w'
  | cons {w w₁ w' : World} {event : Event} {log : List Event} :
      upkeep.le w w₁ → upkeep.holds w₁ event.session → Passes w₁ log w' → Passes w (event :: log) w'

/-- An outcome that is as it should be in a world. -/
inductive Ends (post : World → α → Prop) (w : World) : EStateM.Result Stop Session α → Prop
  | ok {result : α} {after : Session} : upkeep.holds w after → post w result →
      Ends post w (.ok result after)
  | error {stop : Stop} {after : Session} : upkeep.holds w after → Ends post w (.error stop after)

/-- An action that keeps the invariant up, from a world and all later ones. -/
def Sustained (w : World) (post : World → α → Prop) (action : Action α) : Prop :=
  ∀ ⦃w₁ session⦄, upkeep.le w w₁ → upkeep.holds w₁ session →
    ∃ w₂, upkeep.le w₁ w₂ ∧ upkeep.Ends post w₂ (action session)

/-- A traced action that keeps the invariant up, also wherever something is entered. -/
def Kept (w : World) (post : World → α → Prop) (traced : Traced α) : Prop :=
  ∀ ⦃w₁ session⦄, upkeep.le w w₁ → upkeep.holds w₁ session →
    ∃ w₂, upkeep.Passes w₁ (traced.log session) w₂ ∧ upkeep.Ends post w₂ (traced.run session)

/-- Keeping the invariant up, as a discipline for all trees. -/
def discipline : Discipline Traced World where
  le := upkeep.le
  exprs _ := True
  stmts _ := True
  values := upkeep.values
  Runs := upkeep.Kept

variable {upkeep} {post : World → α → Prop} {post' : World → β → Prop} {w w' : World}

theorem Ends.stateAfter {action : Action α} {session : Session}
    (h : upkeep.Ends post w (action session)) : upkeep.holds w (stateAfter action session) := by
  unfold Scriptlet.stateAfter
  generalize action session = outcome at h
  cases h with
  | ok hafter _ => exact hafter
  | error hafter => exact hafter

namespace Lawful

variable (law : upkeep.Lawful)
include law

/-! ## Logs -/

theorem le_of_passes {log : List Event} (h : upkeep.Passes w log w') : upkeep.le w w' := by
  induction h with
  | nil hle => exact hle
  | cons hle _ _ ih => exact law.trans hle ih

theorem passes_of_le {w₀ : World} {log : List Event} (hle : upkeep.le w₀ w)
    (h : upkeep.Passes w log w') : upkeep.Passes w₀ log w' := by
  cases h with
  | nil hle' => exact .nil (law.trans hle hle')
  | cons hle' hevent hrest => exact .cons (law.trans hle hle') hevent hrest

theorem passes_append {w₁ : World} {log more : List Event} (h : upkeep.Passes w log w₁)
    (hmore : upkeep.Passes w₁ more w') : upkeep.Passes w (log ++ more) w' := by
  induction h with
  | nil hle => exact law.passes_of_le hle hmore
  | cons hle hevent _ ih => exact .cons hle hevent (ih hmore)

/-! ## Actions -/

/-- An action that leaves the world as it is. -/
theorem sustained_still {action : Action α}
    (h : ∀ ⦃w₁ session⦄, upkeep.le w w₁ → upkeep.holds w₁ session →
      upkeep.Ends post w₁ (action session)) : upkeep.Sustained w post action :=
  fun w₁ _ hle hsession => ⟨w₁, law.refl w₁, h hle hsession⟩

theorem sustained_pure {result : α} (h : ∀ ⦃w₁⦄, upkeep.le w w₁ → post w₁ result) :
    upkeep.Sustained w post (pure result : Action α) :=
  law.sustained_still fun _ _ hle hsession => .ok hsession (h hle)

theorem sustained_throw (stop : Stop) : upkeep.Sustained w post (throw stop : Action α) :=
  law.sustained_still fun _ _ _ hsession => .error hsession

theorem sustained_bind {action : Action α} {next : α → Action β}
    (h : upkeep.Sustained w post action)
    (hnext : ∀ ⦃w₁⦄ result, upkeep.le w w₁ → post w₁ result →
      upkeep.Sustained w₁ post' (next result)) :
    upkeep.Sustained w post' (action >>= next) := by
  intro w₁ session hle hsession
  obtain ⟨w₂, hle₂, hends⟩ := h hle hsession
  cases haction : action session with
  | ok result middle =>
    rw [haction] at hends
    rw [bind_of_ok haction]
    cases hends with
    | ok hmiddle hresult =>
      obtain ⟨w₃, hle₃, hends⟩ := hnext result (law.trans hle hle₂) hresult (law.refl w₂) hmiddle
      exact ⟨w₃, law.trans hle₂ hle₃, hends⟩
  | error stop middle =>
    rw [haction] at hends
    rw [bind_of_error haction]
    cases hends with
    | error hmiddle => exact ⟨w₂, hle₂, .error hmiddle⟩

theorem sustained_get : upkeep.Sustained w upkeep.holds (get : Action Session) :=
  law.sustained_still fun _ _ _ hsession => .ok hsession hsession

theorem sustained_onTerminal (location : Location) (action : EStateM IoError Terminal α) :
    upkeep.Sustained w (fun _ _ => True) (onTerminal location action) := by
  refine law.sustained_still fun w₁ session _ hsession => ?_
  unfold Action.onTerminal
  cases action session.terminal with
  | ok result terminal => exact .ok (law.terminal terminal hsession) trivial
  | error error terminal => exact .error (law.terminal terminal hsession)

theorem sustained_onTerminalQuietly (action : EStateM IoError Terminal Unit) :
    upkeep.Sustained w (fun _ _ => True) (onTerminalQuietly action) := by
  refine law.sustained_still fun w₁ session _ hsession => ?_
  unfold Action.onTerminalQuietly
  cases action session.terminal with
  | ok result terminal => exact .ok (law.terminal terminal hsession) trivial
  | error error terminal => exact .ok (law.terminal terminal hsession) trivial

theorem sustained_lookup (name : Token) :
    upkeep.Sustained w upkeep.values (Action.lookup name) := by
  refine law.sustained_still fun w₁ session _ hsession => ?_
  have hget : (MonadState.get : Action Session) session = .ok session session := rfl
  rw [Action.lookup, bind_of_ok hget]
  cases hvalue : session.store.get? session.scope name.lexeme with
  | some value => exact .ok hsession (law.lookup hsession hvalue)
  | none => exact .error hsession

theorem sustained_remember {value : Value} (h : upkeep.values w value) :
    upkeep.Sustained w (fun _ _ => True) (Action.remember value) :=
  law.sustained_still fun _ _ hle hsession =>
    .ok (law.remember hsession (law.values_mono h hle)) trivial

theorem sustained_define (name : String) {value : Value} (h : upkeep.values w value) :
    upkeep.Sustained w (fun _ _ => True) (Action.define name value) := by
  intro w₁ session hle hsession
  obtain ⟨w₂, hle₂, hafter⟩ := law.define name hsession (law.values_mono h hle)
  exact ⟨w₂, hle₂, .ok hafter trivial⟩

theorem sustained_assign (name : String) {value : Value} (h : upkeep.values w value) :
    upkeep.Sustained w (fun _ _ => True) (Action.assign name value) := by
  intro w₁ session hle hsession
  obtain ⟨w₂, hle₂, hafter⟩ := law.assign name hsession (law.values_mono h hle)
  exact ⟨w₂, hle₂, .ok hafter trivial⟩

theorem sustained_makeFunction (declaration : FunctionDecl) :
    upkeep.Sustained w (fun w f => upkeep.values w (.function f))
      (Action.makeFunction declaration) := by
  intro w₁ session _ hsession
  obtain ⟨w₂, hle₂, hafter, hvalue⟩ := law.makeFunction declaration hsession
  exact ⟨w₂, hle₂, .ok hafter hvalue⟩

/-- What an operator gives is no function. -/
theorem sustained_ofExcept (location : Location) {result : Except FaultCause Value}
    (h : ∀ value, result = .ok value → ∃ literal, value = .ofLiteral literal) :
    upkeep.Sustained w upkeep.values (ofExcept location result) := by
  cases result with
  | ok value =>
    obtain ⟨literal, rfl⟩ := h value rfl
    exact law.sustained_pure fun w₁ _ => law.literal w₁ literal
  | error cause => exact law.sustained_throw _

theorem sustained_checkCalled (location : Location) :
    upkeep.Sustained w (fun _ _ => True) (Move.checkCalled location).action := by
  refine law.sustained_still fun w₁ session _ hsession => ?_
  by_cases h : session.callDepth = 0
  · rw [Move.checkCalled_of_eq h]
    exact .error hsession
  · rw [Move.checkCalled_of_ne h]
    exact .ok hsession trivial

theorem sustained_checkArity (location : Location) (name : String) (arity : Nat)
    (arguments : List Value) :
    upkeep.Sustained w (fun _ _ => True) (checkArity location name arity arguments) := by
  unfold Action.checkArity
  split
  · exact law.sustained_throw _
  · exact law.sustained_pure fun _ _ => trivial

theorem sustained_callNative (location : Location) (f : Native) (arguments : List Value) :
    upkeep.Sustained w upkeep.values (callNative location f arguments) := by
  cases f with
  | print =>
    exact law.sustained_bind (law.sustained_onTerminalQuietly _) fun _ _ _ _ =>
      law.sustained_pure fun w₁ _ => law.literal w₁ .absent
  | input =>
    refine law.sustained_bind (law.sustained_onTerminal _ _) fun _ _ _ _ =>
      law.sustained_bind (law.sustained_onTerminal _ _) fun _ line? _ _ => ?_
    cases line? with
    | some line => exact law.sustained_pure fun w₁ _ => law.literal w₁ (.string line)
    | none => exact law.sustained_pure fun w₁ _ => law.literal w₁ .absent

theorem sustained_echo (stmt : Stmt) :
    upkeep.Sustained w (fun _ _ => True) (echo stmt) := by
  cases stmt with
  | expression expr =>
    refine law.sustained_bind law.sustained_get fun _ session _ _ => ?_
    split
    · exact law.sustained_onTerminal _ _
    · exact law.sustained_pure fun _ _ => trivial
  | _ => exact law.sustained_pure fun _ _ => trivial

/-! ## Traced actions -/

omit law in
theorem kept_silent {action : Action α} (h : upkeep.Sustained w post action) :
    upkeep.Kept w post (Traced.silent action) := by
  intro w₁ session hle hsession
  obtain ⟨w₂, hle₂, hends⟩ := h hle hsession
  exact ⟨w₂, .nil hle₂, hends⟩

theorem kept_bind {first : Traced α} {next : α → Traced β} (h : upkeep.Kept w post first)
    (hnext : ∀ w₁ result, upkeep.le w w₁ → post w₁ result → upkeep.Kept w₁ post' (next result)) :
    upkeep.Kept w post' (first >>= next) := by
  intro w₁ session hle hsession
  obtain ⟨w₂, hpasses, hends⟩ := h hle hsession
  cases hfirst : first.run session with
  | ok result middle =>
    rw [hfirst] at hends
    rw [Traced.log_bind_of_ok hfirst, Traced.run_bind_of_ok hfirst]
    cases hends with
    | ok hmiddle hresult =>
      have hlater := law.trans hle (law.le_of_passes hpasses)
      obtain ⟨w₃, hpasses', hends'⟩ := hnext w₂ result hlater hresult (law.refl w₂) hmiddle
      exact ⟨w₃, law.passes_append hpasses hpasses', hends'⟩
  | error stop middle =>
    rw [hfirst] at hends
    rw [Traced.log_bind_of_error hfirst, Traced.run_bind_of_error hfirst]
    cases hends with
    | error hmiddle => exact ⟨w₂, hpasses, .error hmiddle⟩

theorem kept_enter {traced : Traced α} (task : Task) (h : upkeep.Kept w post traced) :
    upkeep.Kept w post (Traced.enter task traced) := by
  intro w₁ session hle hsession
  obtain ⟨w₂, hpasses, hends⟩ := h hle hsession
  exact ⟨w₂, .cons (law.refl w₁) hsession hpasses, hends⟩

/-- **Keeping the invariant up is a discipline of single moves.** -/
theorem moves : upkeep.discipline.Moves Traced.runner where
  trans := law.trans
  values_mono := law.values_mono
  literal := law.literal
  part _ _ := trivial
  value _ _ := trivial
  inside _ _ := trivial
  pure h := kept_silent (law.sustained_pure h)
  bind := law.kept_bind
  side _ h := h
  lookup _ := kept_silent (law.sustained_lookup _)
  assign name h := kept_silent (law.sustained_assign name h)
  define name h := kept_silent (law.sustained_define name h)
  complete _ h := kept_silent (law.sustained_remember h)
  makeFunction _ := kept_silent (law.sustained_makeFunction _)
  unary _ _ := by
    rw [Traced.ofExcept_eq]
    exact kept_silent (law.sustained_ofExcept _ fun _ => Value.exists_literal_of_unary)
  binary _ _ _ := by
    rw [Traced.ofExcept_eq]
    exact kept_silent (law.sustained_ofExcept _ fun _ => Value.exists_literal_of_binary)
  logical _ _ _ := kept_silent (law.sustained_throw _)
  print _ _ := kept_silent (law.sustained_onTerminal _ _)
  checkCalled _ := kept_silent (law.sustained_checkCalled _)

section Inside

variable {exec : Stmt → Traced Flow}
  (hexec : ∀ w stmt, upkeep.Kept w upkeep.discipline.Flows (exec stmt))
  (htidy : ∀ stmt, (exec stmt).run.Tidy)
include hexec htidy

/-- The world that the statements of a block have built up is that of the session to which the block
goes back. -/
theorem kept_block (body : List Stmt) (w : World) :
    upkeep.Kept w upkeep.discipline.Flows (Traced.block exec body) := by
  intro w₁ session _ hsession
  obtain ⟨w₂, hle₂, hnested⟩ := law.nested hsession
  have hbody := law.moves.execAll (fun stmt (_ : stmt ∈ body) w => hexec w stmt) w₂
  obtain ⟨w₃, hpasses, hends⟩ := hbody (law.refl w₂) hnested
  refine ⟨w₃, law.passes_of_le hle₂ hpasses, ?_⟩
  have hback := law.trans hle₂ (law.le_of_passes hpasses)
  rw [Traced.run_block htidy]
  generalize (Runner.execAll exec body).run session.nested = outcome at hends
  cases hends with
  | ok hinner hflow => exact .ok (law.back hsession hback hinner) hflow
  | error hinner => exact .error (law.back hsession hback hinner)

theorem kept_call (location : Location) {callee : Value} {arguments : List Value}
    (hcallee : upkeep.values w callee)
    (harguments : ∀ argument ∈ arguments, upkeep.values w argument) :
    upkeep.Kept w upkeep.values (Traced.call exec location callee arguments) := by
  cases callee with
  | function f =>
    intro w₁ session hle hsession
    rw [Traced.log_call_function]
    by_cases harity : arguments.length = f.arity
    · by_cases hdepth : session.callDepth < session.options.maxCallDepth
      · rw [if_pos ⟨harity, hdepth⟩, Traced.run_call_entered htidy location harity hdepth]
        obtain ⟨w₂, hle₂, hentered⟩ := law.entered hsession (law.values_mono hcallee hle)
          fun argument hmem => law.values_mono (harguments argument hmem) hle
        have hbody := law.moves.execAll
          (fun stmt (_ : stmt ∈ f.declaration.body) w => hexec w stmt) w₂
        obtain ⟨w₃, hpasses, hends⟩ := hbody (law.refl w₂) hentered
        refine ⟨w₃, .cons (law.refl w₁) hsession (law.passes_of_le hle₂ hpasses), ?_⟩
        have hback := law.trans hle₂ (law.le_of_passes hpasses)
        generalize (Runner.execAll exec f.declaration.body).run _ = outcome at hends
        cases hends with
        | @ok flow after hinner hflow =>
          cases flow with
          | returned value => exact .ok (law.back hsession hback hinner) hflow
          | normal => exact .ok (law.back hsession hback hinner) (law.lastValue hinner)
        | error hinner => exact .error (law.back hsession hback hinner)
      · rw [if_neg fun hopen => hdepth hopen.2, Traced.morphism_run.run_call (fun _ => rfl),
          call_function _ _ harity, callFunction_full _ _ _ (Nat.not_lt.mp hdepth)]
        exact ⟨w₁, .cons (law.refl w₁) hsession (.nil (law.refl w₁)), .error hsession⟩
    · rw [if_neg fun hopen => harity hopen.1, Traced.morphism_run.run_call (fun _ => rfl),
        call_function_of_ne _ _ harity]
      exact ⟨w₁, .cons (law.refl w₁) hsession (.nil (law.refl w₁)), .error hsession⟩
  | native f =>
    have hcheck : upkeep.Kept w (fun _ _ => True)
        (Traced.runner.checkArity location f.name f.arity arguments) := by
      rw [Traced.checkArity_eq]
      exact kept_silent (law.sustained_checkArity _ _ _ _)
    refine law.kept_enter _ (law.kept_bind hcheck fun _ _ _ _ => ?_)
    rw [Traced.callNative_eq]
    exact kept_silent (law.sustained_callNative location f arguments)
  | integer n | string s | boolean b | absent =>
    exact law.kept_enter _ (kept_silent (law.sustained_throw _))

end Inside

/-! ## Evaluation and execution -/

omit law in
theorem tidy_exec (steps : Nat) (stmt : Stmt) : (Traced.exec steps stmt).run.Tidy := by
  rw [Traced.run_exec]
  exact Action.tidy_exec steps stmt

/-- **Every run keeps the invariant up.** -/
theorem lawful : upkeep.discipline.Lawful Traced.runner where
  toMoves := law.moves
  exhausted := @fun _ _ _ => kept_silent (law.sustained_throw _)
  enter _ h := law.kept_enter _ h
  block _ hexec := law.kept_block (fun w stmt => hexec w stmt trivial) (tidy_exec _) _ _
  call _ hexec hfunction hvalues :=
    law.kept_call (fun w stmt => hexec w stmt trivial) (tidy_exec _) _ hfunction hvalues
  echo stmt := by
    rw [Traced.echo_eq]
    exact kept_silent (law.sustained_echo stmt)
  flush := @fun _ => kept_silent (law.sustained_onTerminal _ _)

/-! ## Sessions in use -/

/-- **So does everything that can be done with a session**, if the values that are called and passed
from outside are known. -/
theorem after (steps : Nat) {activity : Activity} (hknown : activity.Among (upkeep.values w))
    {session : Session} (hsession : upkeep.holds w session) :
    ∃ w', upkeep.Passes w (activity.log steps session) w' ∧
      upkeep.holds w' (activity.after steps session) := by
  have hends {α : Type} {post : World → α → Prop} {traced : Traced α} {action : Action α}
      (hkept : upkeep.Kept w post traced) (hrun : traced.run = action) :
      ∃ w', upkeep.Passes w (traced.log session) w' ∧
        upkeep.holds w' (stateAfter action session) := by
    obtain ⟨w', hpasses, hends⟩ := hkept (law.refl w) hsession
    rw [hrun] at hends
    exact ⟨w', hpasses, hends.stateAfter⟩
  have hinterpret (statements : List Stmt) := hends
    (law.lawful.interpret steps (fun stmt (_ : stmt ∈ statements) => trivial) w)
    (Traced.run_interpret steps statements)
  cases activity with
  | eval expr =>
    exact hends ((law.lawful.steps steps).1 w expr trivial) (Traced.run_eval steps expr)
  | exec stmt =>
    exact hends ((law.lawful.steps steps).2 w stmt trivial) (Traced.run_exec steps stmt)
  | call callee location arguments =>
    have hcall := law.kept_call (fun w stmt => (law.lawful.steps steps).2 w stmt trivial)
      (tidy_exec steps) location hknown.1 hknown.2
    exact hends hcall
      (Traced.morphism_run.run_call (Traced.run_exec steps) location callee arguments)
  | interpret statements => exact hinterpret statements
  | run source =>
    change ∃ w', upkeep.Passes w ((script? source).elim [] _) w' ∧
      upkeep.holds w' (stateAfter (Session.run steps source) session)
    rw [stateAfter_run]
    cases script? source with
    | none => exact ⟨w, .nil (law.refl w), hsession⟩
    | some statements => exact hinterpret statements

end Lawful

end Upkeep

end Scriptlet
