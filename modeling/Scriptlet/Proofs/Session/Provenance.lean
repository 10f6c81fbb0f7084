import Scriptlet.Proofs.Session.Plan
import Scriptlet.Proofs.Session.Scopes

/-!
# Where functions come from

A run makes a function each time it executes a declaration, and in no other way: every other move
hands on what was bound, what was the last value, or what was passed. So the functions that a
session holds at any moment are among those that were made up to then.

To say this of all plans, a plan has to be known to make no functions up: whatever it binds,
remembers or passes is no function, or one that it came across. The plans of scripts are of this
kind, and the rest is an induction on the plan, over its moves.

## Main definitions

* `Occasion`, `Plan.occasions` — the moves of a plan as they are made, each with its session
* `made` — the functions that were made on some occasions, in order
* `Value.OneOf` — a value that is no function, or one of some functions
* `Plan.Honest` — a plan that makes no functions up
* `Session.Knows` — a session whose functions are all among those made, which are numbered in order
* `Informed`, `Plan.Documented` — what is known on some occasions, and along a plan

## Main results

* `Plan.honest_eval`, `Plan.honest_exec`, `Plan.honest_call`, `Plan.honest_interpret` — the plans of
  scripts are honest
* `Move.knows`, `Plan.Honest.documented` — what is known behind a move, and along an honest plan
-/

namespace Scriptlet

/-! ## Occasions -/

/-- A move that is made, and the session in which that happens. -/
structure Occasion where
  {Result : Type}
  move : Move Result
  session : Session

/-- The function that a move makes in a session, if it does. -/
def Move.made : {α : Type} → Move α → Session → List Function
  | _, makeFunction declaration, session =>
    match Action.makeFunction declaration session with
    | .ok function _ => [function]
    | .error _ _ => []
  | _, _, _ => []

/-- The functions that were made on some occasions, in the order in which they were made. -/
def made (occasions : List Occasion) : List Function :=
  occasions.flatMap fun occasion => occasion.move.made occasion.session

@[simp] theorem made_nil : made [] = [] := rfl

@[simp] theorem made_append (first second : List Occasion) :
    made (first ++ second) = made first ++ made second := List.flatMap_append

theorem made_cons {α : Type} (single : Move α) (session : Session) (rest : List Occasion) :
    made (⟨single, session⟩ :: rest) = single.made session ++ made rest := rfl

/-- A move that is made in a session is an occasion. -/
def Move.occasions {α : Type} (single : Move α) (session : Session) : List Occasion :=
  [⟨single, session⟩]

/-- The moves that are made when a plan is carried out in a session, in their order. -/
def Plan.occasions {α : Type} (plan : Plan α) : Session → List Occasion := plan.logOf Move.occasions

/-- The moves that are made when a session is used, in their order. -/
def Activity.occasions : Nat → Activity → Session → List Occasion := logOf Move.occasions

/-! ## Honest plans -/

/-- A value that is no function that a script declared, or one of those stated. -/
def Value.OneOf (functions : List Function) : Value → Prop
  | .function f => f ∈ functions
  | _ => True

theorem Value.OneOf.mono {functions more : List Function} {value : Value}
    (h : value.OneOf functions) (hmore : functions <+: more) : value.OneOf more := by
  cases value with
  | function f => exact hmore.subset h
  | _ => trivial

theorem Value.oneOf_ofLiteral (functions : List Function) (literal : Literal) :
    (Value.ofLiteral literal).OneOf functions := by
  cases literal <;> trivial

/-- The value that a move hands on is one of those stated. -/
def Move.Uses (functions : List Function) : {α : Type} → Move α → Prop
  | _, assign _ value => value.OneOf functions
  | _, define _ value => value.OneOf functions
  | _, complete _ value => value.OneOf functions
  | _, _ => True

/-- What a move may give. -/
def Move.Gives (functions : List Function) : {α : Type} → Move α → α → Prop
  | _, lookup _, value => value.OneOf functions
  | _, makeFunction _, function => function ∈ functions
  | _, fallThrough _, value => value.OneOf functions
  | _, lastValue, value => value.OneOf functions
  | _, _, _ => True

/-- The arguments of a body are among the values stated. -/
def Enclosure.Uses (functions : List Function) : Enclosure → Prop
  | block => True
  | body _ arguments => ∀ argument ∈ arguments, argument.OneOf functions

namespace Plan

variable {α β : Type} {functions more : List Function}

/-- A plan that makes no functions up, given those that were made: whatever it hands on and gives is
no function, or one of those, or one that was made on the way. -/
inductive Honest : {α : Type} → List Function → (List Function → α → Prop) → Plan α → Prop
  | done {α : Type} {functions : List Function} {post : List Function → α → Prop} {result : α} :
      (∀ more, functions <+: more → post more result) → Honest functions post (.done result)
  | stop {α : Type} {functions : List Function} {post : List Function → α → Prop}
      (reason : Stop) : Honest functions post (.stop reason)
  | move {α β : Type} {functions : List Function} {post : List Function → β → Prop}
      {single : Move α} {next : α → Plan β} : single.Uses functions →
      (∀ more result, functions <+: more → single.Gives more result →
        Honest more post (next result)) → Honest functions post (.move single next)
  | inside {α β : Type} {functions : List Function} {post : List Function → β → Prop}
      {mid : List Function → α → Prop} {enclosure : Enclosure} {body : Plan α}
      {next : α → Plan β} : enclosure.Uses functions → Honest functions mid body →
      (∀ more result, functions <+: more → mid more result → Honest more post (next result)) →
      Honest functions post (.inside enclosure body next)

theorem Honest.bind {mid : List Function → α → Prop} {post : List Function → β → Prop}
    {plan : Plan α} {next : α → Plan β} (h : Honest functions mid plan)
    (hnext : ∀ more result, functions <+: more → mid more result → Honest more post (next result)) :
    Honest functions post (plan >>= next) := by
  induction h with
  | done hresult =>
    exact hnext _ _ List.prefix_rfl (hresult _ List.prefix_rfl)
  | stop reason => exact .stop reason
  | move huses _ ih =>
    exact .move huses fun more result hmore hgives =>
      ih more result hmore hgives fun later final hlater => hnext later final (hmore.trans hlater)
  | inside huses hbody _ _ ih =>
    exact .inside huses hbody fun more result hmore hresult =>
      ih more result hmore hresult fun later final hlater => hnext later final (hmore.trans hlater)

/-- A move and nothing else. -/
theorem honest_perform (single : Move α) (h : single.Uses functions) :
    Honest functions (fun more => single.Gives more) (perform single) :=
  .move h fun more result _ hgives => .done fun later hlater => by
    cases single with
    | lookup | fallThrough | lastValue => exact Value.OneOf.mono hgives hlater
    | makeFunction declaration => exact hlater.subset hgives
    | _ => trivial

theorem honest_ofExcept (location : Location) {result : Except FaultCause Value}
    (h : ∀ value, result = .ok value → ∃ literal, value = .ofLiteral literal) :
    Honest functions Value.OneOf (runner.ofExcept location result) := by
  cases result with
  | ok value =>
    obtain ⟨literal, rfl⟩ := h value rfl
    exact .done fun more _ => Value.oneOf_ofLiteral more literal
  | error cause => exact .stop _

/-- Making no functions up, as a discipline for all trees. -/
def honesty : Discipline Plan (List Function) where
  le functions more := functions <+: more
  exprs _ := True
  stmts _ := True
  values := Value.OneOf
  Runs := Honest

/-- **Making no functions up is a discipline of single moves.** -/
theorem moves_honesty : honesty.Moves runner where
  trans := List.IsPrefix.trans
  values_mono := Value.OneOf.mono
  literal := Value.oneOf_ofLiteral
  part _ _ := trivial
  value _ _ := trivial
  inside _ _ := trivial
  pure := .done
  bind := Honest.bind
  side _ h := h
  lookup {_ name} _ := honest_perform (.lookup name) trivial
  assign {_ value} name h := honest_perform (.assign name value) h
  define {_ value} name h := honest_perform (.define name value) h
  complete {_ value} completion h := honest_perform (.complete completion value) h
  makeFunction {_ name params body} _ :=
    honest_perform (.makeFunction ⟨name, params, body⟩) trivial
  unary _ _ := honest_ofExcept _ fun _ => Value.exists_literal_of_unary
  binary _ _ _ := honest_ofExcept _ fun _ => Value.exists_literal_of_binary
  logical _ _ _ := .stop _
  print {_ value} text _ :=
    honest_perform (.utter (.statement value.location text)) trivial
  checkCalled {_ keyword _} _ := honest_perform (.checkCalled keyword.location) trivial

/-- A block or a body and nothing else. -/
theorem honest_enclosed {enclosure : Enclosure} {body : Plan Flow} (h : enclosure.Uses functions)
    (hbody : Honest functions honesty.Flows body) :
    Honest functions honesty.Flows (enclosed enclosure body) :=
  .inside h hbody fun _ flow _ hflow => .done fun _ hlater => by
    cases flow with
    | normal => trivial
    | returned value => exact Value.OneOf.mono hflow hlater

theorem honest_callNative (location : Location) (native : Native) (arguments : List Value) :
    Honest functions Value.OneOf (runner.callNative location native arguments) := by
  cases native with
  | print =>
    refine Honest.bind (honest_perform _ (by trivial)) fun more _ _ _ => ?_
    exact .done fun _ _ => trivial
  | input =>
    refine Honest.bind (honest_perform _ (by trivial)) fun more _ _ _ => ?_
    refine Honest.bind (honest_perform _ (by trivial)) fun later line? _ _ => ?_
    cases line? <;> exact .done fun _ _ => trivial

section Calls

variable {exec : Stmt → Plan Flow}
  (hexec : ∀ functions stmt, Honest functions honesty.Flows (exec stmt))
include hexec

theorem honest_callFunction (location : Location) (function : Function) {arguments : List Value}
    (harguments : ∀ argument ∈ arguments, argument.OneOf functions) :
    Honest functions Value.OneOf (runner.callFunction exec location function arguments) := by
  refine Honest.bind (honest_perform _ (by trivial)) fun more _ hmore _ => ?_
  have hbody : Honest more honesty.Flows (enclosed (.body function arguments)
      (Runner.execAll exec function.declaration.body)) :=
    honest_enclosed (fun argument hmem => (harguments argument hmem).mono hmore)
      (moves_honesty.execAll (fun stmt _ functions => hexec functions stmt) more)
  refine hbody.bind fun later flow _ hflow => ?_
  cases flow with
  | normal => exact honest_perform (.fallThrough function) trivial
  | returned value => exact .done fun _ hfinal => Value.OneOf.mono hflow hfinal

theorem honest_callWith (location : Location) (callee : Value) {arguments : List Value}
    (harguments : ∀ argument ∈ arguments, argument.OneOf functions) :
    Honest functions Value.OneOf (call exec location callee arguments) := by
  have hcheck (name : String) (arity : Nat) :
      Honest functions (fun _ _ => True) (runner.checkArity location name arity arguments) := by
    rw [Runner.checkArity]
    split
    · exact .stop _
    · exact .done fun _ _ => trivial
  cases callee with
  | function f =>
    exact (hcheck _ _).bind fun more _ hmore _ => honest_callFunction hexec location f
      fun argument hmem => (harguments argument hmem).mono hmore
  | native f => exact (hcheck _ _).bind fun _ _ _ _ => honest_callNative location f arguments
  | _ => exact .stop _

end Calls

theorem honest_echo (stmt : Stmt) (functions : List Function) :
    Honest functions (fun _ _ => True) (runner.echo stmt) := by
  cases stmt with
  | expression expr =>
    refine Honest.bind (honest_perform _ (by trivial)) fun more dumps _ _ => ?_
    cases dumps with
    | true =>
      refine Honest.bind (honest_perform _ (by trivial)) fun later value _ _ => ?_
      exact .move trivial fun _ _ _ _ => .done fun _ _ => trivial
    | false => exact .done fun _ _ => trivial
  | _ => exact .done fun _ _ => trivial

/-- **No run makes functions up.** -/
theorem lawful_honesty : honesty.Lawful runner where
  toMoves := moves_honesty
  exhausted := .stop _
  enter _ h := h
  block {_ functions _} _ hexec := honest_enclosed (by trivial)
    (moves_honesty.execAll (fun stmt _ functions => hexec functions stmt trivial) functions)
  call _ hexec _ hvalues :=
    honest_callWith (fun functions stmt => hexec functions stmt trivial) _ _ hvalues
  echo stmt := honest_echo stmt _
  flush := honest_perform .flush trivial

/-- **Expressions make no functions up.** -/
theorem honest_eval (steps : Nat) (expr : Expr) (functions : List Function) :
    Honest functions Value.OneOf (eval steps expr) :=
  (lawful_honesty.steps steps).1 functions expr trivial

/-- **Statements make functions of their declarations only.** -/
theorem honest_exec (steps : Nat) (stmt : Stmt) (functions : List Function) :
    Honest functions honesty.Flows (exec steps stmt) :=
  (lawful_honesty.steps steps).2 functions stmt trivial

theorem honest_call (steps : Nat) (location : Location) (callee : Value) {arguments : List Value}
    (harguments : ∀ argument ∈ arguments, argument.OneOf functions) :
    Honest functions Value.OneOf (call (exec steps) location callee arguments) :=
  honest_callWith (fun functions stmt => honest_exec steps stmt functions) location callee
    harguments

/-- **So do scripts.** -/
theorem honest_interpret (steps : Nat) (statements : List Stmt) (functions : List Function) :
    Honest functions (fun _ _ => True) (interpret steps statements) :=
  lawful_honesty.interpret steps (fun _ _ => trivial) functions

end Plan

/-! ## What sessions know -/

/-- A session after some functions were made: they are numbered in the order in which they were
made, and all functions of the session are among them. -/
structure Session.Knows (functions : List Function) (session : Session) : Prop where
  numbered : ∀ ⦃i : Nat⦄ ⦃f : Function⦄, functions[i]? = some f → f.id = i
  count : session.functions = functions.length
  bound : ∀ ⦃id name value⦄, session.store.binding? id name = some value → value.OneOf functions
  lastValue : session.lastValue.OneOf functions

namespace Session.Knows

variable {functions : List Function} {session : Session}

theorem get? (h : session.Knows functions) {id : ScopeId} {name : String} {value : Value}
    (hvalue : session.store.get? id name = some value) : value.OneOf functions := by
  obtain ⟨found, _, hbinding⟩ := List.exists_of_findSome?_eq_some hvalue
  exact h.bound hbinding

theorem define (h : session.Knows functions) (id : ScopeId) (name : String) {value : Value}
    (hvalue : value.OneOf functions) :
    Session.Knows functions { session with store := session.store.define id name value } := by
  refine ⟨h.numbered, h.count, fun other wanted found hfound => ?_, h.lastValue⟩
  rcases Store.eq_or_of_binding?_define hfound with ⟨_, rfl⟩ | hold
  · exact hvalue
  · exact h.bound hold

theorem openEnclosed (h : session.Knows functions) (scope : ScopeId) :
    Session.Knows functions { session with store := (session.store.openEnclosed scope).2 } :=
  ⟨h.numbered, h.count, fun _ _ _ hfound => h.bound (Store.of_binding?_add hfound).2, h.lastValue⟩

theorem bindParams (h : session.Knows functions) (scope : ScopeId)
    {bindings : List (Token × Value)}
    (hvalues : ∀ binding ∈ bindings, binding.2.OneOf functions) :
    Session.Knows functions { session with
      store := bindings.foldl (fun store (param, argument) =>
        store.define scope param.lexeme argument) session.store } := by
  induction bindings generalizing session with
  | nil => exact h
  | cons binding bindings ih =>
    obtain ⟨hvalue, hrest⟩ := List.forall_mem_cons.mp hvalues
    exact ih (h.define scope binding.1.lexeme hvalue) hrest

/-- The scope, the terminal and the open calls do not matter. -/
theorem of_eq {other : Session} (h : session.Knows functions)
    (hstore : other.store = session.store) (hlast : other.lastValue = session.lastValue)
    (hcount : other.functions = session.functions) : other.Knows functions :=
  ⟨h.numbered, hcount.trans h.count, hstore ▸ h.bound, hlast ▸ h.lastValue⟩

theorem remember (h : session.Knows functions) {value : Value} (hvalue : value.OneOf functions) :
    Session.Knows functions { session with lastValue := value } :=
  ⟨h.numbered, h.count, h.bound, hvalue⟩

/-- A function that is made gets the next number. -/
theorem makeFunction (h : session.Knows functions) {function : Function}
    (hid : function.id = session.functions) :
    Session.Knows (functions ++ [function])
      { session with functions := session.functions + 1 } := by
  have hmore : functions <+: functions ++ [function] := List.prefix_append _ _
  refine ⟨fun i f hf => ?_, ?_, fun _ _ _ hfound => (h.bound hfound).mono hmore,
    h.lastValue.mono hmore⟩
  · rcases Nat.lt_trichotomy i functions.length with hi | rfl | hi
    · rw [List.getElem?_append_left hi] at hf
      exact h.numbered hf
    · rw [List.getElem?_concat_length] at hf
      rw [← Option.some.inj hf, hid, h.count]
    · have hlen : (functions ++ [function]).length ≤ i := by
        rw [List.length_append]
        exact hi
      rw [List.getElem?_eq_none hlen] at hf
      cases hf
  · simp [h.count]

theorem onTerminal (h : session.Knows functions) {α : Type} (location : Location)
    (action : EStateM IoError Terminal α) :
    (stateAfter (Action.onTerminal location action) session).Knows functions := by
  simp only [stateAfter, Action.onTerminal]
  cases action session.terminal <;> exact h.of_eq rfl rfl rfl

theorem send (h : session.Knows functions) (utterance : Utterance) :
    (stateAfter utterance.send session).Knows functions := by
  cases utterance with
  | native text =>
    simp only [stateAfter, Utterance.send, Action.onTerminalQuietly]
    cases Terminal.writeLine text session.terminal <;> exact h.of_eq rfl rfl rfl
  | _ => exact h.onTerminal _ _

theorem start (h : session.Knows functions) {enclosure : Enclosure}
    (huses : enclosure.Uses functions) : (enclosure.start session).Knows functions := by
  cases enclosure with
  | block => exact (h.openEnclosed session.scope).of_eq rfl rfl rfl
  | body function arguments =>
    have hvalues : ∀ binding ∈ function.declaration.params.zip arguments,
        binding.2.OneOf functions := fun binding hmem => huses binding.2 (List.of_mem_zip hmem).2
    exact ((h.openEnclosed function.scope).bindParams _ hvalues).of_eq rfl rfl rfl

theorem leave (h : session.Knows functions) (enclosure : Enclosure) (outer : Session) :
    (enclosure.leave outer session).Knows functions := by
  cases enclosure <;> exact h.of_eq rfl rfl rfl

end Session.Knows

/-- **A move makes functions and hands others on.** Whatever a session knows, it knows that and the
function that was made after a move, and so does whoever gets what the move gives. -/
theorem Move.knows {α : Type} {functions : List Function} {session : Session} {single : Move α}
    (huses : single.Uses functions) (h : session.Knows functions) :
    (stateAfter single.action session).Knows (functions ++ single.made session) ∧
      ∀ ⦃result after⦄, single.action session = .ok result after →
        single.Gives (functions ++ single.made session) result := by
  -- Only one of the moves makes a function.
  have hnone {single : Move α} (hmade : single.made session = [])
      (hafter : (stateAfter single.action session).Knows functions)
      (hgives : ∀ ⦃result after⦄, single.action session = .ok result after →
        single.Gives functions result) :
      (stateAfter single.action session).Knows (functions ++ single.made session) ∧
        ∀ ⦃result after⦄, single.action session = .ok result after →
          single.Gives (functions ++ single.made session) result := by
    rw [hmade, List.append_nil]
    exact ⟨hafter, hgives⟩
  cases single with
  | lookup name =>
    refine hnone rfl (by rwa [stateAfter_lookup]) fun result after hlookup => ?_
    cases hfound : session.store.get? session.scope name.lexeme with
    | some value =>
      rw [lookup_of_some hfound] at hlookup
      cases hlookup
      exact h.get? hfound
    | none =>
      rw [lookup_of_none hfound] at hlookup
      cases hlookup
  | assign name value => exact hnone rfl (h.define _ name huses) fun _ _ _ => trivial
  | define name value => exact hnone rfl (h.define _ name huses) fun _ _ _ => trivial
  | makeFunction declaration =>
    refine ⟨h.makeFunction rfl, fun result after hmake => ?_⟩
    cases hmake
    exact List.mem_append_right _ (List.mem_singleton.mpr rfl)
  | checkDepth location =>
    exact hnone rfl (by rwa [stateAfter_checkDepth]) fun _ _ _ => trivial
  | checkCalled location =>
    exact hnone rfl (by rwa [stateAfter_checkCalled]) fun _ _ _ => trivial
  | complete completion value => exact hnone rfl (h.remember huses) fun _ _ _ => trivial
  | fallThrough function =>
    refine hnone rfl h fun result after hlast => ?_
    cases hlast
    exact h.lastValue
  | dumps => exact hnone rfl h fun _ _ _ => trivial
  | lastValue =>
    refine hnone rfl h fun result after hlast => ?_
    cases hlast
    exact h.lastValue
  | utter utterance => exact hnone rfl (h.send utterance) fun _ _ _ => trivial
  | read location => exact hnone rfl (h.onTerminal _ _) fun _ _ _ => trivial
  | flush => exact hnone rfl (h.onTerminal _ _) fun _ _ _ => trivial

/-! ## What is known along a plan -/

/-- On each occasion the session knows the functions that were made up to then, and what the move
hands on is among them. -/
def Informed (functions : List Function) : List Occasion → Prop
  | [] => True
  | occasion :: later =>
    (occasion.session.Knows functions ∧ occasion.move.Uses functions) ∧
      Informed (functions ++ occasion.move.made occasion.session) later

theorem informed_append {functions : List Function} {first second : List Occasion} :
    Informed functions (first ++ second) ↔
      Informed functions first ∧ Informed (functions ++ made first) second := by
  induction first generalizing functions with
  | nil => simp [Informed]
  | cons occasion first ih =>
    have hmade : functions ++ made (occasion :: first) =
        functions ++ occasion.move.made occasion.session ++ made first :=
      (List.append_assoc _ _ _).symm
    rw [List.cons_append, Informed, Informed, ih, hmade]
    exact and_assoc.symm

namespace Plan

variable {α β : Type} {functions : List Function} {session : Session}

/-- What is known along a plan that is carried out, behind it, and about its result. -/
structure Documented (functions : List Function) (post : List Function → α → Prop)
    (occasions : List Occasion) (outcome : EStateM.Result Stop Session α) : Prop where
  along : Informed functions occasions
  ok : ∀ ⦃result after⦄, outcome = .ok result after →
    after.Knows (functions ++ made occasions) ∧ post (functions ++ made occasions) result
  error : ∀ ⦃reason after⦄, outcome = .error reason after →
    after.Knows (functions ++ made occasions)

/-- A first action and, if it gives a result, a plan behind it. -/
theorem Documented.behind {mid : List Function → α → Prop} {post : List Function → β → Prop}
    {first : List Occasion} {action : Action α} {next : α → Plan β}
    (h : Documented functions mid first (action session))
    (hnext : ∀ result middle, mid (functions ++ made first) result →
      middle.Knows (functions ++ made first) → Documented (functions ++ made first) post
        ((next result).occasions middle) ((next result).run middle)) :
    Documented functions post
      (first ++ logBehind (fun result => (next result).occasions) (action session))
      ((action >>= fun result => (next result).run) session) := by
  cases haction : action session with
  | ok result middle =>
    obtain ⟨hmiddle, hresult⟩ := h.ok haction
    obtain ⟨halong, hok, herror⟩ := hnext result middle hresult hmiddle
    rw [bind_of_ok haction, logBehind]
    rw [List.append_assoc, ← made_append] at hok herror
    exact ⟨informed_append.mpr ⟨h.along, halong⟩, hok, herror⟩
  | error reason middle =>
    have hmiddle := h.error haction
    rw [bind_of_error haction, logBehind, List.append_nil]
    refine ⟨h.along, ?_, ?_⟩
    · rintro _ _ ⟨⟩
    · rintro _ _ ⟨⟩
      exact hmiddle

theorem Documented.of_state {post : List Function → α → Prop} {occasions : List Occasion}
    {action : Action α} (halong : Informed functions occasions)
    (hafter : (stateAfter action session).Knows (functions ++ made occasions))
    (hresult : ∀ ⦃result after⦄, action session = .ok result after →
      post (functions ++ made occasions) result) :
    Documented functions post occasions (action session) := by
  refine ⟨halong, fun result after haction => ⟨?_, hresult haction⟩, fun reason after haction => ?_⟩
  · rwa [stateAfter, haction] at hafter
  · rwa [stateAfter, haction] at hafter

/-- **What is known along a plan.** On every occasion and at the end, all functions that there are
were made before. -/
theorem Honest.documented {post : List Function → α → Prop} {plan : Plan α}
    (h : Honest functions post plan) (hsession : session.Knows functions) :
    Documented functions post (plan.occasions session) (plan.run session) := by
  induction h generalizing session with
  | done hresult =>
    refine .of_state trivial ?_ ?_
    · rwa [occasions, logOf, made_nil, List.append_nil]
    · rintro _ _ ⟨⟩
      exact hresult _ (List.prefix_append _ _)
  | stop reason =>
    refine .of_state trivial ?_ ?_
    · rwa [occasions, logOf, made_nil, List.append_nil]
    · rintro _ _ ⟨⟩
  | @move α β functions post single next huses _ ih =>
    obtain ⟨hafter, hgives⟩ := Move.knows huses hsession
    have hmade : made [⟨single, session⟩] = single.made session := by simp [made_cons]
    have hfirst : Documented functions (fun more => single.Gives more) [⟨single, session⟩]
        (single.action session) :=
      .of_state ⟨⟨hsession, huses⟩, trivial⟩ (by rwa [hmade]) (by rwa [hmade])
    exact hfirst.behind fun result middle hresult hmiddle =>
      ih _ result (List.prefix_append _ _) hresult hmiddle
  | @inside α β functions post mid enclosure body next huses _ _ ihbody ih =>
    have hbody := ihbody (hsession.start huses)
    have haround : Documented functions mid (body.occasions (enclosure.start session))
        (enclosure.around body.run session) := by
      refine ⟨hbody.along, fun result after hresult => ?_, fun reason after hreason => ?_⟩
      · obtain ⟨inner, hinner, rfl⟩ := ok_of_onState hresult
        obtain ⟨hknows, hmid⟩ := hbody.ok hinner
        exact ⟨hknows.leave enclosure session, hmid⟩
      · obtain ⟨inner, hinner, rfl⟩ := error_of_onState hreason
        exact (hbody.error hinner).leave enclosure session
    exact haround.behind fun result middle hresult hmiddle =>
      ih _ result (List.prefix_append _ _) hresult hmiddle

end Plan

end Scriptlet
