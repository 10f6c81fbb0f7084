import Scriptlet.Proofs.Session.Provenance

/-!
# Which functions are equal

Two functions are equal exactly if they stem from the same execution of a declaration. This is so at
every moment of whatever is done with a session: when the same declaration is executed again, in a
loop, in another call or in a later script, the function that it makes is equal to none that there
was, while assigning a function, passing it, returning it and keeping it in a scope change nothing
about which one it is.

## Main definitions

* `Function.StemsFrom`, `Value.Stems` — the execution that made a function, and values whose
  function was made by one
* `Session.Reached` — the sessions that are gone through, each with what happened up to then
* `Session.Identified` — what equality tells apart in a session

## Main results

* `Activity.documented`, `Session.Reached.known` — what is known at every moment
* `functions_identified` — equality is identity, and executions of declarations make new functions
-/

namespace Scriptlet

open Scriptlet.Action

/-! ## Executions of declarations -/

/-- A function was made by the execution of a declaration at a position of what happened. -/
def Function.StemsFrom (past : List Occasion) (i : Nat) (f : Function) : Prop :=
  ∃ declaration session after, past[i]? = some ⟨.makeFunction declaration, session⟩ ∧
    Action.makeFunction declaration session = .ok f after

/-- A value that is no declared function, or one that was made before. -/
def Value.Stems (past : List Occasion) (value : Value) : Prop :=
  ∀ f, value = .function f → ∃ i, f.StemsFrom past i

theorem Move.mem_made {α : Type} {single : Move α} {session : Session} {f : Function} :
    f ∈ single.made session ↔ ∃ declaration after,
      (⟨single, session⟩ : Occasion) = ⟨.makeFunction declaration, session⟩ ∧
        Action.makeFunction declaration session = .ok f after := by
  constructor
  · intro hmem
    cases single with
    | makeFunction declaration =>
      cases List.mem_singleton.mp hmem
      exact ⟨declaration, _, rfl, rfl⟩
    | _ => exact absurd hmem List.not_mem_nil
  · rintro ⟨declaration, after, hoccasion, hmade⟩
    cases hoccasion
    cases hmade
    exact List.mem_singleton.mpr rfl

theorem Function.stemsFrom_iff {past : List Occasion} {i : Nat} {f : Function} :
    f.StemsFrom past i ↔
      ∃ occasion, past[i]? = some occasion ∧ f ∈ occasion.move.made occasion.session := by
  constructor
  · rintro ⟨declaration, session, after, hoccasion, hmade⟩
    exact ⟨_, hoccasion, Move.mem_made.mpr ⟨declaration, after, rfl, hmade⟩⟩
  · rintro ⟨occasion, hoccasion, hmem⟩
    obtain ⟨declaration, after, heq, hmade⟩ := Move.mem_made.mp hmem
    exact ⟨declaration, _, after, heq ▸ hoccasion, hmade⟩

theorem mem_made_iff {past : List Occasion} {f : Function} :
    f ∈ made past ↔ ∃ i, f.StemsFrom past i := by
  rw [made, List.mem_flatMap]
  constructor
  · rintro ⟨occasion, hmem, hmade⟩
    obtain ⟨i, hi⟩ := List.mem_iff_getElem?.mp hmem
    exact ⟨i, Function.stemsFrom_iff.mpr ⟨occasion, hi, hmade⟩⟩
  · rintro ⟨i, hstems⟩
    obtain ⟨occasion, hi, hmade⟩ := Function.stemsFrom_iff.mp hstems
    exact ⟨occasion, List.mem_of_getElem? hi, hmade⟩

theorem Value.stems_iff {past : List Occasion} {value : Value} :
    value.Stems past ↔ value.OneOf (made past) := by
  cases value with
  | function f => simp [Stems, OneOf, mem_made_iff]
  | _ => simp [Stems, OneOf]

/-- Functions stand in the order of the executions that made them. -/
theorem Function.StemsFrom.getElem? {past : List Occasion} {i : Nat} {f : Function}
    (h : f.StemsFrom past i) :
    (made past)[(made (past.take i)).length]? = some f ∧
      made (past.take (i + 1)) = made (past.take i) ++ [f] := by
  obtain ⟨declaration, session, after, hoccasion, hmade⟩ := h
  cases hmade
  have htake : past.take (i + 1) = past.take i ++ [⟨.makeFunction declaration, session⟩] := by
    rw [List.take_add_one, hoccasion]
    rfl
  have hnext : made (past.take (i + 1)) =
      made (past.take i) ++ [⟨session.functions, declaration, session.scope⟩] := by
    rw [htake, made_append]
    rfl
  refine ⟨?_, hnext⟩
  rw [← List.take_append_drop (i + 1) past, made_append, List.take_append_drop, hnext,
    List.append_assoc, List.getElem?_append_right le_rfl, Nat.sub_self]
  rfl

/-! ## Every moment -/

/-- The moves that are made when a session or one of its scopes is used, in their order. -/
def Use.occasions (session : Session) : Use → List Occasion
  | act steps activity => activity.occasions steps session
  | _ => []

/-- The values that are given from outside are among those stated. -/
def Use.Among (known : Value → Prop) : Use → Prop
  | act _ activity => activity.Among known
  | enclose _ => True
  | define _ _ value | assign _ _ value => known value

/-- The sessions that are gone through from a new one on, each with all moves that were made up to
then. Functions that are given from outside stem from the session. -/
inductive Session.Reached : List Occasion → Session → Prop
  | start (terminal : Terminal) (options : Options) : Reached [] (.start terminal options)
  /-- After a use. -/
  | used {past : List Occasion} {session : Session} (use : Use) : Reached past session →
      use.Among (Value.Stems past) → Reached (past ++ use.occasions session) (use.after session)
  /-- In the middle of one, before any of its moves. -/
  | amid {past earlier later : List Occasion} {session : Session} {occasion : Occasion}
      (steps : Nat) (activity : Activity) : Reached past session →
      activity.Among (Value.Stems past) →
      activity.occasions steps session = earlier ++ occasion :: later →
      Reached (past ++ earlier) occasion.session

theorem Session.Knows.fresh (terminal : Terminal) (options : Options) :
    (Session.start terminal options).Knows [] := by
  have hopen : Session.Knows []
      { Session.start terminal options with store := (Store.openOutermost {}).2 } := by
    refine ⟨nofun, rfl, fun id name value hvalue => ?_, trivial⟩
    obtain ⟨_, hempty⟩ := Store.of_binding?_add hvalue
    simp [Store.binding?, Store.scope?] at hempty
  have hprint := @define _ _ hopen 0 Native.print.name (.native .print) trivial
  exact @define _ _ hprint 0 Native.input.name (.native .input) trivial

/-- Where no move is made, nothing has to be known. -/
theorem Session.Knows.idle {functions : List Function} {session : Session}
    (h : session.Knows functions) :
    Informed functions [] ∧ session.Knows (functions ++ made []) :=
  ⟨trivial, by rwa [made_nil, List.append_nil]⟩

/-- The state in which an action leaves a session knows what the action is known to have made. -/
theorem Plan.Documented.stateAfter {α : Type} {functions : List Function}
    {post : List Function → α → Prop} {occasions : List Occasion} {action : Action α}
    {session : Session} (h : Documented functions post occasions (action session)) :
    (stateAfter action session).Knows (functions ++ made occasions) := by
  rw [Scriptlet.stateAfter]
  cases haction : action session with
  | ok result after => exact (h.ok haction).1
  | error reason after => exact h.error haction

/-- **What is known while a session is used**, and afterwards. -/
theorem Activity.documented {functions : List Function} {session : Session} (steps : Nat)
    {activity : Activity} (hvalues : activity.Among (Value.OneOf functions))
    (h : session.Knows functions) :
    Informed functions (activity.occasions steps session) ∧
      (activity.after steps session).Knows
        (functions ++ made (activity.occasions steps session)) := by
  have hinterpret (statements : List Stmt) :=
    (Plan.honest_interpret steps statements functions).documented h
  simp only [Plan.run_interpret] at hinterpret
  cases activity with
  | eval expr =>
    have heval := (Plan.honest_eval steps expr functions).documented h
    rw [Plan.run_eval] at heval
    exact ⟨heval.along, heval.stateAfter⟩
  | exec stmt =>
    have hexec := (Plan.honest_exec steps stmt functions).documented h
    rw [Plan.run_exec] at hexec
    exact ⟨hexec.along, hexec.stateAfter⟩
  | call callee location arguments =>
    have hcall := (Plan.honest_call steps location callee hvalues.2).documented h
    rw [Plan.run_call] at hcall
    exact ⟨hcall.along, hcall.stateAfter⟩
  | interpret statements =>
    exact ⟨(hinterpret statements).along, (hinterpret statements).stateAfter⟩
  | run source =>
    rw [Activity.after, stateAfter_run, Activity.occasions, Activity.logOf]
    cases script? source with
    | some statements => exact ⟨(hinterpret statements).along, (hinterpret statements).stateAfter⟩
    | none => exact h.idle

/-- One use of a session. -/
theorem Use.documented {functions : List Function} {session : Session} {use : Use}
    (hvalues : use.Among (Value.OneOf functions)) (h : session.Knows functions) :
    Informed functions (use.occasions session) ∧
      (use.after session).Knows (functions ++ made (use.occasions session)) := by
  cases use with
  | act steps activity => exact Activity.documented steps hvalues h
  | enclose outer => exact (h.openEnclosed outer).idle
  | define scope name value => exact (h.define scope name hvalues).idle
  | assign scope name value => exact (h.define _ name hvalues).idle

/-- **What is known at every moment**, now and about all moments before. -/
theorem Session.Reached.known {past : List Occasion} {session : Session}
    (h : Session.Reached past session) : Informed [] past ∧ session.Knows (made past) := by
  have hstems (past : List Occasion) : Value.Stems past = Value.OneOf (made past) :=
    funext fun value => propext Value.stems_iff
  induction h with
  | start terminal options => exact ⟨trivial, .fresh terminal options⟩
  | used use _ hvalues ih =>
    rw [hstems] at hvalues
    obtain ⟨halong, hafter⟩ := Use.documented hvalues ih.2
    rw [made_append, informed_append]
    exact ⟨⟨ih.1, halong⟩, hafter⟩
  | amid steps activity _ hvalues hsplit ih =>
    rw [hstems] at hvalues
    obtain ⟨halong, -⟩ := Activity.documented steps hvalues ih.2
    rw [hsplit, informed_append] at halong
    rw [made_append, informed_append]
    exact ⟨⟨ih.1, halong.1⟩, halong.2.1.1⟩

/-! ## Equality -/

/-- The values of a session: those that are bound anywhere, the last one, and those that are no
declared functions. -/
inductive Session.Holds (session : Session) : Value → Prop
  | bound {id : ScopeId} {name : String} {value : Value} :
      session.store.binding? id name = some value → Holds session value
  | lastValue : Holds session session.lastValue
  | literal (literal : Literal) : Holds session (.ofLiteral literal)
  | native (f : Native) : Holds session (.native f)

theorem Session.Knows.holds {functions : List Function} {session : Session}
    (h : session.Knows functions) {value : Value} (hvalue : session.Holds value) :
    value.OneOf functions := by
  cases hvalue with
  | bound hbinding => exact h.bound hbinding
  | lastValue => exact h.lastValue
  | literal literal => exact Value.oneOf_ofLiteral functions literal
  | native f => trivial

/-- Among functions with numbers of their own, equality is identity. -/
theorem Value.beq_eq_true_iff {functions : List Function}
    (hnumbered : ∀ ⦃i : Nat⦄ ⦃f : Function⦄, functions[i]? = some f → f.id = i) {a b : Value}
    (ha : a.OneOf functions) (hb : b.OneOf functions) : (a == b) = true ↔ a = b := by
  change Value.beq a b = true ↔ a = b
  cases a with
  | function f =>
    cases b with
    | function g =>
      obtain ⟨i, hi⟩ := List.mem_iff_getElem?.mp ha
      obtain ⟨j, hj⟩ := List.mem_iff_getElem?.mp hb
      rw [beq, hnumbered hi, hnumbered hj, beq_iff_eq]
      constructor
      · rintro rfl
        rw [Option.some.inj (hi.symm.trans hj)]
      · intro heq
        rw [← hnumbered hi, ← hnumbered hj, Value.function.inj heq]
    | _ => simp [beq]
  | integer m => cases b <;> simp [beq]
  | string s => cases b <;> simp [beq]
  | boolean s => cases b <;> simp [beq]
  | absent => cases b <;> simp [beq]
  | native f => cases b <;> simp [beq]

/-- Values of different kinds are not equal, whatever they are. -/
theorem Value.beq_of_typeName_ne {a b : Value} (h : a.typeName ≠ b.typeName) :
    (a == b) = false := by
  change Value.beq a b = false
  cases a <;> cases b <;> first | rfl | exact absurd rfl h

/-- Functions that were made on different occasions have different numbers. -/
theorem Function.StemsFrom.id_lt {past : List Occasion} {i j : Nat} {f g : Function}
    (hnumbered : ∀ ⦃k : Nat⦄ ⦃h : Function⦄, (made past)[k]? = some h → h.id = k)
    (hf : f.StemsFrom past i) (hg : g.StemsFrom past j) (hlt : i < j) : f.id < g.id := by
  obtain ⟨hfmade, hnext⟩ := hf.getElem?
  rw [hnumbered hfmade, hnumbered hg.getElem?.1]
  have hprefix : made (past.take (i + 1)) <+: made (past.take j) := by
    obtain ⟨rest, hrest⟩ := List.take_prefix_take_left (l := past) hlt
    exact ⟨made rest, by rw [← made_append, hrest]⟩
  have hlen := hprefix.length_le
  rw [hnext, List.length_append, List.length_singleton] at hlen
  exact hlen

/-- What equality tells apart in a session, given all moves that were made up to then. -/
structure Session.Identified (past : List Occasion) (session : Session) : Prop where
  /-- Every function of the session was made by an execution of a declaration. -/
  stems : ∀ ⦃value⦄, session.Holds value → value.Stems past
  /-- Two functions that were ever made are equal exactly if the same execution made them. -/
  same : ∀ ⦃i j f g⦄, f.StemsFrom past i → g.StemsFrom past j →
    ((Value.function f == .function g) = true ↔ i = j)
  /-- Equal values are the same. So equal functions have the same declaration and scope. -/
  identity : ∀ ⦃a b : Value⦄, a.Stems past → b.Stems past → ((a == b) = true ↔ a = b)
  equivalence : Equivalence fun a b : { value : Value // value.Stems past } => (a.1 == b.1) = true
  /-- Values of different kinds are never equal, nor are declared functions and others. -/
  kinds : ∀ ⦃a b : Value⦄, a.typeName ≠ b.typeName ∨ (∃ f g, a = .function f ∧ b = .native g) →
    (a == b) = false ∧ (b == a) = false
  /-- A function differs from every value that there was when it was made. -/
  fresh : ∀ ⦃i f declaration before⦄, past[i]? = some ⟨.makeFunction declaration, before⟩ →
    f.StemsFrom past i → f.declaration = declaration ∧ f.scope = before.scope ∧
      ∀ value, before.Holds value →
        (value == .function f) = false ∧ (Value.function f == value) = false
  /-- To execute a declaration now makes one function of it in the current scope and binds it there.
  The function differs from all that was made before. -/
  declared : ∀ steps name params body, ∃ f,
    let later := past ++ (Activity.exec (.function name params body)).occasions (steps + 1) session
    let after := { session with
      functions := session.functions + 1
      store := session.store.define session.scope name.lexeme (.function f) }
    Action.exec (steps + 1) (.function name params body) session = .ok .normal after ∧
      Session.Reached later after ∧ f.StemsFrom later past.length ∧
      f.declaration = ⟨name, params, body⟩ ∧ f.scope = session.scope ∧
      ∀ value : Value, value.Stems past → (value == .function f) = false
  /-- Whatever an expression is worth was made before or while it is evaluated. -/
  evaluated : ∀ ⦃steps expr value after⦄, Action.eval steps expr session = .ok value after →
    let later := past ++ (Activity.eval expr).occasions steps session
    Session.Reached later after ∧ value.Stems later
  /-- To compare what two expressions are worth tells whether these are the same value. -/
  compared : ∀ ⦃steps left operator right a b middle after⦄, operator.kind = .equalEqual →
    Action.eval steps left session = .ok a middle → Action.eval steps right middle = .ok b after →
    ∃ result, Action.eval (steps + 1) (.binary left operator right) session =
      .ok (.boolean result) after ∧ (result = true ↔ a = b)

/-- What was made before a function has a smaller number. -/
theorem Value.beq_function_of_lt {functions : List Function} {f : Function} {value : Value}
    (hbefore : ∀ g ∈ functions, g.id < f.id) (hvalue : value.OneOf functions) :
    (value == .function f) = false ∧ (Value.function f == value) = false := by
  change Value.beq value (.function f) = false ∧ Value.beq (.function f) value = false
  cases value with
  | function g =>
    have hne : g.id ≠ f.id := (hbefore g hvalue).ne
    exact ⟨beq_false_of_ne hne, beq_false_of_ne hne.symm⟩
  | _ => exact ⟨rfl, rfl⟩

theorem Session.Knows.id_lt {functions : List Function} {session : Session}
    (h : session.Knows functions) {g : Function} (hg : g ∈ functions) :
    g.id < session.functions := by
  obtain ⟨i, hi⟩ := List.mem_iff_getElem?.mp hg
  rw [h.numbered hi, h.count]
  exact (List.getElem?_eq_some_iff.mp hi).1

theorem Informed.getElem? {functions : List Function} {past : List Occasion} {i : Nat}
    {occasion : Occasion} (h : Informed functions past) (hi : past[i]? = some occasion) :
    occasion.session.Knows (functions ++ made (past.take i)) := by
  obtain ⟨hlt, rfl⟩ := List.getElem?_eq_some_iff.mp hi
  rw [← List.take_append_drop i past, informed_append, List.drop_eq_getElem_cons hlt] at h
  exact h.2.1.1

theorem Value.Stems.append {past : List Occasion} {value : Value} (h : value.Stems past)
    (more : List Occasion) : value.Stems (past ++ more) := by
  rw [stems_iff, made_append]
  exact (stems_iff.mp h).mono (List.prefix_append _ _)

namespace Session.Reached

variable {past : List Occasion} {session : Session}

theorem same (h : Reached past session) {i j : Nat} {f g : Function} (hf : f.StemsFrom past i)
    (hg : g.StemsFrom past j) : (Value.function f == .function g) = true ↔ i = j := by
  have hnumbered := h.known.2.numbered
  have hbeq : (Value.function f == .function g) = true ↔ f.id = g.id := by
    change (f.id == g.id) = true ↔ f.id = g.id
    exact beq_iff_eq
  rw [hbeq]
  constructor
  · intro hid
    rcases Nat.lt_trichotomy i j with hlt | heq | hlt
    · exact absurd hid (hf.id_lt hnumbered hg hlt).ne
    · exact heq
    · exact absurd hid (hg.id_lt hnumbered hf hlt).ne'
  · rintro rfl
    rw [Option.some.inj (hf.getElem?.1.symm.trans hg.getElem?.1)]

theorem identity (h : Reached past session) {a b : Value} (ha : a.Stems past) (hb : b.Stems past) :
    (a == b) = true ↔ a = b :=
  Value.beq_eq_true_iff h.known.2.numbered (Value.stems_iff.mp ha) (Value.stems_iff.mp hb)

/-- Whatever there was when a function was made has a smaller number or none. -/
theorem fresh (h : Reached past session) {i : Nat} {f : Function} {declaration : FunctionDecl}
    {before : Session} (hi : past[i]? = some ⟨.makeFunction declaration, before⟩)
    (hf : f.StemsFrom past i) : f.declaration = declaration ∧ f.scope = before.scope ∧
      ∀ value, before.Holds value →
        (value == .function f) = false ∧ (Value.function f == value) = false := by
  obtain ⟨_, _, after, hoccasion, hmade⟩ := hf
  cases hi.symm.trans hoccasion
  cases hmade
  have hbefore := h.known.1.getElem? hi
  exact ⟨rfl, rfl, fun value hvalue =>
    Value.beq_function_of_lt (fun g => hbefore.id_lt) (hbefore.holds hvalue)⟩

theorem evaluated (h : Reached past session) {steps : Nat} {expr : Expr} {value : Value}
    {after : Session} (hvalue : Action.eval steps expr session = .ok value after) :
    let later := past ++ (Activity.eval expr).occasions steps session
    Reached later after ∧ value.Stems later := by
  have hused := h.used (.act steps (.eval expr)) trivial
  rw [Use.after, Activity.after, stateAfter, hvalue] at hused
  have hdocumented := (Plan.honest_eval steps expr (made past)).documented h.known.2
  rw [Plan.run_eval] at hdocumented
  refine ⟨hused, Value.stems_iff.mpr ?_⟩
  rw [made_append]
  exact (hdocumented.ok hvalue).2

theorem compared (h : Reached past session) {steps : Nat} {left right : Expr} {operator : Token}
    {a b : Value} {middle after : Session} (hkind : operator.kind = .equalEqual)
    (hleft : Action.eval steps left session = .ok a middle)
    (hright : Action.eval steps right middle = .ok b after) :
    ∃ result, Action.eval (steps + 1) (.binary left operator right) session =
      .ok (.boolean result) after ∧ (result = true ↔ a = b) := by
  obtain ⟨hmiddle, ha⟩ := h.evaluated hleft
  obtain ⟨hafter, hb⟩ := hmiddle.evaluated hright
  refine ⟨a == b, ?_, hafter.identity (ha.append _) hb⟩
  have hbinary : Value.binary operator a b = .ok (.boolean (a == b)) := by
    simp only [Value.binary, hkind]
  rw [Action.eval, Action.evalWith, bind_of_ok hleft, bind_of_ok hright, hbinary]
  rfl

theorem declared (h : Reached past session) (steps : Nat) (name : Token) (params : List Token)
    (body : List Stmt) : ∃ f,
      let later :=
        past ++ (Activity.exec (.function name params body)).occasions (steps + 1) session
      let after := { session with
        functions := session.functions + 1
        store := session.store.define session.scope name.lexeme (.function f) }
      Action.exec (steps + 1) (.function name params body) session = .ok .normal after ∧
        Reached later after ∧ f.StemsFrom later past.length ∧
        f.declaration = ⟨name, params, body⟩ ∧ f.scope = session.scope ∧
        ∀ value : Value, value.Stems past → (value == .function f) = false := by
  refine ⟨⟨session.functions, ⟨name, params, body⟩, session.scope⟩, rfl,
    h.used (.act (steps + 1) (.exec (.function name params body))) trivial,
    ⟨⟨name, params, body⟩, session, _, ?_, rfl⟩, rfl, rfl, fun value hvalue => ?_⟩
  · rw [List.getElem?_append_right le_rfl, Nat.sub_self]
    rfl
  · exact (Value.beq_function_of_lt (fun g => h.known.2.id_lt) (Value.stems_iff.mp hvalue)).1

end Session.Reached

/-- **Functions are told apart by the execution that made them.** At every moment of whatever is
done with a new session, two functions are equal exactly if they stem from the same execution of a
declaration, and then they are the same, with one declaration and one scope. Every execution makes a
function that differs from all values that there were. Equality is an equivalence on the values of
the session, and tells values of different kinds apart. -/
theorem functions_identified {past : List Occasion} {session : Session}
    (h : Session.Reached past session) : session.Identified past where
  stems value hvalue := Value.stems_iff.mpr (h.known.2.holds hvalue)
  same i j f g := h.same
  identity a b := h.identity
  equivalence := by
    refine ⟨fun a => (h.identity a.2 a.2).mpr rfl, fun {a b} hab => ?_, fun {a b c} hab hbc => ?_⟩
    · exact (h.identity b.2 a.2).mpr ((h.identity a.2 b.2).mp hab).symm
    · exact (h.identity a.2 c.2).mpr
        (((h.identity a.2 b.2).mp hab).trans ((h.identity b.2 c.2).mp hbc))
  kinds := by
    rintro a b (hne | ⟨f, g, rfl, rfl⟩)
    · exact ⟨Value.beq_of_typeName_ne hne, Value.beq_of_typeName_ne hne.symm⟩
    · exact ⟨rfl, rfl⟩
  fresh i f declaration before := h.fresh
  declared := h.declared
  evaluated steps expr value after := h.evaluated
  compared steps left operator right a b middle after := h.compared

namespace Sample

/-- `function f() {}`. -/
def declaring : Stmt := .function ⟨.identifier, "f", .unknown⟩ [] []

/-- A declaration is executed twice, and the first function is kept under another name. -/
def redeclaring : List Stmt :=
  [declaring,
    .expression (.assign ⟨.identifier, "g", .unknown⟩ (.var ⟨.identifier, "f", .unknown⟩)),
    declaring]

/-- The two functions differ only by the execution that made them. -/
theorem redeclaring_identified :
    let session := (Activity.interpret redeclaring).after 9 (.start {} {})
    session.Identified ((Activity.interpret redeclaring).occasions 9 (.start {} {})) ∧
      ∃ f g, session.store.binding? 0 "f" = some (.function f) ∧
        session.store.binding? 0 "g" = some (.function g) ∧ f.declaration = g.declaration ∧
        f.scope = g.scope ∧ (Value.function f == .function g) = false := by
  refine ⟨functions_identified (.used (.act 9 (.interpret redeclaring)) (.start {} {}) trivial),
    ⟨1, ⟨⟨.identifier, "f", .unknown⟩, [], []⟩, 0⟩, ⟨0, ⟨⟨.identifier, "f", .unknown⟩, [], []⟩, 0⟩,
    rfl, rfl, rfl, rfl, rfl⟩

end Sample

end Scriptlet
