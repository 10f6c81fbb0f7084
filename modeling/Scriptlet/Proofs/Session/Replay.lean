import Scriptlet.Proofs.Session.Likeness

/-!
# The same script run twice

The most common likeness is that of two runs of the same script that come across the same values.
The runs may differ in their stores and in how many calls may be open; what the stores have in
common is left to the reader of this module, as is which statements, values and scopes a run can
come across. Comparing a run with itself in this way shows what the run keeps.

## Main definitions

* `Replay` — what two runs of the same script have in common
* `Replay.likeness` — the likeness that this makes
* `Replay.Lawful` — what has to be shown about the stores
* `Replay.sameStores` — runs that differ in their limits only

## Main results

* `Replay.Lawful.likeness` — both runs then go alike
-/

namespace Scriptlet

open Scriptlet.Action

/-! ## Operators -/

namespace Value

theorem exists_literal_of_orOverflow {operation : String} {n? : Option Int64} {result : Value}
    (h : orOverflow operation n? = .ok result) : ∃ literal, result = ofLiteral literal := by
  cases n? with
  | none => cases h
  | some n =>
    cases h
    exact ⟨.integer n, rfl⟩

theorem exists_literal_of_binaryInteger {operator : Token} {a b : Int64} {result : Value}
    (h : binaryInteger operator a b = .ok result) : ∃ literal, result = ofLiteral literal := by
  unfold binaryInteger at h
  split at h
  case h_4 =>
    split at h
    · cases h
    · exact exists_literal_of_orOverflow h
  case h_1 | h_2 | h_3 => exact exists_literal_of_orOverflow h
  case h_9 => cases h
  all_goals
    cases h
    exact ⟨.boolean _, rfl⟩

/-- An operator with two operands makes no function. -/
theorem exists_literal_of_binary {operator : Token} {a b result : Value}
    (h : binary operator a b = .ok result) : ∃ literal, result = ofLiteral literal := by
  unfold binary at h
  split at h
  · cases h
    exact ⟨.boolean _, rfl⟩
  · cases h
    exact ⟨.boolean _, rfl⟩
  · split at h
    · exact exists_literal_of_binaryInteger h
    · cases h

/-- An operator in front of its operand makes no function. -/
theorem exists_literal_of_unary {operator : Token} {operand result : Value}
    (h : unary operator operand = .ok result) : ∃ literal, result = ofLiteral literal := by
  unfold unary at h
  split at h
  · cases h
    exact ⟨.boolean _, rfl⟩
  · split at h
    · exact exists_literal_of_orOverflow h
    · cases h
  · cases h

end Value

/-! ## What two runs have in common -/

/-- What two runs of the same script have in common. -/
structure Replay (World : Type) where
  /-- The second world can come after the first. -/
  le : World → World → Prop
  /-- The statements that the runs can come to. -/
  stmts : Stmt → Prop
  /-- The values that the runs can come across. -/
  values : World → Value → Prop
  /-- The scopes that the runs can come across. -/
  scopes : World → ScopeId → Prop
  /-- What the stores have in common. -/
  stores : World → Store → Store → Prop
  /-- How many calls may be open in the two runs. -/
  limits : Nat → Nat → Prop
  /-- When the first run stops like this, nothing is said about the second. -/
  excused : Stop → Prop

namespace Replay

variable {World : Type} (replay : Replay World)

/-- Sessions with stores and limits that have to do with each other, and with the same in all other
respects but the current scope. -/
structure Sessions (w : World) (before before' : Session) : Prop where
  stores : replay.stores w before.store before'.store
  limits : replay.limits before.options.maxCallDepth before'.options.maxCallDepth
  value : replay.values w before.lastValue
  lastValue : before'.lastValue = before.lastValue
  globals : before'.globals = before.globals
  terminal : before'.terminal = before.terminal
  dump : before'.options.dump = before.options.dump
  callDepth : before'.callDepth = before.callDepth
  functions : before'.functions = before.functions

/-- But for their stores and limits, sessions with the same current scope are the same. -/
theorem Sessions.eq {replay : Replay World} {w : World} {session session' : Session}
    (h : replay.Sessions w session session') (hscope : session'.scope = session.scope) :
    session' = { session with
      store := session'.store
      options := ⟨session.options.dump, session'.options.maxCallDepth⟩ } := by
  obtain ⟨_, _, _, hlast, hglobals, hterminal, hdump, hdepth, hfunctions⟩ := h
  rw [← hlast, ← hglobals, ← hterminal, ← hdump, ← hdepth, ← hfunctions, ← hscope]

/-- Both runs have the same trees and values, and stop alike. -/
def likeness : Likeness World where
  le := replay.le
  places := Eq
  tokens := Eq
  exprs := Eq
  stmts stmt stmt' := stmt' = stmt ∧ replay.stmts stmt
  values w value value' := value' = value ∧ replay.values w value
  scopes w scope scope' := scope' = scope ∧ replay.scopes w scope
  sessions := replay.Sessions
  stops := Eq
  excused := replay.excused

/-- **What has to be shown about the statements, the values and the stores** of two runs. -/
structure Lawful : Prop where
  refl : ∀ w, replay.le w w
  trans : ∀ {u v w}, replay.le u v → replay.le v w → replay.le u w
  values_mono : ∀ {w w' value}, replay.values w value → replay.le w w' → replay.values w' value
  scopes_mono : ∀ {w w' scope}, replay.scopes w scope → replay.le w w' → replay.scopes w' scope
  /-- With a statement the runs can come to its parts. -/
  block : ∀ {body}, replay.stmts (.block body) → ∀ stmt ∈ body, replay.stmts stmt
  yes : ∀ {condition yes no?}, replay.stmts (.branch condition yes no?) → replay.stmts yes
  no : ∀ {condition yes no}, replay.stmts (.branch condition yes (some no)) → replay.stmts no
  loop : ∀ {condition body}, replay.stmts (.loop condition body) → replay.stmts body
  declared : ∀ {name params body}, replay.stmts (.function name params body) →
    ∀ stmt ∈ body, replay.stmts stmt
  /-- With a function the runs can come to its body and to its scope, and with nothing else. -/
  literal : ∀ w literal, replay.values w (.ofLiteral literal)
  function : ∀ {w f}, replay.values w (.function f) ↔
    (∀ stmt ∈ f.declaration.body, replay.stmts stmt) ∧ replay.scopes w f.scope
  /-- The stores answer alike and stay alike. -/
  get? : ∀ {w store store' scope} (name : String), replay.stores w store store' →
    replay.scopes w scope → store'.get? scope name = store.get? scope name ∧
      ∀ value, store.get? scope name = some value → replay.values w value
  target : ∀ {w store store' scope} (name : String), replay.stores w store store' →
    replay.scopes w scope → store'.target scope name = store.target scope name ∧
      replay.scopes w (store.target scope name)
  define : ∀ {w store store' scope value} (name : String), replay.stores w store store' →
    replay.scopes w scope → replay.values w value →
    replay.stores w (store.define scope name value) (store'.define scope name value)
  openEnclosed : ∀ {w store store' scope}, replay.stores w store store' → replay.scopes w scope →
    (store'.openEnclosed scope).1 = (store.openEnclosed scope).1 ∧
      ∃ w', replay.le w w' ∧ replay.scopes w' (store.openEnclosed scope).1 ∧
        replay.stores w' (store.openEnclosed scope).2 (store'.openEnclosed scope).2
  /-- The second run may open as many calls, or more and the first is excused when it may not. -/
  limits_le : ∀ {limit limit'}, replay.limits limit limit' → limit ≤ limit'
  overflow : ∀ {limit limit'} (place : Location), replay.limits limit limit' →
    limit = limit' ∨ replay.excused (.fault ⟨.stackOverflow limit, place⟩)

variable {replay} {w : World}

theorem parts_same {stmts : List Stmt} (h : ∀ stmt ∈ stmts, replay.stmts stmt) :
    List.Forall₂ replay.likeness.stmts stmts stmts :=
  List.forall₂_same.mpr fun stmt hstmt => ⟨rfl, h stmt hstmt⟩

theorem decls_same {decl : FunctionDecl} (h : ∀ stmt ∈ decl.body, replay.stmts stmt) :
    replay.likeness.Decls decl decl :=
  ⟨rfl, List.forall₂_same.mpr fun _ _ => rfl, parts_same h⟩

theorem eq_of_parts {stmts stmts' : List Stmt}
    (h : List.Forall₂ replay.likeness.stmts stmts stmts') :
    stmts' = stmts ∧ ∀ stmt ∈ stmts, replay.stmts stmt := by
  induction h with
  | nil => exact ⟨rfl, nofun⟩
  | cons hstmt _ ih =>
    exact ⟨by rw [hstmt.1, ih.1], List.forall_mem_cons.mpr ⟨hstmt.2, ih.2⟩⟩

/-- Declarations that are alike are the same. -/
theorem eq_of_decls {decl decl' : FunctionDecl} (h : replay.likeness.Decls decl decl') :
    decl' = decl ∧ ∀ stmt ∈ decl.body, replay.stmts stmt := by
  obtain ⟨name, params, body⟩ := decl
  obtain ⟨name', params', body'⟩ := decl'
  obtain ⟨hname, hparams, hbody⟩ := h
  obtain rfl : name = name' := hname
  obtain rfl : params = params' := List.forall₂_eq_eq_eq ▸ hparams
  obtain ⟨rfl, hstmts⟩ := eq_of_parts hbody
  exact ⟨rfl, hstmts⟩

theorem exprParts_same (expr : Expr) : replay.likeness.ExprParts expr expr :=
  .refl (fun _ => rfl) (fun _ => rfl) expr

theorem optional_same (expr? : Option Expr) : Option.Rel replay.likeness.exprs expr? expr? := by
  cases expr? with
  | none => exact .none
  | some expr => exact .some rfl

/-- The same terminal does the same. -/
theorem onTerminal_alike {α : Type} (hrefl : ∀ w, replay.le w w) (place : Location)
    (action : EStateM IoError Terminal α) :
    replay.likeness.Alike False w (fun _ => Eq) (onTerminal place action)
      (onTerminal place action) := by
  intro before before' h _
  unfold onTerminal
  rw [h.terminal]
  cases action before.terminal with
  | ok result terminal => exact .ok ⟨hrefl w, { h with terminal := rfl }, rfl, rfl⟩ rfl
  | error error terminal => exact .error ⟨hrefl w, { h with terminal := rfl }, rfl, rfl⟩ rfl

theorem onTerminalQuietly_alike (hrefl : ∀ w, replay.le w w)
    (action : EStateM IoError Terminal Unit) :
    replay.likeness.Alike False w (fun _ => Eq) (onTerminalQuietly action)
      (onTerminalQuietly action) := by
  intro before before' h _
  unfold onTerminalQuietly
  rw [h.terminal]
  cases action before.terminal with
  | ok result terminal => exact .ok ⟨hrefl w, { h with terminal := rfl }, rfl, rfl⟩ rfl
  | error error terminal => exact .ok ⟨hrefl w, { h with terminal := rfl }, rfl, rfl⟩ rfl

namespace Lawful

variable (law : replay.Lawful)
include law

theorem stmtParts {stmt : Stmt} (h : replay.stmts stmt) : replay.likeness.StmtParts stmt stmt := by
  cases stmt with
  | expression expr => exact .expression rfl
  | print expr => exact .print rfl
  | var name expr? => exact .var rfl (optional_same expr?)
  | block body => exact .block (parts_same (law.block h))
  | branch condition yes no? =>
    refine .branch rfl ⟨rfl, law.yes h⟩ ?_
    cases no? with
    | none => exact .none
    | some no => exact .some ⟨rfl, law.no h⟩
  | loop condition body => exact .loop rfl ⟨rfl, law.loop h⟩
  | function name params body => exact .function (decls_same (law.declared h))
  | ret keyword expr? => exact .ret rfl (optional_same expr?)

theorem valueParts {value : Value} (h : replay.values w value) :
    replay.likeness.ValueParts w value value := by
  cases value with
  | integer n => exact .literal (.integer n)
  | string s => exact .literal (.string s)
  | boolean b => exact .literal (.boolean b)
  | absent => exact .literal .absent
  | native f => exact .native f
  | function f =>
    obtain ⟨hbody, hscope⟩ := law.function.mp h
    exact .function (decls_same hbody) ⟨rfl, hscope⟩

/-- An operation that makes no function gives the same on both sides. -/
theorem results {place : Location} {result : Except FaultCause Value}
    (h : ∀ value, result = .ok value → ∃ literal, value = .ofLiteral literal) :
    replay.likeness.Results w place place result result := by
  cases result with
  | error cause => exact .error rfl
  | ok value =>
    obtain ⟨literal, rfl⟩ := h value rfl
    exact .ok ⟨rfl, law.literal w literal⟩

theorem checkDepth_alike (place : Location) :
    replay.likeness.Alike False w Likeness.anything (checkDepth place) (checkDepth place) := by
  intro before before' h _
  unfold checkDepth
  rw [h.callDepth]
  by_cases hfull : before.options.maxCallDepth ≤ before.callDepth
  · rw [if_pos hfull]
    rcases law.overflow place h.limits with heq | hexcused
    · rw [← heq, if_pos hfull]
      exact .error ⟨law.refl w, h, rfl, rfl⟩ rfl
    · exact .excused hexcused
  · have hle := law.limits_le h.limits
    rw [if_neg hfull, if_neg (by omega)]
    exact .ok ⟨law.refl w, h, rfl, rfl⟩ trivial

/-- **The same script goes the same way twice.** -/
theorem likeness : replay.likeness.Lawful where
  refl := law.refl
  trans := law.trans
  values_mono h hle := ⟨h.1, law.values_mono h.2 hle⟩
  scopes_mono h hle := ⟨h.1, law.scopes_mono h.2 hle⟩
  kind h := congrArg Token.kind h
  lexeme h := congrArg Token.lexeme h
  place h := congrArg Token.location h
  unknown := rfl
  expr := by
    rintro expr _ rfl
    exact exprParts_same expr
  stmt := by
    rintro stmt _ ⟨rfl, h⟩
    exact law.stmtParts h
  value := by
    rintro w value _ ⟨rfl, h⟩
    exact law.valueParts h
  literal w literal := ⟨rfl, law.literal w literal⟩
  exhausted := rfl
  fault := by
    rintro cause place _ _ rfl
    rfl
  unary := by
    rintro w operator _ operand _ value _ ⟨⟩ ⟨rfl, _⟩
    exact law.results fun _ => Value.exists_literal_of_unary
  binary := by
    rintro w left _ operator _ right _ a _ b _ ⟨⟩ ⟨rfl, _⟩ ⟨rfl, _⟩
    exact law.results fun _ => Value.exists_literal_of_binary
  logical := by
    rintro left _ operator _ right _ ⟨⟩ _ _
    rfl
  callDepth h := h.callDepth.symm
  lastValue h := ⟨h.lastValue, h.value⟩
  get? := by
    rintro w before before' _ scope name h ⟨rfl, hscope⟩
    obtain ⟨heq, hvalue⟩ := law.get? name h.stores hscope
    rw [heq]
    cases hfound : before.store.get? scope name with
    | none => exact .none
    | some value => exact .some ⟨rfl, hvalue value hfound⟩
  rescope _ _ h := { h with }
  begun h := { h with callDepth := congrArg (· + 1) h.callDepth }
  ended h := { h with callDepth := congrArg (· - 1) h.callDepth }
  remember h hvalue := { h with value := hvalue.2, lastValue := hvalue.1 }
  define := by
    rintro w before before' scope _ value _ name h ⟨rfl, hscope⟩ ⟨rfl, hvalue⟩
    exact { h with stores := law.define name h.stores hscope hvalue }
  assign := by
    rintro w before before' scope _ value _ name h ⟨rfl, hscope⟩ ⟨rfl, hvalue⟩
    obtain ⟨heq, htarget⟩ := law.target name h.stores hscope
    unfold Store.assign
    rw [heq]
    exact { h with stores := law.define name h.stores htarget hvalue }
  openScope := by
    rintro w before before' scope _ h ⟨rfl, hscope⟩
    obtain ⟨heq, w', hle, hnew, hstores⟩ := law.openEnclosed h.stores hscope
    exact ⟨w', hle, { h with stores := hstores, value := law.values_mono h.value hle },
      heq, hnew⟩
  makeFunction := by
    rintro w before before' decl decl' h ⟨hscope, hcurrent⟩ hdecl
    obtain ⟨rfl, hbody⟩ := eq_of_decls hdecl
    refine ⟨w, law.refl w, { h with functions := congrArg (· + 1) h.functions }, ?_, ?_⟩
    · rw [h.functions, hscope]
    · exact law.function.mpr ⟨hbody, hcurrent⟩
  checkDepth := by
    rintro w place _ rfl
    exact law.checkDepth_alike place
  writeLine := by
    rintro w place _ text rfl
    exact (onTerminal_alike law.refl place _).imp fun _ => trivial
  writeLineQuietly text := (onTerminalQuietly_alike law.refl _).imp fun _ => trivial
  writePrompt := by
    rintro w place _ text rfl
    exact (onTerminal_alike law.refl place _).imp fun _ => trivial
  readLine := by
    rintro w place _ rfl
    exact onTerminal_alike law.refl place _

end Lawful

/-! ## The same values and stores -/

/-- Runs that come across the same values and stores, under limits that may differ. -/
def sameStores (limits : Nat → Nat → Prop) (excused : Stop → Prop) : Replay Unit where
  le _ _ := True
  stmts _ := True
  values _ _ := True
  scopes _ _ := True
  stores _ store store' := store' = store
  limits := limits
  excused := excused

theorem sameStores_lawful {limits : Nat → Nat → Prop} {excused : Stop → Prop}
    (hle : ∀ {limit limit'}, limits limit limit' → limit ≤ limit')
    (hoverflow : ∀ {limit limit'} (place : Location), limits limit limit' →
      limit = limit' ∨ excused (.fault ⟨.stackOverflow limit, place⟩)) :
    (sameStores limits excused).Lawful where
  refl _ := trivial
  trans _ _ := trivial
  values_mono h _ := h
  scopes_mono h _ := h
  block _ _ _ := trivial
  yes _ := trivial
  no _ := trivial
  loop _ := trivial
  declared _ _ _ := trivial
  literal _ _ := trivial
  function := ⟨fun _ => ⟨fun _ _ => trivial, trivial⟩, fun _ => trivial⟩
  get? name h _ := ⟨by rw [h], fun _ _ => trivial⟩
  target name h _ := ⟨by rw [h], trivial⟩
  define name h _ _ := by
    obtain rfl : _ = _ := h
    rfl
  openEnclosed h _ := by
    obtain rfl : _ = _ := h
    exact ⟨rfl, (), trivial, trivial, rfl⟩
  limits_le := hle
  overflow := hoverflow

end Replay

end Scriptlet
