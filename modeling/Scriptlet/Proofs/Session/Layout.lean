import Scriptlet.Proofs.Parser.Layout
import Scriptlet.Proofs.Session.Likeness
import Scriptlet.Proofs.Store.Unplaced
import Scriptlet.Session.Run

/-!
# Layout does not matter

Two scripts with the same tokens may differ in white space, in comments and in line breaks, and so
in the place of every token. They are read into trees that are the same up to places, and run alike:
whatever depends on a token depends on its kind and its spelling only. A run leaves functions behind,
which hold trees, so the sessions in which two such scripts are run are compared up to places too.

## Main definitions

* `unplacedTokens` — the tokens of a script without their places
* `Answer`, `Answer.unplaced`, `Answer.reports` — what a run answers, without places, and how it is
  reported at any place
* `Session.Alike`, `Session.view` — sessions that are the same up to places, and what is seen of one
* `Layout.likeness` — trees, values and sessions that are the same up to places

## Main results

* `Layout.lawful` — no step of a run looks at a place
* `Session.run_same_tokens` — scripts with the same tokens are run alike
-/

namespace Scriptlet

open Scriptlet.Action

/-! ## Errors without places -/

namespace ParseError

/-- The error, moved to another place. -/
def movedTo (place : Location) (error : ParseError) : ParseError :=
  ⟨error.cause, { error.token with location := place }⟩

/-- How the error is reported, depending on where it stands. -/
def report (error : ParseError) (place : Location) : String := (error.movedTo place).message

theorem report_location (error : ParseError) : error.report error.location = error.message := rfl

theorem report_unplaced (error : ParseError) : error.unplaced.report = error.report := rfl

end ParseError

/-- The stop, at no place in particular. -/
def Stop.unplaced : Stop → Stop
  | .fault failure => .fault ⟨failure.cause, .unknown⟩
  | .exhausted => .exhausted

namespace RunError

/-- Where the error stands. -/
def location : RunError → Location
  | lex error => error.location
  | parse fatal _ => fatal.location
  | stop (.fault fault) => fault.location
  | stop .exhausted => .unknown

/-- The error, moved to another place. -/
def movedTo (place : Location) : RunError → RunError
  | lex error => lex ⟨error.cause, place⟩
  | parse fatal recovered => parse (fatal.movedTo place) recovered
  | stop (.fault fault) => stop (.fault ⟨fault.cause, place⟩)
  | stop .exhausted => stop .exhausted

/-- How the error is reported, depending on where it stands. -/
def report (error : RunError) (place : Location) : String := (error.movedTo place).message

/-- The errors that reading went on after. -/
def recovered : RunError → List ParseError
  | parse _ recovered => recovered
  | _ => []

/-- The error, with every place erased. -/
def unplaced : RunError → RunError
  | lex error => .lex ⟨error.cause, .unknown⟩
  | parse fatal recovered => .parse fatal.unplaced (recovered.map ParseError.unplaced)
  | stop reason => .stop reason.unplaced

theorem report_location (error : RunError) : error.report error.location = error.message := by
  match error with
  | lex _ | parse _ _ | stop (.fault _) | stop .exhausted => rfl

theorem report_unplaced (error : RunError) : error.unplaced.report = error.report := by
  match error with
  | lex _ | parse _ _ | stop (.fault _) | stop .exhausted => rfl

theorem recovered_unplaced (error : RunError) :
    error.unplaced.recovered = error.recovered.map ParseError.unplaced := by
  match error with
  | lex _ | parse _ _ | stop _ => rfl

end RunError

/-- What a run answers: the errors that reading went on after, or why it did not come to its end. -/
abbrev Answer := Except RunError (List ParseError)

namespace Answer

/-- The answer, with every place erased. -/
def unplaced : Answer → Answer
  | .ok diagnostics => .ok (diagnostics.map ParseError.unplaced)
  | .error error => .error error.unplaced

/-- How each error of an answer is reported, depending on where it stands. -/
def reports : Answer → List (Location → String)
  | .ok diagnostics => diagnostics.map ParseError.report
  | .error error => error.report :: error.recovered.map ParseError.report

theorem map_report_unplaced (errors : List ParseError) :
    (errors.map ParseError.unplaced).map ParseError.report = errors.map ParseError.report := by
  rw [List.map_map]
  exact List.map_congr_left fun error _ => error.report_unplaced

theorem reports_unplaced (answer : Answer) : reports (unplaced answer) = reports answer := by
  cases answer with
  | ok diagnostics => exact map_report_unplaced diagnostics
  | error error =>
    show error.unplaced.report :: error.unplaced.recovered.map ParseError.report =
      error.report :: error.recovered.map ParseError.report
    rw [error.report_unplaced, error.recovered_unplaced, map_report_unplaced]

end Answer

/-! ## Sessions -/

namespace Session

/-- Sessions that are the same up to places and up to their current scopes. -/
structure Similar (session other : Session) : Prop where
  stores : session.store.Alike other.store
  lastValue : session.lastValue.unplaced = other.lastValue.unplaced
  globals : session.globals = other.globals
  terminal : session.terminal = other.terminal
  options : session.options = other.options
  callDepth : session.callDepth = other.callDepth
  functions : session.functions = other.functions

/-- Sessions that are the same up to places. -/
structure Alike (session other : Session) : Prop extends Similar session other where
  scope : session.scope = other.scope

theorem Alike.refl (session : Session) : session.Alike session :=
  ⟨⟨.refl _, rfl, rfl, rfl, rfl, rfl, rfl⟩, rfl⟩

/-- What is seen of a session from outside. -/
structure View where
  /-- What was written, and what is left to read. -/
  terminal : Terminal
  /-- The type of the last value. -/
  lastType : String
  /-- The text of the last value. -/
  lastText : String
  /-- The names bound at the top of a script, and the texts of their values. -/
  globals : List (String × Option String)

/-- What is seen of a session from outside. -/
def view (session : Session) : View where
  terminal := session.terminal
  lastType := session.lastValue.typeName
  lastText := session.lastValue.text
  globals := (session.store.names session.globals).map fun name =>
    (name, (session.global? name).map Value.text)

/-- Sessions that are the same up to places cannot be told apart from outside. -/
theorem Similar.view {session other : Session} (h : session.Similar other) :
    session.view = other.view := by
  have htype : session.lastValue.typeName = other.lastValue.typeName := by
    rw [← Value.typeName_unplaced, h.lastValue, Value.typeName_unplaced]
  have htext : session.lastValue.text = other.lastValue.text := by
    rw [← Value.text_unplaced, h.lastValue, Value.text_unplaced]
  have hglobal (name : String) :
      (session.global? name).map Value.text = (other.global? name).map Value.text := by
    have hcomp : Value.text ∘ Value.unplaced = Value.text := funext Value.text_unplaced
    have hvalue := congrArg (Option.map Value.text) (h.stores.get? session.globals name)
    rw [Option.map_map, Option.map_map, hcomp] at hvalue
    rw [Session.global?, hvalue, Session.global?, h.globals]
  rw [Session.view, Session.view, h.terminal, htype, htext, h.stores.names, h.globals]
  simp only [hglobal]

end Session

/-! ## Trees and values -/

namespace Layout

variable {α β : Type}

/-- Trees, values and sessions that are the same up to places. -/
def likeness : Likeness Unit where
  le _ _ := True
  places _ _ := True
  tokens token token' := token.unplaced = token'.unplaced
  exprs expr expr' := expr.relabel Token.unplaced = expr'.relabel Token.unplaced
  stmts stmt stmt' := stmt.relabel Token.unplaced = stmt'.relabel Token.unplaced
  values _ value value' := value.unplaced = value'.unplaced
  scopes _ := Eq
  sessions _ := Session.Similar
  stops stop stop' := stop.unplaced = stop'.unplaced
  excused _ := False

/-- Lists with the same images have entries with the same images. -/
theorem forall₂_of_map_eq {f : α → β} {list list' : List α} (h : list.map f = list'.map f) :
    List.Forall₂ (fun a b => f a = f b) list list' := by
  have hsame : List.Forall₂ Eq (list.map f) (list'.map f) := by rw [h]; exact List.forall₂_refl _
  exact List.forall₂_map_left_iff.mp (List.forall₂_map_right_iff.mp hsame)

theorem map_eq_of_forall₂ {f : α → β} {list list' : List α}
    (h : List.Forall₂ (fun a b => f a = f b) list list') : list.map f = list'.map f := by
  induction h with
  | nil => rfl
  | cons hfirst _ ih => rw [List.map_cons, List.map_cons, hfirst, ih]

theorem rel_of_map_eq {f : α → β} {a? b? : Option α} (h : a?.map f = b?.map f) :
    Option.Rel (fun a b => f a = f b) a? b? := by
  cases a? with
  | none =>
    obtain rfl := Option.map_eq_none_iff.mp h.symm
    exact .none
  | some a =>
    obtain ⟨b, rfl, hb⟩ := Option.map_eq_some_iff.mp h.symm
    exact .some hb.symm

theorem decls_of_relabel {decl decl' : FunctionDecl}
    (h : decl.relabel Token.unplaced = decl'.relabel Token.unplaced) :
    likeness.Decls decl decl' := by
  obtain ⟨hname, hparams, hbody⟩ := FunctionDecl.mk.inj h
  exact ⟨hname, forall₂_of_map_eq hparams, forall₂_of_map_eq hbody⟩

theorem relabel_of_decls {decl decl' : FunctionDecl} (h : likeness.Decls decl decl') :
    decl.relabel Token.unplaced = decl'.relabel Token.unplaced := by
  rw [FunctionDecl.relabel, h.name, map_eq_of_forall₂ h.params, map_eq_of_forall₂ h.body]
  rfl

/-- Expressions that are the same up to places have the same form. -/
theorem exprParts {expr expr' : Expr}
    (h : expr.relabel Token.unplaced = expr'.relabel Token.unplaced) :
    likeness.ExprParts expr expr' := by
  cases expr <;> cases expr' <;>
    simp only [Expr.relabel, Expr.relabelAll_eq_map, reduceCtorEq, Expr.literal.injEq,
      Expr.var.injEq, Expr.assign.injEq, Expr.unary.injEq, Expr.binary.injEq, Expr.logical.injEq,
      Expr.call.injEq] at h
  case literal.literal => exact h ▸ .literal _
  case var.var => exact .var h
  case assign.assign => exact .assign h.1 h.2
  case unary.unary => exact .unary h.1 h.2
  case binary.binary => exact .binary h.1 h.2.1 h.2.2
  case logical.logical => exact .logical h.1 h.2.1 h.2.2
  case call.call => exact .call h.1 h.2.1 (forall₂_of_map_eq h.2.2)

/-- Statements that are the same up to places have the same form. -/
theorem stmtParts {stmt stmt' : Stmt}
    (h : stmt.relabel Token.unplaced = stmt'.relabel Token.unplaced) :
    likeness.StmtParts stmt stmt' := by
  cases stmt <;> cases stmt' <;>
    simp only [Stmt.relabel_branch, Stmt.relabel, Stmt.relabelAll_eq_map, reduceCtorEq,
      Stmt.expression.injEq, Stmt.print.injEq, Stmt.var.injEq, Stmt.block.injEq,
      Stmt.branch.injEq, Stmt.loop.injEq, Stmt.function.injEq, Stmt.ret.injEq] at h
  case expression.expression => exact .expression h
  case print.print => exact .print h
  case var.var => exact .var h.1 (rel_of_map_eq h.2)
  case block.block => exact .block (forall₂_of_map_eq h)
  case branch.branch => exact .branch h.1 h.2.1 (rel_of_map_eq h.2.2)
  case loop.loop => exact .loop h.1 h.2
  case function.function =>
    exact .function ⟨h.1, forall₂_of_map_eq h.2.1, forall₂_of_map_eq h.2.2⟩
  case ret.ret => exact .ret h.1 (rel_of_map_eq h.2)

/-- Values that are the same up to places have the same form. -/
theorem valueParts {value value' : Value} (h : value.unplaced = value'.unplaced) :
    likeness.ValueParts () value value' := by
  cases value <;> cases value' <;>
    simp only [Value.unplaced, reduceCtorEq, Value.integer.injEq, Value.string.injEq,
      Value.boolean.injEq, Value.function.injEq, Value.native.injEq, Function.mk.injEq] at h
  case integer.integer n _ => exact h ▸ .literal (.integer n)
  case string.string s _ => exact h ▸ .literal (.string s)
  case boolean.boolean b _ => exact h ▸ .literal (.boolean b)
  case absent.absent => exact .literal .absent
  case native.native f _ => exact h ▸ .native f
  case function.function => exact .function (decls_of_relabel h.2.1) h.2.2

/-! ## Actions -/

/-- The same operation gives the same, at any place. -/
theorem results {result result' : Except FaultCause Value} (place place' : Location)
    (h : result = result') : likeness.Results () place place' result result' := by
  subst h
  cases result with
  | ok value => exact .ok rfl
  | error cause => exact .error rfl

theorem later {before before' after after' : Session} (h : after.Similar after')
    (hscope : after.scope = before.scope) (hscope' : after'.scope = before'.scope) :
    likeness.Later () before before' () after after' :=
  ⟨trivial, h, hscope, hscope'⟩

theorem onTerminal_alike (place place' : Location) (action : EStateM IoError Terminal α) :
    likeness.Alike False () (fun _ => Eq) (onTerminal place action) (onTerminal place' action) := by
  intro before before' h _
  rw [onTerminal, onTerminal, ← h.terminal]
  cases action before.terminal with
  | ok result terminal => exact .ok (later { h with terminal := rfl } rfl rfl) rfl
  | error error terminal => exact .error (later { h with terminal := rfl } rfl rfl) rfl

theorem onTerminalQuietly_alike (action : EStateM IoError Terminal Unit) :
    likeness.Alike False () Likeness.anything (onTerminalQuietly action)
      (onTerminalQuietly action) := by
  intro before before' h _
  rw [onTerminalQuietly, onTerminalQuietly, ← h.terminal]
  cases action before.terminal with
  | ok result terminal => exact .ok (later { h with terminal := rfl } rfl rfl) trivial
  | error error terminal => exact .ok (later { h with terminal := rfl } rfl rfl) trivial

theorem checkDepth_alike (place place' : Location) :
    likeness.Alike False () Likeness.anything (checkDepth place) (checkDepth place') := by
  intro before before' h _
  rw [checkDepth, checkDepth, ← h.options, ← h.callDepth]
  split
  · exact .error (later h rfl rfl) rfl
  · exact .ok (later h rfl rfl) trivial

/-- **No step of a run looks at a place.** -/
theorem lawful : likeness.Lawful where
  refl _ := trivial
  trans _ _ := trivial
  values_mono h _ := h
  scopes_mono h _ := h
  kind h := (Token.unplaced_eq_iff.mp h).1
  lexeme h := (Token.unplaced_eq_iff.mp h).2
  place _ := trivial
  unknown := trivial
  expr := exprParts
  stmt := stmtParts
  value := valueParts
  literal _ _ := rfl
  exhausted := rfl
  fault _ _ := rfl
  unary := by
    intro w operator operator' operand operand' value value' hexpr hvalue
    cases exprParts hexpr with
    | unary hoperator _ => exact results _ _ (Value.unary_congr hoperator hvalue)
  binary := by
    intro w left left' operator operator' right right' a a' b b' hexpr ha hb
    cases exprParts hexpr with
    | binary _ hoperator _ => exact results _ _ (Value.binary_congr hoperator ha hb)
  logical := by
    intro left left' operator operator' right right' hexpr _ _
    cases exprParts hexpr with
    | logical _ hoperator _ =>
      show Stop.fault ⟨.unsupportedOperator _, _⟩ = Stop.fault ⟨.unsupportedOperator _, _⟩
      rw [(Token.unplaced_eq_iff.mp hoperator).2]
  callDepth h := h.callDepth
  lastValue h := h.lastValue
  get? := by
    rintro w before before' scope _ name h rfl
    exact rel_of_map_eq (h.stores.get? scope name)
  rescope _ _ h := { h with }
  begun h := { h with callDepth := congrArg (· + 1) h.callDepth }
  ended h := { h with callDepth := congrArg (· - 1) h.callDepth }
  remember h hvalue := { h with lastValue := hvalue }
  define := by
    rintro w before before' scope _ value value' name h rfl hvalue
    exact { h with stores := h.stores.define scope name hvalue }
  assign := by
    rintro w before before' scope _ value value' name h rfl hvalue
    rw [Store.assign, Store.assign, ← h.stores.target]
    exact { h with stores := h.stores.define _ name hvalue }
  openScope := by
    rintro w before before' scope _ h rfl
    exact ⟨(), trivial, { h with stores := h.stores.add (some scope) },
      h.stores.fst_add (some scope)⟩
  makeFunction := by
    intro w before before' decl decl' h hscope hdecl
    refine ⟨(), trivial, { h with functions := congrArg (· + 1) h.functions }, ?_⟩
    show Value.function ⟨_, _, _⟩ = Value.function ⟨_, _, _⟩
    rw [relabel_of_decls hdecl, h.functions, hscope]
  checkDepth _ := checkDepth_alike _ _
  writeLine text _ := (onTerminal_alike _ _ _).imp fun _ => trivial
  writeLineQuietly text := onTerminalQuietly_alike _
  writePrompt text _ := (onTerminal_alike _ _ _).imp fun _ => trivial
  readLine _ := onTerminal_alike _ _ _

end Layout

/-! ## Scripts -/

/-- The tokens of a script without their places, or why it has none. -/
def unplacedTokens (source : String) : Except LexCause (List Token) :=
  match tokenize source with
  | .ok tokens => .ok (tokens.map Token.unplaced)
  | .error error => .error error.cause

theorem Parser.ofSource_of_ok {source : String} {tokens : List Token}
    (h : tokenize source = .ok tokens) : ofSource source = .ok (ofTokens tokens) := by
  rw [ofSource, h]
  rfl

theorem Parser.ofSource_of_error {source : String} {error : LexError}
    (h : tokenize source = .error error) : ofSource source = .error error := by
  rw [ofSource, h]
  rfl

/-- Scripts with the same tokens are read from parsers that are the same up to places. -/
theorem Parser.ofSource_alike {source source' : String}
    (h : unplacedTokens source = unplacedTokens source') :
    (∃ error error', ofSource source = .error error ∧ ofSource source' = .error error' ∧
        error.cause = error'.cause) ∨
      ∃ parser parser', ofSource source = .ok parser ∧ ofSource source' = .ok parser' ∧
        parser.unplaced = parser'.unplaced := by
  rw [unplacedTokens, unplacedTokens] at h
  rw [ofSource, ofSource]
  generalize tokenize source = result, tokenize source' = result' at h ⊢
  match result, result', h with
  | .error error, .error error', h => exact .inl ⟨error, error', rfl, rfl, Except.error.inj h⟩
  | .ok tokens, .ok tokens', h =>
    refine .inr ⟨ofTokens tokens, ofTokens tokens', rfl, rfl, ?_⟩
    rw [ofTokens_unplaced, ofTokens_unplaced, Except.ok.inj h]

namespace Session

/-- How a run ends. -/
abbrev RunResult := EStateM.Result RunError Session (List ParseError)

namespace RunResult

/-- What a run answers. -/
def answer : RunResult → Answer
  | .ok diagnostics _ => .ok diagnostics
  | .error error _ => .error error

/-- The session that a run leaves behind. -/
def after : RunResult → Session
  | .ok _ after => after
  | .error _ after => after

end RunResult

/-- Two runs that are the same up to places. -/
structure SameRun (result result' : RunResult) : Prop where
  /-- They go on after the same errors in the script, and fail for the same reason or not at all. -/
  answer : (RunResult.answer result).unplaced = (RunResult.answer result').unplaced
  /-- They report the same but for the places of the errors. -/
  reports : (RunResult.answer result).reports = (RunResult.answer result').reports
  /-- The same is seen of the sessions that they leave behind. -/
  view : (RunResult.after result).view = (RunResult.after result').view
  /-- These sessions are the same up to places, so that further runs are the same as well. -/
  after : (RunResult.after result).Alike (RunResult.after result')

theorem SameRun.of_answer {result result' : RunResult}
    (hanswer : (RunResult.answer result).unplaced = (RunResult.answer result').unplaced)
    (hafter : (RunResult.after result).Alike (RunResult.after result')) :
    SameRun result result' where
  answer := hanswer
  reports := by rw [← Answer.reports_unplaced, hanswer, Answer.reports_unplaced]
  view := hafter.view
  after := hafter

theorem SameRun.ok {diagnostics diagnostics' : List ParseError} {session session' : Session}
    (hdiagnostics : diagnostics.map ParseError.unplaced = diagnostics'.map ParseError.unplaced)
    (hsession : session.Alike session') :
    SameRun (.ok diagnostics session) (.ok diagnostics' session') :=
  .of_answer (congrArg Except.ok hdiagnostics) hsession

theorem SameRun.error {error error' : RunError} {session session' : Session}
    (herror : error.unplaced = error'.unplaced) (hsession : session.Alike session') :
    SameRun (.error error session) (.error error' session') :=
  .of_answer (congrArg Except.error herror) hsession

/-- Trees that are the same up to places are run alike. -/
theorem interpret_alike (steps : Nat) {statements statements' : List Stmt}
    {session session' : Session}
    (h : statements.map (Stmt.relabel Token.unplaced) =
      statements'.map (Stmt.relabel Token.unplaced)) (hsession : session.Alike session') :
    Layout.likeness.Outcomes () session session' Likeness.anything
      (interpret steps statements session) (interpret steps statements' session') := by
  have hdump {w before before'} (h : Layout.likeness.sessions w before before') :
      before.options.dump = before'.options.dump := by
    rw [Similar.options h]
  exact Layout.lawful.interpret (.inl rfl) hdump
    (fun _ => (Layout.onTerminal_alike _ _ _).imp fun _ => trivial)
    (Layout.forall₂_of_map_eq h) hsession.toSimilar fun _ => hsession.scope

theorem Alike.later {before before' after after' : Session} (h : before.Alike before')
    (hlater : Layout.likeness.Later () before before' () after after') : after.Alike after' where
  toSimilar := hlater.sessions
  scope := by rw [hlater.scope, h.scope, hlater.scope']

theorem diagnostics_alike {parser parser' : Parser} (h : parser.unplaced = parser'.unplaced) :
    parser.diagnostics.toList.map ParseError.unplaced =
      parser'.diagnostics.toList.map ParseError.unplaced := by
  rw [← Array.toList_map, ← Array.toList_map]
  exact congrArg (fun erased => erased.diagnostics.toList) h

/-! ## Runs -/

section Run

variable {steps : Nat} {source : String} {session : Session} {parser stop : Parser}

theorem run_of_lex {error : LexError} (hread : Parser.ofSource source = .error error) :
    run steps source session = .error (.lex error) session := by
  simp only [run, hread]

theorem run_of_error {fatal : ParseError} (hread : Parser.ofSource source = .ok parser)
    (hprogram : Parse.program parser = .error fatal stop) :
    run steps source session = .error (.parse fatal stop.diagnostics.toList) session := by
  simp only [run, hread, hprogram]

theorem run_of_ok {statements : List Stmt} {result : Unit} {after : Session}
    (hread : Parser.ofSource source = .ok parser)
    (hprogram : Parse.program parser = .ok statements stop)
    (hinterpret : interpret steps statements session = .ok result after) :
    run steps source session = .ok stop.diagnostics.toList after := by
  simp only [run, hread, hprogram, hinterpret]

theorem run_of_stop {statements : List Stmt} {reason : Stop} {after : Session}
    (hread : Parser.ofSource source = .ok parser)
    (hprogram : Parse.program parser = .ok statements stop)
    (hinterpret : interpret steps statements session = .error reason after) :
    run steps source session = .error (.stop reason) after := by
  simp only [run, hread, hprogram, hinterpret]

end Run

/-- **Layout does not matter.** Scripts with the same tokens, which may stand at other places, are
run alike by sessions that are the same up to places: with the same output, last value and names,
with the same errors, and with reports that are the same but for the places. -/
theorem run_same_tokens (steps : Nat) {source source' : String} {session session' : Session}
    (htokens : unplacedTokens source = unplacedTokens source')
    (hsession : session.Alike session') :
    SameRun (run steps source session) (run steps source' session') := by
  rcases Parser.ofSource_alike htokens with ⟨error, error', hread, hread', hcause⟩ |
    ⟨parser, parser', hread, hread', hparser⟩
  · rw [run, run, hread, hread']
    have herror : (RunError.lex error).unplaced = (RunError.lex error').unplaced := by
      rw [RunError.unplaced, hcause]
      rfl
    exact .error herror hsession
  rcases Parse.program_alike hparser with
    ⟨fatal, fatal', stop, stop', hprogram, hprogram', hfatal, hstop⟩ |
    ⟨statements, statements', stop, stop', hprogram, hprogram', hstatements, hstop⟩
  · rw [run_of_error hread hprogram, run_of_error hread' hprogram']
    have herror : (RunError.parse fatal stop.diagnostics.toList).unplaced =
        (RunError.parse fatal' stop'.diagnostics.toList).unplaced := by
      rw [RunError.unplaced, hfatal, diagnostics_alike hstop]
      rfl
    exact .error herror hsession
  · have hinterpret := interpret_alike steps hstatements hsession
    generalize hfirst : interpret steps statements session = outcome,
      hsecond : interpret steps statements' session' = outcome' at hinterpret
    cases hinterpret with
    | ok hlater _ =>
      rw [run_of_ok hread hprogram hfirst, run_of_ok hread' hprogram' hsecond]
      exact .ok (diagnostics_alike hstop) (hsession.later hlater)
    | error hlater hstops =>
      rw [run_of_stop hread hprogram hfirst, run_of_stop hread' hprogram' hsecond]
      exact .error (congrArg RunError.stop hstops) (hsession.later hlater)
    | excused hexcused => exact hexcused.elim

end Session

namespace Sample

/-- A session in which `half` is bound to a function whose declaration stands at a place. -/
def halving (place : Location) : Session :=
  let n : Token := ⟨.identifier, "n", place⟩
  let half : Expr := .binary (.var n) ⟨.slash, "/", place⟩ (.literal (.integer 2))
  (Session.start {} {}).defineGlobal "half" (.function
    ⟨0, ⟨⟨.identifier, "half", place⟩, [n], [.ret ⟨.kwReturn, "return", place⟩ (some half)]⟩, 0⟩)

theorem halving_alike (place place' : Location) : (halving place).Alike (halving place') where
  stores := (Store.Alike.refl _).define 0 "half" rfl
  lastValue := rfl
  globals := rfl
  terminal := rfl
  options := rfl
  callDepth := rfl
  functions := rfl
  scope := rfl

/-- A script on one line. -/
def dense : String := "x = half(9); x / 0"

/-- The same tokens on several lines, with a comment between them. -/
def spread : String := "x = half( // nine\n  9);\nx\n  / 0"

/-- The scripts call a function declared at different places, and fail on different lines. -/
theorem spread_same_run :
    unplacedTokens dense = unplacedTokens spread ∧ tokenize dense ≠ tokenize spread ∧
      Session.RunResult.answer (Session.run 20 dense (halving .start)) =
        .error (.stop (.fault ⟨.divisionByZero, ⟨1, 16⟩⟩)) ∧
      Session.SameRun (Session.run 20 dense (halving .start))
        (Session.run 20 spread (halving ⟨7, 3⟩)) :=
  have htokens : unplacedTokens dense = unplacedTokens spread := by decide +kernel
  ⟨htokens, by decide +kernel, by decide +kernel,
    Session.run_same_tokens 20 htokens (halving_alike .start ⟨7, 3⟩)⟩

end Sample

end Scriptlet
