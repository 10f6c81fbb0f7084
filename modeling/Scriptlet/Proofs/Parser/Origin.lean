import Scriptlet.Proofs.Parser.Counting

/-!
# Everything that is read comes from the tokens

Reading makes no tokens of its own: those of its trees and of its errors are among the tokens that
it went over. An end mark has to be ahead for this, since a parser without tokens makes one up.

Reads do nothing with a token but look at its kind and its spelling and pass it on. So a change of
tokens that keeps both can be made before a read or after it, in what was read. If it leaves alone
the tokens that are ahead, making it before changes nothing, and hence it leaves alone all that is
read. It remains to choose a change that leaves alone these tokens and no others.

## Main definitions

* `ParseError.relabel`, `Parser.renoted` — errors with each token replaced
* `Parser.Fixes` — a change leaves alone the tokens ahead, an end mark among them
* `Parse.passing`, `Parse.passed` — parsers stand for themselves but for the tokens of their errors,
  and the outcome of reading a program with each token replaced
* `Token.displaced` — a token that is moved unless it is known
* `Parser.Holds` — all tokens of a parser are known

## Main results

* `Parse.passing_lawful` — the moves on parsers pass tokens on
* `Parse.program_unchanged` — what leaves alone the tokens ahead leaves alone what is read
* `Parse.relabel_of_program`, `mem_of_program`, `holds_program` — the tokens of a program, of the
  error that it fails with, and of the parser it leaves behind are known
-/

namespace Scriptlet

/-- A list that a change leaves alone is one of things that it leaves alone. -/
theorem eq_of_map_eq_self {α : Type} {change : α → α} {list : List α} (h : list.map change = list) :
    ∀ item ∈ list, change item = item :=
  List.map_inj_left.mp (h.trans (List.map_id _).symm)

/-- The error, at another token. -/
def ParseError.relabel (swap : Token → Token) (error : ParseError) : ParseError :=
  ⟨error.cause, swap error.token⟩

namespace Parser

/-- The parser with the tokens replaced at which errors were noted. -/
def renoted (swap : Token → Token) (parser : Parser) : Parser :=
  { parser with diagnostics := parser.diagnostics.map (ParseError.relabel swap) }

theorem renoted_id (parser : Parser) : parser.renoted id = parser := by
  have hid : ParseError.relabel id = id := rfl
  rw [renoted, hid, Array.map_id]

theorem renoted_eq_self_iff {swap : Token → Token} {parser : Parser} :
    parser.renoted swap = parser ↔
      ∀ error ∈ parser.diagnostics, swap error.token = error.token := by
  have hmap := @Array.map_inj_left _ _ parser.diagnostics (ParseError.relabel swap) id
  rw [Array.map_id] at hmap
  constructor
  · intro hsame error hmem
    have hdiagnostics : parser.diagnostics.map (ParseError.relabel swap) = parser.diagnostics :=
      congrArg diagnostics hsame
    exact congrArg ParseError.token (hmap.mp hdiagnostics error hmem)
  · intro h
    rw [renoted, hmap.mpr fun error hmem => congrArg (ParseError.mk error.cause) (h error hmem)]

theorem renoted_advanced (swap : Token → Token) (parser : Parser) :
    (parser.renoted swap).advanced = parser.advanced.renoted swap := by
  unfold advanced
  by_cases hend : parser.atEnd = true
  · rw [if_pos hend, if_pos (show (parser.renoted swap).atEnd = true from hend)]
  · rw [if_neg hend, if_neg (show ¬ (parser.renoted swap).atEnd = true from hend)]
    rfl

theorem renoted_report (swap : Token → Token) (parser : Parser) (error : ParseError) :
    (parser.renoted swap).report (error.relabel swap) =
      (parser.report error).renoted swap := by
  simp [renoted, report]

/-- A change of tokens leaves alone those that are ahead, and an end mark is among them. -/
structure Fixes (swap : Token → Token) (parser : Parser) : Prop where
  rest : ∀ token ∈ parser.rest, swap token = token
  marked : ∃ token ∈ parser.rest, token.kind = .endOfInput

namespace Fixes

variable {swap : Token → Token} {start stop : Parser}

theorem current (h : start.Fixes swap) : swap start.current = start.current := by
  obtain ⟨token, hmem, _⟩ := h.marked
  obtain ⟨first, rest, hrest⟩ := List.exists_cons_of_ne_nil (List.ne_nil_of_mem hmem)
  have hcurrent : start.current = first := by rw [Parser.current, hrest]
  rw [hcurrent]
  exact h.rest first (hrest ▸ .head _)

theorem of_rest (h : start.Fixes swap) (hrest : stop.rest = start.rest) : stop.Fixes swap :=
  ⟨hrest ▸ h.rest, hrest ▸ h.marked⟩

/-- Going forward, no end mark is passed. -/
theorem of_reaches (h : start.Fixes swap) (hreaches : start.Reaches stop) :
    stop.Fixes swap := by
  obtain ⟨consumed, hrest, hends⟩ := hreaches.consumed
  obtain ⟨token, hmem, hkind⟩ := h.marked
  refine ⟨fun other hother => h.rest other ?_, token, ?_, hkind⟩
  · rw [hrest]
    exact List.mem_append_right _ hother
  · rw [hrest] at hmem
    exact (List.mem_append.mp hmem).resolve_left fun hmem => hends token hmem hkind

end Fixes

end Parser

namespace Parse

/-! ## The simulation -/

/-- A parser stands for itself, but for the tokens at which errors were noted. -/
def passing (swap : Token → Token) : Simulation Parser ParseError where
  token := swap
  State parser other := parser.Fixes swap ∧ other = parser.renoted swap
  error := ParseError.relabel swap

section Simulation

variable {α β : Type} {swap : Token → Token} {depth statements : Nat} {change : α → β}
variable {read : Parse α} {other : Parse β}

theorem at_of_reaches {start stop : Parser}
    (h : (passing swap).At depth statements start (start.renoted swap))
    (hreaches : start.Reaches stop) :
    (passing swap).At depth statements stop (stop.renoted swap) :=
  ⟨⟨h.stands.1.of_reaches hreaches, rfl⟩, hreaches.depth.trans h.depth_eq,
    hreaches.statementDepth.trans h.statements_eq⟩

theorem passes_acceptAny (kinds : List TokenKind) :
    (passing swap).Simulates depth statements (Option.map swap) (acceptIf kinds.contains)
      (machine.acceptAny kinds) := by
  rintro parser _ hat
  obtain ⟨hfixes, rfl⟩ := hat.stands
  show (passing swap).Matches _ _ _ (ite _ _ _)
    (ite ((!parser.atEnd && kinds.contains parser.current.kind) = true)
      (.ok (some parser.current) (parser.renoted swap).advanced) _)
  split
  · have hok := @Simulation.Matches.ok _ _ _ _ _ _ _ (Option.map swap) (some parser.current) _ _
      (at_of_reaches hat parser.reaches_advanced)
    rwa [Option.map_some, hfixes.current, ← Parser.renoted_advanced] at hok
  · exact .ok hat

theorem passes_fail (cause : ParseCause) :
    (passing swap).Simulates depth statements change (fail cause) (machine.fail cause) := by
  rintro parser _ hat
  obtain ⟨hfixes, rfl⟩ := hat.stands
  have herror := @Simulation.Matches.error _ _ _ _ _ _ _ change ⟨cause, parser.current⟩ _ _ hat
  have hsame : (passing swap).error ⟨cause, parser.current⟩ = ⟨cause, parser.current⟩ :=
    congrArg (ParseError.mk cause) hfixes.current
  rwa [hsame] at herror

theorem passes_report (error : ParseError) :
    (passing swap).Simulates depth statements id (report error)
      (report ((passing swap).error error)) := by
  rintro parser _ hat
  obtain ⟨_, rfl⟩ := hat.stands
  show (passing swap).Matches _ _ _ _ (.ok () ((parser.renoted swap).report (error.relabel swap)))
  rw [Parser.renoted_report]
  exact .ok (at_of_reaches hat (parser.reaches_report error))

theorem passes_synchronize :
    (passing swap).Simulates depth statements id synchronize synchronize := by
  rintro parser _ hat
  obtain ⟨_, rfl⟩ := hat.stands
  exact .ok (at_of_reaches hat (forward_synchronize parser))

theorem counts_agree_passing : Parser.counts.Agree (passing swap) where
  depth := by
    rintro parser _ ⟨_, rfl⟩
    rfl
  statementDepth := by
    rintro parser _ ⟨_, rfl⟩
    rfl
  changeDepth := by
    rintro parser _ ⟨hfixes, rfl⟩ change
    exact ⟨hfixes.of_rest rfl, rfl⟩
  changeStatementDepth := by
    rintro parser _ ⟨hfixes, rfl⟩ change
    exact ⟨hfixes.of_rest rfl, rfl⟩

/-- **The moves on parsers pass tokens on**, whatever else a token says than its kind and its
spelling. -/
theorem passing_lawful (hkind : ∀ token, (swap token).kind = token.kind)
    (hlexeme : ∀ token, (swap token).lexeme = token.lexeme) (outer : Nat) :
    (passing swap).Lawful machine outer where
  kind := hkind
  lexeme := hlexeme
  peek := by
    rintro depth statements parser _ hat
    obtain ⟨hfixes, rfl⟩ := hat.stands
    have hok := @Simulation.Matches.ok _ _ _ _ _ _ _ swap parser.current _ _ hat
    rwa [hfixes.current] at hok
  advance := by
    rintro depth statements parser _ hat _
    obtain ⟨hfixes, rfl⟩ := hat.stands
    have hok := @Simulation.Matches.ok _ _ _ _ _ _ _ swap parser.current _ _
      (at_of_reaches hat parser.reaches_advanced)
    rwa [hfixes.current, ← Parser.renoted_advanced] at hok
  acceptAny := passes_acceptAny
  fail _ := passes_fail
  report := passes_report
  nested := simulates_nested counts_agree_passing
  nested_full _ _ hfull := simulates_nested_full counts_agree_passing hfull (passes_fail _)
  nestedStatement := simulates_nestedStatement counts_agree_passing
  nestedStatement_full _ _ hfull :=
    simulates_nestedStatement_full counts_agree_passing hfull (passes_fail _)
  recovering substitute _ :=
    simulates_recovering (fun _ => rfl) passes_report passes_synchronize substitute
  rounds := by
    rintro depth statements parser _ ⟨⟨_, rfl⟩, _, _⟩
    exact Nat.lt_succ_self _

end Simulation

/-! ## Programs -/

/-- The outcome of reading a program, with each token replaced. -/
def passed (swap : Token → Token) : EStateM.Result ParseError Parser (List Stmt) →
    EStateM.Result ParseError Parser (List Stmt)
  | .ok statements stop => .ok (statements.map (Stmt.relabel swap)) (stop.renoted swap)
  | .error error stop => .error (error.relabel swap) (stop.renoted swap)

theorem passed_id (outcome : EStateM.Result ParseError Parser (List Stmt)) :
    passed id outcome = outcome := by
  have hstmt : Stmt.relabel id = id := funext Stmt.relabel_id
  cases outcome with
  | ok statements stop => rw [passed, stop.renoted_id, hstmt, List.map_id]
  | error error stop => rw [passed, stop.renoted_id]; rfl

section Programs

variable {swap : Token → Token} (hkind : ∀ token, (swap token).kind = token.kind)
  (hlexeme : ∀ token, (swap token).lexeme = token.lexeme)
include hkind hlexeme

theorem machine_program_renoted {parser : Parser} (h : parser.Fixes swap) :
    machine.program (parser.renoted swap) = passed swap (program parser) := by
  have hread : (passing swap).Matches parser.depth parser.statementDepth
      (List.map (Stmt.relabel swap)) (program parser) (machine.program (parser.renoted swap)) :=
    (passing_lawful hkind hlexeme parser.depth).program ⟨⟨h, rfl⟩, rfl, rfl⟩
  generalize program parser = outcome, machine.program (parser.renoted swap) = answer at hread ⊢
  cases hread with
  | ok hafter => rw [hafter.stands.2]; rfl
  | error hafter => rw [hafter.stands.2]; rfl

/-- **A change that leaves alone the tokens ahead leaves alone what is read.** -/
theorem program_unchanged {parser : Parser} (h : parser.Fixes swap)
    (hnoted : parser.renoted swap = parser) : passed swap (program parser) = program parser := by
  have hself := @machine_program_renoted id (fun _ => rfl) (fun _ => rfl) parser
    ⟨fun _ _ => rfl, h.marked⟩
  rw [parser.renoted_id, passed_id] at hself
  rw [← machine_program_renoted hkind hlexeme h, hnoted, hself]

end Programs

end Parse

/-! ## Known tokens -/

/-- A token that is moved to another line unless it is one of those that are known. -/
def Token.displaced (known : List Token) (token : Token) : Token :=
  if token ∈ known then token
  else { token with location := ⟨token.location.line + 1, token.location.column⟩ }

namespace Token

variable {known : List Token}

theorem displaced_eq_iff {token : Token} : token.displaced known = token ↔ token ∈ known := by
  unfold displaced
  split
  · next hmem => exact iff_of_true rfl hmem
  · next hmem =>
    refine iff_of_false (fun hsame => ?_) hmem
    have hline := congrArg (fun token => token.location.line) hsame
    exact absurd hline (Nat.succ_ne_self _)

theorem kind_displaced (token : Token) : (token.displaced known).kind = token.kind := by
  unfold displaced
  split <;> rfl

theorem lexeme_displaced (token : Token) : (token.displaced known).lexeme = token.lexeme := by
  unfold displaced
  split <;> rfl

end Token

/-- All tokens of a parser are known, those ahead and those at which errors were noted, and an end
mark is ahead. -/
structure Parser.Holds (known : List Token) (parser : Parser) : Prop where
  rest : ∀ token ∈ parser.rest, token ∈ known
  marked : ∃ token ∈ parser.rest, token.kind = .endOfInput
  noted : ∀ error ∈ parser.diagnostics, error.token ∈ known

theorem Parser.holds_iff {known : List Token} {parser : Parser} : parser.Holds known ↔
    parser.Fixes (Token.displaced known) ∧ parser.renoted (Token.displaced known) = parser := by
  simp only [renoted_eq_self_iff, Token.displaced_eq_iff]
  constructor
  · rintro ⟨hrest, hmarked, hnoted⟩
    exact ⟨⟨fun token hmem => Token.displaced_eq_iff.mpr (hrest token hmem), hmarked⟩, hnoted⟩
  · rintro ⟨⟨hrest, hmarked⟩, hnoted⟩
    exact ⟨fun token hmem => Token.displaced_eq_iff.mp (hrest token hmem), hmarked, hnoted⟩

namespace Parse

variable {known : List Token} {start stop : Parser}

theorem passed_program (h : start.Holds known) :
    passed (Token.displaced known) (program start) = program start := by
  obtain ⟨hfixes, hnoted⟩ := Parser.holds_iff.mp h
  exact program_unchanged Token.kind_displaced Token.lexeme_displaced hfixes hnoted

/-- The trees of a program hold known tokens only. -/
theorem relabel_of_program (h : start.Holds known) {statements : List Stmt}
    (hread : program start = .ok statements stop) :
    ∀ stmt ∈ statements, stmt.relabel (Token.displaced known) = stmt := by
  have hpassed := passed_program h
  rw [hread] at hpassed
  obtain ⟨hstatements, _⟩ := EStateM.Result.ok.inj hpassed
  exact eq_of_map_eq_self hstatements

/-- A program fails at a known token. -/
theorem mem_of_program (h : start.Holds known) {error : ParseError}
    (hread : program start = .error error stop) : error.token ∈ known := by
  have hpassed := passed_program h
  rw [hread] at hpassed
  obtain ⟨herror, _⟩ := EStateM.Result.error.inj hpassed
  exact Token.displaced_eq_iff.mp (congrArg ParseError.token herror)

/-- **A program leaves known tokens behind**, ahead and at errors. -/
theorem holds_program (h : start.Holds known) : (stateAfter program start).Holds known := by
  have hfixes := (Parser.holds_iff.mp h).1.of_reaches (forward_program start)
  have hpassed := passed_program h
  refine Parser.holds_iff.mpr ⟨hfixes, ?_⟩
  unfold stateAfter
  cases hread : program start with
  | ok statements stop =>
    rw [hread] at hpassed
    exact (EStateM.Result.ok.inj hpassed).2
  | error error stop =>
    rw [hread] at hpassed
    exact (EStateM.Result.error.inj hpassed).2

end Parse

end Scriptlet
