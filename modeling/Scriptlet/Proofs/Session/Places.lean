import Scriptlet.Proofs.Parser.Calls
import Scriptlet.Proofs.Parser.Origin
import Scriptlet.Proofs.Session.Trait
import Scriptlet.Proofs.Token.Lossless

/-!
# Errors point into the script

An error says where it stands, and whoever reads it looks there. The errors of reading stand at
tokens of the script. So do the faults of a run, but the script may be an earlier one: a function
keeps the trees it was declared with, and they keep their tokens. Only the terminal can fail at no
place in particular, because a literal has none and neither have the last value and the end of a
run. Hence every line that a report names is one of a script that was run.

## Main definitions

* `Location.In`, `lineCount` — the places and the number of lines of a script
* `tokensOf` — the tokens of a script
* `ParseError.PointsInto` — an error that shows a token
* `Trait.placed` — trees that hold known tokens only
* `Fault.StandsIn`, `Fault.Placeless` — faults at a token of a script, and at no place
* `Answer.places`, `LineOf` — the places that an answer reports, and the lines of some scripts

## Main results

* `tokenize_cases` — tokens and lexical errors stand in the script
* `Parse.holds_afterCalls` — calls on one parser come across tokens of the script only
* `Trait.placed_lawful` — trees that hold known tokens cause faults at known tokens
* `errors_placed` — all errors of a session of runs point into the scripts run so far
-/

namespace Scriptlet

/-! ## Places in a script -/

/-- How many lines a script has, which is one more than it has line breaks. -/
def lineCount (source : String) : Nat := source.toList.count '\n' + 1

/-- A place in a script: it stands directly behind some text that the script begins with. -/
def Location.In (source : String) (location : Location) : Prop :=
  ∃ front, front <+: source.toList ∧ location = .behind front

theorem Location.In.line {source : String} {location : Location} (h : location.In source) :
    1 ≤ location.line ∧ location.line ≤ lineCount source := by
  obtain ⟨front, hfront, rfl⟩ := h
  have hcount : front.count '\n' ≤ source.toList.count '\n' := hfront.sublist.count_le _
  show 1 ≤ 1 + front.count '\n' ∧ 1 + front.count '\n' ≤ source.toList.count '\n' + 1
  omega

/-- The tokens of a script, or none if it has a lexical error. -/
def tokensOf (source : String) : List Token := (tokenize source).toOption.getD []

theorem tokensOf_of_ok {source : String} {tokens : List Token} (h : tokenize source = .ok tokens) :
    tokensOf source = tokens := by
  rw [tokensOf, h]
  rfl

/-- The token of an item stands behind the items in front of it and its own gap. -/
theorem Laid.location_in {source : String} {items : List Item} {behind : List Char}
    (htext : source.toList = itemsText items ++ behind) (h : Laid .start items behind) {item : Item}
    (hmem : item ∈ items) : item.token.location.In source := by
  obtain ⟨front, back, rfl⟩ := List.append_of_mem hmem
  refine ⟨itemsText front ++ item.gap, ?_, ?_⟩
  · refine ⟨item.token.written ++ itemsText back ++ behind, ?_⟩
    rw [htext]
    simp [itemsText, Item.text]
  · rw [h.stands.2, Location.start_after]

/-- **A script has tokens up to an end mark, or a lexical error**, and all of them stand in it. -/
theorem tokenize_cases (source : String) :
    (∃ tokens place, tokenize source = .ok tokens ∧ tokens.getLast? = some (.endMark place) ∧
        ∀ token ∈ tokens, token.location.In source) ∨
      ∃ error, tokenize source = .error error ∧ error.location.In source := by
  obtain ⟨items, gap, rest, htext, hlaid, hgap, hend⟩ := exists_laid .start source.toList
  rcases hend with rfl | ⟨cause, hbad⟩
  · have hlex :
        lex source = ⟨items.map Item.token ++ [.endMark (.behind source.toList)], none⟩ := by
      rw [List.append_nil] at htext hlaid
      rw [lex, ← Location.start_after, htext]
      exact lexChars_end hlaid hgap
    refine .inl ⟨_, .behind source.toList, by rw [tokenize, hlex], List.getLast?_concat, ?_⟩
    intro token hmem
    rcases List.mem_append.mp hmem with hmem | hmem
    · obtain ⟨item, hitem, rfl⟩ := List.mem_map.mp hmem
      exact hlaid.location_in htext hitem
    · rw [List.mem_singleton.mp hmem]
      exact ⟨source.toList, List.prefix_rfl, rfl⟩
  · have hlex :
        lex source = ⟨items.map Item.token, some ⟨cause, .behind (itemsText items ++ gap)⟩⟩ := by
      rw [lex, ← Location.start_after, htext]
      exact lexChars_unreadable hlaid hgap hbad
    refine .inr ⟨_, by rw [tokenize, hlex], itemsText items ++ gap, ⟨rest, ?_⟩, rfl⟩
    rw [htext, List.append_assoc]

theorem location_in_of_mem {source : String} {token : Token} (h : token ∈ tokensOf source) :
    token.location.In source := by
  rcases tokenize_cases source with ⟨tokens, _, hok, _, hin⟩ | ⟨error, herror, _⟩
  · rw [tokensOf_of_ok hok] at h
    exact hin token h
  · rw [tokensOf, herror] at h
    cases h

/-! ## Errors of reading -/

namespace ParseError

/-- An error shows one of some tokens: it stands at its place, and names it by its spelling unless
it is an end mark. -/
def PointsInto (tokens : List Token) (error : ParseError) : Prop :=
  ∃ token ∈ tokens, error.location = token.location ∧
    (error.site = " at end" ↔ token.kind = .endOfInput) ∧
    (token.kind ≠ .endOfInput → error.site = " at '" ++ token.lexeme ++ "'")

theorem site_eq_iff (error : ParseError) :
    error.site = " at end" ↔ error.token.kind = .endOfInput := by
  unfold site
  split
  · next hkind => exact iff_of_true rfl hkind
  · next hkind =>
    refine iff_of_false (fun hsame => ?_) hkind
    have hchars := congrArg String.toList hsame
    simp [String.toList_append] at hchars

theorem pointsInto_of_mem {tokens : List Token} {error : ParseError} (h : error.token ∈ tokens) :
    error.PointsInto tokens :=
  ⟨error.token, h, rfl, error.site_eq_iff, fun hkind => if_neg hkind⟩

end ParseError

theorem Parser.holds_ofTokens {tokens : List Token} {place : Location}
    (h : tokens.getLast? = some (.endMark place)) : (ofTokens tokens).Holds tokens := by
  have hrest : (ofTokens tokens).rest = tokens := by
    simp [ofTokens, h, Token.endMark]
  refine ⟨fun token hmem => hrest ▸ hmem, ⟨.endMark place, ?_, rfl⟩, fun error hmem => ?_⟩
  · rw [hrest]
    exact List.mem_of_getLast? h
  · exact absurd hmem (Array.not_mem_empty _)

theorem Parser.Holds.mono {known more : List Token} {parser : Parser} (h : parser.Holds known)
    (hmore : known ⊆ more) : parser.Holds more :=
  ⟨fun token hmem => hmore (h.rest token hmem), h.marked,
    fun error hmem => hmore (h.noted error hmem)⟩

/-- The tokens of a parser over a script are those of the script. -/
theorem Parser.holds_of_ofSource {source : String} {parser : Parser}
    (h : ofSource source = .ok parser) : parser.Holds (tokensOf source) := by
  rcases tokenize_cases source with ⟨tokens, place, hok, hlast, _⟩ | ⟨error, herror, _⟩
  · rw [ofSource_of_ok hok] at h
    cases h
    rw [tokensOf_of_ok hok]
    exact holds_ofTokens hlast
  · rw [ofSource_of_error herror] at h
    cases h

theorem Parse.holds_afterCalls {known : List Token} {start : Parser} (h : start.Holds known)
    (count : Nat) : (afterCalls program start count).Holds known := by
  induction count with
  | zero => exact h
  | succ count ih => exact holds_program ih

/-! ## Trees that hold known tokens -/

/-- The token at which an expression stands; a literal stands at none. -/
def Expr.token? : Expr → Option Token
  | binary _ operator _ | logical _ operator _ | unary operator _ => some operator
  | literal _ => none
  | var name | assign name _ => some name
  | call _ paren _ => some paren

theorem Expr.location_eq (expr : Expr) :
    expr.location = expr.token?.elim .unknown Token.location := by
  cases expr <;> rfl

section Trees

variable (swap : Token → Token)

theorem Expr.token?_relabel (expr : Expr) : (expr.relabel swap).token? = expr.token?.map swap := by
  cases expr <;> rw [relabel] <;> rfl

theorem Expr.parts_relabel (expr : Expr) :
    (expr.relabel swap).parts = expr.parts.map (relabel swap) := by
  cases expr <;> simp [relabel, parts]

theorem Stmt.exprs_relabel (stmt : Stmt) :
    (stmt.relabel swap).exprs = stmt.exprs.map (Expr.relabel swap) := by
  cases stmt <;> simp [relabel, relabel_branch, exprs, Option.toList_map]

theorem Stmt.parts_relabel (stmt : Stmt) :
    (stmt.relabel swap).parts = stmt.parts.map (relabel swap) := by
  cases stmt <;> simp [relabel, relabel_branch, parts, Option.toList_map]

end Trees

/-! ## Faults -/

/-- A fault stands at a token of one of some scripts. -/
def Fault.StandsIn (sources : List String) (fault : Fault) : Prop :=
  ∃ source ∈ sources, ∃ token ∈ tokensOf source, fault.location = token.location

/-- A fault of the terminal at no place in particular. -/
def Fault.Placeless (fault : Fault) : Prop :=
  (∃ error, fault.cause = .io error) ∧ fault.location = .unknown

/-- Trees that hold tokens of some scripts only, and faults that stand at one, or at no place if the
terminal causes them. -/
def Trait.placed (sources : List String) : Trait where
  exprs expr := expr.relabel (Token.displaced (sources.flatMap tokensOf)) = expr
  stmts stmt := stmt.relabel (Token.displaced (sources.flatMap tokensOf)) = stmt
  faults fault := fault.StandsIn sources ∨ fault.Placeless

namespace Trait

variable {sources : List String}

theorem standsIn_of_displaced {token : Token}
    (h : token.displaced (sources.flatMap tokensOf) = token) (cause : FaultCause) :
    Fault.StandsIn sources ⟨cause, token.location⟩ := by
  obtain ⟨source, hsource, htoken⟩ := List.mem_flatMap.mp (Token.displaced_eq_iff.mp h)
  exact ⟨source, hsource, token, htoken, rfl⟩

theorem standsIn_of_relabel {expr : Expr} (h : (placed sources).exprs expr) {token : Token}
    (htoken : expr.token? = some token) (cause : FaultCause) :
    Fault.StandsIn sources ⟨cause, token.location⟩ := by
  have hsame := (expr.token?_relabel _).symm.trans (congrArg Expr.token? h)
  rw [htoken] at hsame
  exact standsIn_of_displaced (Option.some.inj hsame) cause

/-- **Trees that hold known tokens cause faults at known tokens.** -/
theorem placed_lawful : (placed sources).Lawful where
  part {expr part} h := eq_of_map_eq_self ((expr.parts_relabel _).symm.trans (congrArg _ h)) part
  value {stmt expr} h := eq_of_map_eq_self ((stmt.exprs_relabel _).symm.trans (congrArg _ h)) expr
  inside {stmt part} h := eq_of_map_eq_self ((stmt.parts_relabel _).symm.trans (congrArg _ h)) part
  var h := .inl (standsIn_of_relabel h rfl _)
  unary h _ := .inl (standsIn_of_relabel h rfl _)
  binary h _ := .inl (standsIn_of_relabel h rfl _)
  logical h _ _ := .inl (standsIn_of_relabel h rfl _)
  call h _ := .inl (standsIn_of_relabel h rfl _)
  print {value error} h := by
    have hvalue : (placed sources).exprs value := Stmt.print.inj h
    rw [value.location_eq]
    cases htoken : value.token? with
    | some token => exact .inl (standsIn_of_relabel hvalue htoken _)
    | none => exact .inr ⟨⟨error, rfl⟩, rfl⟩
  ret {keyword value?} h := .inl (standsIn_of_displaced (Stmt.ret.inj h).1 _)
  terminal error := .inr ⟨⟨error, rfl⟩, rfl⟩

theorem sources_placed {source : String} (h : source ∈ sources) :
    (placed sources).Sources source := by
  intro parser statements stop hparser hprogram
  have hsubset : tokensOf source ⊆ sources.flatMap tokensOf :=
    fun token hmem => List.mem_flatMap.mpr ⟨source, h, hmem⟩
  exact Parse.relabel_of_program ((Parser.holds_of_ofSource hparser).mono hsubset) hprogram

end Trait

/-! ## Sessions -/

/-- The places that the reports of an answer name. -/
def Answer.places : Answer → List Location
  | .ok diagnostics => diagnostics.map ParseError.location
  | .error error => error.location :: error.recovered.map ParseError.location

/-- A line of one of some scripts. -/
def LineOf (sources : List String) (line : Nat) : Prop :=
  ∃ source ∈ sources, 1 ≤ line ∧ line ≤ lineCount source

theorem lineOf_of_mem {sources : List String} {source : String} (hsource : source ∈ sources)
    {token : Token} (h : token ∈ tokensOf source) : LineOf sources token.location.line :=
  ⟨source, hsource, (location_in_of_mem h).line⟩

theorem Fault.StandsIn.lineOf {sources : List String} {fault : Fault} (h : fault.StandsIn sources) :
    LineOf sources fault.location.line := by
  obtain ⟨source, hsource, token, htoken, hlocation⟩ := h
  rw [hlocation]
  exact lineOf_of_mem hsource htoken

/-- Every line that a run reports is one of a script, or none. -/
theorem Session.lineOf_of_run {sources : List String} {session : Session}
    (hsession : (Trait.placed sources).Holds session) {source : String} (hsource : source ∈ sources)
    (steps : Nat) : ∀ place ∈ (RunResult.answer (run steps source session)).places,
      place.line ≠ 0 → LineOf sources place.line := by
  -- The errors that are noted while reading are reported however the run ends.
  have hnoted {stop : Parser} (hstop : stop.Holds (tokensOf source)) :
      ∀ place ∈ stop.diagnostics.toList.map ParseError.location, LineOf sources place.line := by
    intro place hmem
    obtain ⟨error, herror, rfl⟩ := List.mem_map.mp hmem
    exact lineOf_of_mem hsource (hstop.noted error (Array.mem_toList_iff.mp herror))
  cases hread : Parser.ofSource source with
  | error error =>
    have hin : error.location.In source := by
      rcases tokenize_cases source with ⟨tokens, _, hok, _, _⟩ | ⟨other, hother, hin⟩
      · rw [Parser.ofSource_of_ok hok] at hread
        cases hread
      · rw [Parser.ofSource_of_error hother] at hread
        cases hread
        exact hin
    rw [run_of_lex hread]
    intro place hmem _
    rw [List.mem_singleton.mp hmem]
    exact ⟨source, hsource, hin.line⟩
  | ok parser =>
    have hparser := Parser.holds_of_ofSource hread
    have hstop := Parse.holds_program hparser
    unfold stateAfter at hstop
    cases hprogram : Parse.program parser with
    | error fatal stop =>
      rw [hprogram] at hstop
      rw [run_of_error hread hprogram]
      intro place hmem _
      rcases List.mem_cons.mp hmem with rfl | hmem
      · exact lineOf_of_mem hsource (Parse.mem_of_program hparser hprogram)
      · exact hnoted hstop place hmem
    | ok statements stop =>
      rw [hprogram] at hstop
      cases hinterpret : Action.interpret steps statements session with
      | ok result after =>
        rw [run_of_ok hread hprogram hinterpret]
        exact fun place hmem _ => hnoted hstop place hmem
      | error reason after =>
        have hrun := run_of_stop hread hprogram hinterpret
        have hreason :=
          (Trait.placed_lawful.run steps (Trait.sources_placed hsource) hsession).2 hrun
        rw [hrun]
        intro place hmem hline
        rw [List.mem_singleton.mp hmem] at hline ⊢
        cases reason with
        | exhausted => exact absurd rfl hline
        | fault fault =>
          rcases hreason with hstands | ⟨_, hplace⟩
          · exact hstands.lineOf
          · exact absurd (congrArg Location.line hplace) hline

/-- **Errors point into the script.** Whatever a script is and however often its tokens are gone
over, the errors that are noted and those that a call ends with show one of its tokens: they stand
at its place, and name its spelling unless it is the end mark. Let any scripts be run one after the
other in a new session. If a further one stops with a fault, this stands at a token of that script
or of an earlier one, unless the terminal caused it and it stands at no place. So each line that is
reported, if it is not zero, is one of the lines of these scripts. -/
theorem errors_placed (terminal : Terminal) (options : Options) (history : List (Nat × String))
    (steps : Nat) (source : String) :
    (∀ tokens, tokenize source = .ok tokens → ∀ count,
      let start := afterCalls Parse.program (.ofTokens tokens) count
      (∀ error ∈ start.diagnostics, error.PointsInto tokens) ∧
        ∀ error stop, Parse.program start = .error error stop → error.PointsInto tokens) ∧
    let session := (Session.start terminal options).afterRuns history
    let sources := history.map Prod.snd ++ [source]
    let result := Session.run steps source session
    (∀ fault after, result = .error (.stop (.fault fault)) after →
      fault.StandsIn sources ∨ fault.Placeless) ∧
    ∀ place ∈ (Session.RunResult.answer result).places, place.line ≠ 0 →
      LineOf sources place.line := by
  refine ⟨fun tokens htokens count => ?_, ?_⟩
  · have hstart := Parse.holds_afterCalls
      (Parser.holds_of_ofSource (Parser.ofSource_of_ok htokens)) count
    rw [tokensOf_of_ok htokens] at hstart
    exact ⟨fun error hmem => ParseError.pointsInto_of_mem (hstart.noted error hmem),
      fun error stop hread => ParseError.pointsInto_of_mem (Parse.mem_of_program hstart hread)⟩
  · intro session sources result
    have hsource : source ∈ sources := List.mem_append_right _ (.head _)
    have hsession : (Trait.placed sources).Holds session := Trait.placed_lawful.afterRuns
      (fun step hmem => Trait.sources_placed
        (List.mem_append_left _ (List.mem_map_of_mem hmem)))
      (Trait.holds_start terminal options)
    refine ⟨fun fault after hfault => ?_, Session.lineOf_of_run hsession hsource steps⟩
    exact (Trait.placed_lawful.run steps (Trait.sources_placed hsource) hsession).2 hfault

end Scriptlet
