import Scriptlet.Proofs.Parser.Origin
import Scriptlet.Proofs.Parser.Takes

/-!
# Lists with too many entries

A list of arguments or of parameters may have any number of entries. The entry that is one too many
is noted, at its first token, and that is all: every entry is read, the tree holds them all, and
reading goes on behind the list. Each list is counted for itself, also inside an entry of another.

Which list is too long makes no difference to anything else that is read. This is said by a machine
that does not note it: it reads every program as a parser does, but for these notes.

## Main definitions

* `Parse.Entry`, `Parse.Row` — the entries of a list, with commas between them
* `Parse.noted` — what is noted while a list is read
* `Parse.Applied` — argument lists behind a callee
* `Parse.uncapped` — the machine that does not note which lists are too long

## Main results

* `Parse.takes_entries`, `Parse.takes_call`, `Parse.functionForm_row` — lists, calls and functions
* `Parse.uncapped_program` — programs
* `lists_capped` — what the limit on entries does
-/

namespace Scriptlet

namespace Parse

variable {α β : Type}

/-! ## Lists -/

/-- An entry of a list, as it stands in a script. -/
structure Entry (α : Type) where
  /-- The first of its tokens. -/
  first : Token
  /-- The others. -/
  others : List Token
  /-- What it is taken for. -/
  tree : α
  /-- The errors that are noted in it. -/
  errors : List ParseError

namespace Entry

/-- All tokens of an entry. -/
def tokens (entry : Entry α) : List Token := entry.first :: entry.others

/-- The entry is taken as it should be, in front of a token of some kind. -/
def Fits (read : Parse α) (entry : Entry α) (next : TokenKind) : Prop :=
  Takes read entry.tokens next entry.tree entry.errors

end Entry

/-- The tokens of entries with commas between them, in front of a closing parenthesis. -/
inductive Row (read : Parse α) : List (Entry α) → List Token → Prop
  | none : Row read [] []
  | last {entry : Entry α} : entry.Fits read .rightParen → Row read [entry] entry.tokens
  | more {entry second : Entry α} {others : List (Entry α)} {comma : Token} {tokens : List Token} :
      entry.Fits read .comma → comma.kind = .comma → Row read (second :: others) tokens →
      Row read (entry :: second :: others) (entry.tokens ++ comma :: tokens)

/-- A list starts with its first entry. -/
theorem Row.first {read : Parse α} {entry : Entry α} {others : List (Entry α)}
    {tokens : List Token} (h : Row read (entry :: others) tokens) :
    ∃ next later, tokens = entry.tokens ++ later ∧ entry.Fits read next := by
  cases h with
  | last hfits => exact ⟨_, [], (List.append_nil _).symm, hfits⟩
  | more hfits => exact ⟨_, _, rfl, hfits⟩

/-- What is noted about a list: the errors in its entries, and in front of those of the entry that
is one too many, that it is. -/
def noted (tooMany : ParseCause) (entries : List (Entry α)) : List ParseError :=
  (entries.take maxEntries).flatMap Entry.errors ++
    entries[maxEntries]?.toList.map (fun entry => ⟨tooMany, entry.first⟩) ++
    (entries.drop maxEntries).flatMap Entry.errors

/-- What is noted about the entries behind a number of others. -/
def notedBehind (tooMany : ParseCause) : Nat → List (Entry α) → List ParseError
  | _, [] => []
  | count, entry :: others =>
    (if count = maxEntries then [⟨tooMany, entry.first⟩] else []) ++ entry.errors ++
      notedBehind tooMany (count + 1) others

theorem notedBehind_of_lt (tooMany : ParseCause) {count : Nat} (h : maxEntries < count)
    (entries : List (Entry α)) :
    notedBehind tooMany count entries = entries.flatMap Entry.errors := by
  induction entries generalizing count with
  | nil => rfl
  | cons entry others ih =>
    rw [notedBehind, if_neg (by omega), ih (by omega), List.nil_append, List.flatMap_cons]

theorem notedBehind_eq (tooMany : ParseCause) {count room : Nat} (h : count + room = maxEntries)
    (entries : List (Entry α)) : notedBehind tooMany count entries =
      (entries.take room).flatMap Entry.errors ++
        entries[room]?.toList.map (fun entry => ⟨tooMany, entry.first⟩) ++
        (entries.drop room).flatMap Entry.errors := by
  induction entries generalizing count room with
  | nil => simp [notedBehind]
  | cons entry others ih =>
    cases room with
    | zero =>
      rw [notedBehind, if_pos (by omega), notedBehind_of_lt tooMany (by omega)]
      simp
    | succ room =>
      rw [notedBehind, if_neg (by omega), ih (Nat.succ_add_eq_add_succ count room |>.trans h)]
      simp

theorem noted_eq (tooMany : ParseCause) (entries : List (Entry α)) :
    noted tooMany entries = notedBehind tooMany 0 entries :=
  (notedBehind_eq tooMany (Nat.zero_add maxEntries) entries).symm

/-- In a list in which nothing else is noted, at most one error is. -/
theorem noted_of_quiet (tooMany : ParseCause) {entries : List (Entry α)}
    (h : ∀ entry ∈ entries, entry.errors = []) :
    noted tooMany entries =
      entries[maxEntries]?.toList.map fun entry => ⟨tooMany, entry.first⟩ := by
  have htake : (entries.take maxEntries).flatMap Entry.errors = [] :=
    List.flatMap_eq_nil_iff.mpr fun entry hmem => h entry (List.mem_of_mem_take hmem)
  have hdrop : (entries.drop maxEntries).flatMap Entry.errors = [] :=
    List.flatMap_eq_nil_iff.mpr fun entry hmem => h entry (List.mem_of_mem_drop hmem)
  rw [noted, htake, hdrop, List.nil_append, List.append_nil]

section Lists

variable {entry : Parse α} {entries : List (Entry α)} {tokens : List Token}

/-- In front of the entry that is one too many, this is noted. -/
theorem entriesFrom_facing (tooMany : ParseCause) (round : Token) (rounds : List Token)
    (done : Array α) (parser : Parser) (single : Entry α) (rest : List Token) :
    entriesFrom tooMany entry (round :: rounds) done (parser.facing (single.tokens ++ rest)) =
      entriesRound tooMany entry rounds done ((parser.noting (if done.size = maxEntries then
        [⟨tooMany, single.first⟩] else [])).facing (single.tokens ++ rest)) := by
  by_cases hfull : done.size = maxEntries
  · rw [entriesFrom_cons_full hfull, if_pos hfull, ← Parser.report_eq]
    rfl
  · rw [entriesFrom_cons hfull, if_neg hfull, Parser.noting_nil]

theorem entriesFrom_row (tooMany : ParseCause) (h : Row entry entries tokens)
    (hne : entries ≠ []) (parser : Parser) {rest : List Token}
    (hrest : kindAhead rest .endOfInput = .rightParen) (rounds : List Token)
    (hrounds : (tokens ++ rest).length < rounds.length) (done : Array α) :
    entriesFrom tooMany entry rounds done (parser.facing (tokens ++ rest)) =
      .ok (done ++ (entries.map Entry.tree).toArray)
        ((parser.noting (notedBehind tooMany done.size entries)).facing rest) := by
  induction h generalizing parser rounds done with
  | none => exact absurd rfl hne
  | @last last hfits =>
    obtain ⟨round, rounds, rfl⟩ := List.exists_cons_of_length_pos (Nat.zero_lt_of_lt hrounds)
    rw [entriesFrom_facing, entriesRound, bind_of_ok (hfits _ rest hrest),
      bind_of_ok (accept_facing_none _ rest (by simp [hrest])), Parser.noting_noting, notedBehind,
      notedBehind, List.append_nil, List.map_singleton, ← Array.push_eq_append]
    rfl
  | @more first second others comma tokens hfits hcomma _ ih =>
    obtain ⟨round, rounds, rfl⟩ := List.exists_cons_of_length_pos (Nat.zero_lt_of_lt hrounds)
    have hlength : (tokens ++ rest).length < rounds.length := by
      simp only [List.length_append, List.length_cons] at hrounds ⊢
      omega
    have hcount : (done.push first.tree).size = done.size + 1 := Array.size_push ..
    rw [List.append_assoc, List.cons_append, entriesFrom_facing, entriesRound,
      bind_of_ok (hfits _ (comma :: (tokens ++ rest)) hcomma),
      bind_of_ok (accept_facing _ _ hcomma (by decide)), Parser.noting_noting, notedBehind,
      ← Parser.noting_noting, ← hcount]
    refine (ih (List.cons_ne_nil _ _) _ rounds hlength (done.push first.tree)).trans ?_
    simp

/-- **A list is read whole**, however long it is. -/
theorem takes_entries (hrefuses : Refuses entry .rightParen) (tooMany : ParseCause)
    (h : Row entry entries tokens) :
    Takes (Parse.entries tooMany entry) tokens .rightParen (entries.map Entry.tree)
      (noted tooMany entries) := by
  intro parser rest hrest
  rw [Parse.entries, bind_of_ok (sees_facing parser _)]
  cases entries with
  | nil =>
    cases h
    rw [List.nil_append, hrest, noted]
    exact (takes_pure [] .rightParen) parser rest hrest
  | cons first others =>
    have hfirst : kindAhead (tokens ++ rest) .endOfInput ≠ .rightParen := by
      obtain ⟨next, later, rfl, hfits⟩ := h.first
      have hne : first.first.kind ≠ .rightParen := Takes.kind_ne hfits hrefuses
      exact hne
    simp only [hfirst, decide_false]
    have hall := entriesFrom_row tooMany h (List.cons_ne_nil _ _) parser hrest
      ((parser.facing (tokens ++ rest)).current :: (tokens ++ rest)) (Nat.lt_succ_self _) #[]
    refine (bind_of_ok (rounds_facing parser _)).trans ((bind_of_ok hall).trans ?_)
    rw [Array.empty_append, noted_eq]
    rfl

end Lists

/-! ## Calls -/

/-- Argument lists behind a callee, the tree of all calls, and what is noted. -/
inductive Applied (inner : Parse Expr) : Expr → List Token → Expr → List ParseError → Prop
  | none {callee : Expr} : Applied inner callee [] callee []
  | more {callee tree : Expr} {left right : Token} {tokens rest : List Token}
      {arguments : List (Entry Expr)} {later : List ParseError} : left.kind = .leftParen →
      Row inner arguments tokens → right.kind = .rightParen →
      Applied inner (.call callee right (arguments.map Entry.tree)) rest tree later →
      Applied inner callee (left :: (tokens ++ right :: rest)) tree
        (noted .tooManyArguments arguments ++ later)

section Calls

variable {operand inner : Parse Expr} {tokens later : List Token} {next : TokenKind}
  {callee tree : Expr} {errors more : List ParseError}

theorem callsFrom_applied (hrefuses : Refuses inner .rightParen)
    (h : Applied inner callee tokens tree errors) (hnext : next ≠ .leftParen) (parser : Parser)
    {rest : List Token} (hrest : kindAhead rest .endOfInput = next) (rounds : List Token)
    (hrounds : (tokens ++ rest).length < rounds.length) :
    callsFrom inner rounds callee (parser.facing (tokens ++ rest)) =
      .ok tree ((parser.noting errors).facing rest) := by
  induction h generalizing parser rounds with
  | none =>
    obtain ⟨round, rounds, rfl⟩ := List.exists_cons_of_length_pos (Nat.zero_lt_of_lt hrounds)
    rw [List.nil_append, callsFrom, bind_of_ok (accept_facing_none parser rest (by rwa [hrest])),
      Parser.noting_nil]
    rfl
  | @more callee tree left right tokens behind arguments later hleft hrow hright _ ih =>
    obtain ⟨round, rounds, rfl⟩ := List.exists_cons_of_length_pos (Nat.zero_lt_of_lt hrounds)
    have hlength : (behind ++ rest).length < rounds.length := by
      simp only [List.length_append, List.length_cons] at hrounds ⊢
      omega
    rw [List.cons_append, List.append_assoc, List.cons_append, callsFrom,
      bind_of_ok (accept_facing parser _ hleft (by decide)), ← Parser.noting_noting]
    refine (bind_of_ok (takes_entries hrefuses _ hrow parser (right :: (behind ++ rest))
      hright)).trans ?_
    rw [bind_of_ok (expect_facing _ _ hright (by decide) _)]
    exact ih _ rounds hlength

/-- **Calls are read whole**, with all their argument lists. -/
theorem takes_call (hrefuses : Refuses inner .rightParen)
    (hcallee : Takes (primary inner) tokens (kindAhead later next) callee errors)
    (h : Applied inner callee later tree more) (hnext : next ≠ .leftParen) :
    Takes (call inner) (tokens ++ later) next tree (errors ++ more) := by
  refine hcallee.bind fun parser rest hrest => ?_
  rw [bind_of_ok (rounds_facing parser _)]
  exact callsFrom_applied hrefuses h hnext parser hrest _ (Nat.lt_succ_self _)

end Calls

/-! ## Functions -/

/-- A token that is an entry by itself. -/
def Entry.ofToken (token : Token) : Entry Token := ⟨token, [], token, []⟩

/-- Parameters with commas between them are a list. -/
theorem row_of_separated (cause : ParseCause) {tokens params : List Token}
    {openings : List Grammar.Opening}
    (h : Grammar.Separated Grammar.Parameter tokens .rightParen params openings) :
    Row (expect .identifier cause) (params.map Entry.ofToken) tokens := by
  generalize hnext : TokenKind.rightParen = next at h
  induction h with
  | last first _ =>
    obtain ⟨isName⟩ := first
    exact .last (takes_expect isName (by decide) cause _)
  | more first sign others ih =>
    obtain ⟨isName⟩ := first
    have hrest := ih hnext
    cases others with
    | last => exact .more (takes_expect isName (by decide) cause _) sign hrest
    | more => exact .more (takes_expect isName (by decide) cause _) sign hrest

/-- **Functions are read with all their parameters.** The body is read as behind any other list. -/
theorem functionForm_row {declaration : Parse Stmt} {name left right brace : Token}
    {tokens params : List Token} (hname : name.kind = .identifier) (hleft : left.kind = .leftParen)
    (h : Row (expect .identifier .noParameterName) (params.map Entry.ofToken) tokens)
    (hright : right.kind = .rightParen) (hbrace : brace.kind = .leftBrace) (parser : Parser)
    (rest : List Token) :
    functionForm declaration
        (parser.facing (name :: left :: (tokens ++ right :: brace :: rest))) =
      (do return .function name params (← block declaration) : Parse Stmt)
        ((parser.noting (noted .tooManyParameters (params.map Entry.ofToken))).facing rest) := by
  have hparams : (params.map Entry.ofToken).map Entry.tree = params := by
    rw [List.map_map]
    exact List.map_id _
  have hentries := takes_entries (refuses_expect _ (by decide)) .tooManyParameters h parser
    (right :: brace :: rest) hright
  rw [hparams] at hentries
  rw [functionForm, bind_of_ok (expect_facing parser _ hname (by decide) _),
    bind_of_ok (expect_facing parser _ hleft (by decide) _), bind_of_ok hentries,
    bind_of_ok (expect_facing _ _ hright (by decide) _),
    bind_of_ok (expect_facing _ _ hbrace (by decide) _)]

end Parse

/-! ## Everything else -/

/-- Whether an error is that a list is too long. -/
def ParseError.isTooMany (error : ParseError) : Bool :=
  error.cause = .tooManyArguments || error.cause = .tooManyParameters

namespace Parser

/-- The parser without the notes that a list is too long. -/
def uncapped (parser : Parser) : Parser :=
  { parser with diagnostics := (parser.diagnostics.toList.filter (!·.isTooMany)).toArray }

theorem uncapped_advanced (parser : Parser) :
    parser.uncapped.advanced = parser.advanced.uncapped := by
  have hend : parser.uncapped.atEnd = parser.atEnd := rfl
  unfold advanced
  rw [hend]
  split <;> rfl

theorem uncapped_uncapped (parser : Parser) : parser.uncapped.uncapped = parser.uncapped := by
  simp [uncapped]

theorem uncapped_report (parser : Parser) (error : ParseError) :
    (parser.uncapped.report error).uncapped = (parser.report error).uncapped := by
  simp [uncapped, report]

end Parser

namespace Parse

/-- The moves on parsers, but that a list is too long is never noted. -/
def uncapped : Machine Parser ParseError :=
  { machine with
    report := fun error parser => .ok () (parser.report error).uncapped
    recovering := fun substitute read parser =>
      onState Parser.uncapped (recovering substitute read parser) }

/-- A parser stands for itself, but for these notes. -/
def uncapping : Simulation Parser ParseError where
  token := id
  State parser other := other = parser.uncapped
  error := id

section Uncapping

variable {α β : Type} {depth statements : Nat} {change : α → β} {read : Parse α} {other : Parse β}

/-- What follows a read that keeps the number of open levels. -/
theorem uncapping_ok {parser stop : Parser} {result : α} {answer : β}
    (hat : uncapping.At depth statements parser parser.uncapped) (hreaches : parser.Reaches stop)
    (hanswer : answer = change result) :
    uncapping.Matches depth statements change (.ok result stop) (.ok answer stop.uncapped) := by
  subst hanswer
  exact .ok ⟨rfl, hreaches.depth.trans hat.depth_eq,
    hreaches.statementDepth.trans hat.statements_eq⟩

theorem uncapping_acceptAny (kinds : List TokenKind) :
    uncapping.Simulates depth statements (Option.map id) (acceptIf kinds.contains)
      (uncapped.acceptAny kinds) := by
  rintro parser _ hat
  obtain rfl : _ = _ := hat.stands
  show uncapping.Matches _ _ _ (ite _ _ _)
    (ite ((!parser.atEnd && kinds.contains parser.current.kind) = true)
      (.ok (some parser.current) parser.uncapped.advanced) _)
  split
  · rw [parser.uncapped_advanced]
    exact uncapping_ok hat parser.reaches_advanced rfl
  · exact uncapping_ok hat (.refl parser) rfl

theorem uncapping_fail (cause : ParseCause) :
    uncapping.Simulates depth statements change (fail cause) (uncapped.fail cause) := by
  rintro parser _ hat
  obtain rfl : _ = _ := hat.stands
  exact @Simulation.Matches.error _ _ _ _ _ _ _ change ⟨cause, parser.current⟩ _ _ hat

theorem counts_agree_uncapping : Parser.counts.Agree uncapping where
  depth := by
    rintro parser _ rfl
    rfl
  statementDepth := by
    rintro parser _ rfl
    rfl
  changeDepth := by
    rintro parser _ rfl change
    rfl
  changeStatementDepth := by
    rintro parser _ rfl change
    rfl

theorem uncapping_recovering (substitute : α)
    (h : uncapping.Simulates depth statements change read other) :
    uncapping.Simulates depth statements change (recovering substitute read)
      (uncapped.recovering (change substitute) other) := by
  intro parser state hat
  have hread : uncapping.Matches depth statements change (read parser) (other state) := h hat
  show uncapping.Matches _ _ _ (recovering _ _ _) (onState Parser.uncapped (recovering _ _ _))
  rw [recovering, recovering]
  generalize read parser = outcome, other state = answer at hread
  cases hread with
  | @ok _ stop _ hafter =>
    obtain rfl : _ = _ := hafter.stands
    rw [onState, stop.uncapped_uncapped]
    exact .ok hafter
  | @error error stop _ hafter =>
    obtain rfl : _ = _ := hafter.stands
    show uncapping.Matches _ _ _ (ite _ _ _) (onState _ (ite (error.isFatal = true) _ _))
    by_cases hfatal : error.isFatal = true
    · rw [if_pos hfatal, if_pos hfatal, onState]
      have herror := @Simulation.Matches.error _ _ _ _ _ _ _ change error _ _ hafter
      rwa [← stop.uncapped_uncapped] at herror
    · rw [if_neg hfatal, if_neg hfatal]
      show uncapping.Matches _ _ _
        (.ok substitute { stop.report error with rest := skipTokens stop.rest })
        (.ok (change substitute)
          { (stop.uncapped.report error).uncapped with rest := skipTokens stop.rest })
      rw [Parser.uncapped_report]
      exact uncapping_ok hafter
        ((stop.reaches_report error).trans (forward_synchronize (stop.report error))) rfl

/-- **Whether a list is too long matters to no move.** -/
theorem uncapping_lawful (outer : Nat) : uncapping.Lawful uncapped outer where
  kind _ := rfl
  lexeme _ := rfl
  peek := by
    rintro depth statements parser _ hat
    obtain rfl : _ = _ := hat.stands
    exact uncapping_ok hat (.refl parser) rfl
  advance := by
    rintro depth statements parser _ hat _
    obtain rfl : _ = _ := hat.stands
    show uncapping.Matches _ _ _ _ (.ok parser.current parser.uncapped.advanced)
    rw [parser.uncapped_advanced]
    exact uncapping_ok hat parser.reaches_advanced rfl
  acceptAny := uncapping_acceptAny
  fail _ := uncapping_fail
  report error := by
    rintro parser _ hat
    obtain rfl : _ = _ := hat.stands
    show uncapping.Matches _ _ _ _ (.ok () (parser.uncapped.report error).uncapped)
    rw [parser.uncapped_report]
    exact uncapping_ok hat (parser.reaches_report error) rfl
  nested := simulates_nested counts_agree_uncapping
  nested_full _ _ hfull := simulates_nested_full counts_agree_uncapping hfull (uncapping_fail _)
  nestedStatement := simulates_nestedStatement counts_agree_uncapping
  nestedStatement_full _ _ hfull :=
    simulates_nestedStatement_full counts_agree_uncapping hfull (uncapping_fail _)
  recovering substitute _ := uncapping_recovering substitute
  rounds := by
    rintro depth statements parser _ ⟨rfl, _, _⟩
    exact Nat.lt_succ_self _

/-- **Programs are read as if no list were too long**, but for the notes that one is. -/
theorem uncapped_program (parser : Parser) :
    uncapped.program parser.uncapped = onState Parser.uncapped (program parser) := by
  have hstmt : Stmt.relabel id = id := funext Stmt.relabel_id
  have hread : uncapping.Matches parser.depth parser.statementDepth (List.map (Stmt.relabel id))
      (program parser) (uncapped.program parser.uncapped) :=
    (uncapping_lawful parser.depth).program ⟨rfl, rfl, rfl⟩
  rw [hstmt, List.map_id_fun] at hread
  generalize program parser = outcome, uncapped.program parser.uncapped = answer at hread ⊢
  cases hread with
  | ok hafter =>
    obtain rfl : _ = _ := hafter.stands
    rfl
  | error hafter =>
    obtain rfl : _ = _ := hafter.stands
    rfl

end Uncapping

end Parse

section

open Parse

/-- **The limit on entries is a note and nothing else.** A call holds all of its arguments and a
function all of its parameters, in order, however many there are. What is noted about a list is what
is noted in its entries, and if there are more than 255, one error more, at the first token of the
entry number 256 and in front of what is noted in it. Then reading goes on behind the list, with
nothing changed but the errors noted. A call can itself be an entry of another list, and each list
counts its own entries. If nothing is noted in the entries, a list with at most 255 of them adds no
error and a longer one exactly one. Whole programs are read as by a machine that never notes that a
list is too long: with the same outcome, in front of the same tokens, and but for these notes with
the same errors. -/
theorem lists_capped : maxEntries = 255 ∧
    -- Expressions of the grammar, in which nothing is noted.
    (∀ {inside levels : Nat} {tokens : List Token} {next : TokenKind} {tree : Expr}
      {openings : List Grammar.Opening},
      Grammar.ExpressionWithin inside tokens next tree openings →
      (⟨levels, 0⟩ : Grammar.Limits).Allow openings →
      Takes (expressionWithin levels) tokens next tree []) ∧
    -- Calls, with one argument list behind the other.
    (∀ (levels : Nat) {tokens later : List Token} {next : TokenKind} {callee tree : Expr}
      {errors more : List ParseError},
      Takes (primary (expressionWithin levels)) tokens (kindAhead later next) callee errors →
      Applied (expressionWithin levels) callee later tree more → next ≠ .leftParen →
      Takes (call (expressionWithin levels)) (tokens ++ later) next tree (errors ++ more) ∧
      ((∀ level ∈ Scriptlet.levels, next ∉ level.operators) → next ≠ .assign →
        Takes (expressionWithin (levels + 1)) (tokens ++ later) next tree (errors ++ more))) ∧
    -- Functions, up to the brace in front of the body.
    (∀ (declaration : Parse Stmt) {name left right brace : Token} {tokens params : List Token},
      name.kind = .identifier → left.kind = .leftParen →
      params = [] ∧ tokens = [] ∨ (∃ openings,
        Grammar.Separated Grammar.Parameter tokens .rightParen params openings) →
      right.kind = .rightParen → brace.kind = .leftBrace →
      ∀ (parser : Parser) (rest : List Token), functionForm declaration
          (parser.facing (name :: left :: (tokens ++ right :: brace :: rest))) =
        (do return .function name params (← block declaration) : Parse Stmt)
          ((parser.noting (params[maxEntries]?.toList.map (⟨.tooManyParameters, ·⟩))).facing
            rest)) ∧
    -- Lists in which nothing else is noted.
    (∀ {α : Type} (tooMany : ParseCause) {entries : List (Entry α)},
      (∀ entry ∈ entries, entry.errors = []) →
      noted tooMany entries =
        entries[maxEntries]?.toList.map fun entry => ⟨tooMany, entry.first⟩) ∧
    -- Programs.
    ∀ parser : Parser,
      uncapped.program parser.uncapped = onState Parser.uncapped (program parser) := by
  have hrefuses (levels : Nat) : Refuses (expressionWithin levels) .rightParen :=
    refuses_expressionWithin (by decide) levels
  refine ⟨rfl, takes_of_phrase, ?_, ?_, noted_of_quiet, uncapped_program⟩
  · intro levels tokens later next callee tree errors more hcallee happlied hnext
    have hcall := takes_call (hrefuses levels) hcallee happlied hnext
    exact ⟨hcall, fun hlevels hassign => takes_expressionWithin hcall hassign hlevels⟩
  · intro declaration name left right brace tokens params hname hleft hparams hright hbrace
      parser rest
    have hrow : Row (expect .identifier .noParameterName) (params.map Entry.ofToken) tokens := by
      rcases hparams with ⟨rfl, rfl⟩ | ⟨openings, hseparated⟩
      · exact .none
      · exact row_of_separated _ hseparated
    have hquiet : ∀ entry ∈ params.map Entry.ofToken, entry.errors = [] :=
      List.forall_mem_map.mpr fun _ _ => rfl
    rw [functionForm_row hname hleft hrow hright hbrace, noted_of_quiet _ hquiet,
      List.getElem?_map]
    cases params[maxEntries]? <;> rfl

end

namespace Sample

open Parse

/-- `true`, on a line. -/
def truth (line : Nat) : Entry Expr :=
  ⟨⟨.kwTrue, "true", ⟨line, 1⟩⟩, [], .literal (.boolean true), []⟩

/-- The same on each of some lines. -/
def truths (line : Nat) : Nat → List (Entry Expr)
  | 0 => []
  | more + 1 => truth line :: truths (line + 1) more

/-- With commas between them, in front of the last. -/
def truthTokens (line : Nat) : Nat → List Token
  | 0 => (truth line).tokens
  | more + 1 =>
    (truth line).tokens ++ ⟨.comma, ",", ⟨line, 5⟩⟩ :: truthTokens (line + 1) more

theorem row_truths (line more : Nat) :
    Row (expressionWithin 1) (truths line (more + 1)) (truthTokens line more) := by
  have hfits (line : Nat) {next : TokenKind} (hnext : next = .comma ∨ next = .rightParen) :
      (truth line).Fits (expressionWithin 1) next := by
    have hcallee : Takes (primary (expressionWithin 0)) (truth line).tokens next
        (.literal (.boolean true)) [] := fun parser rest _ => by
      rw [parser.noting_nil]
      exact primary_facing_literal _ parser rest rfl
    have hcall := takes_call (refuses_expressionWithin (by decide) 0) hcallee .none
      (by rcases hnext with rfl | rfl <;> decide)
    exact takes_expressionWithin hcall (by rcases hnext with rfl | rfl <;> decide)
      (by rcases hnext with rfl | rfl <;> decide)
  induction more generalizing line with
  | zero => exact .last (hfits line (.inr rfl))
  | succ more ih => exact .more (hfits line (.inl rfl)) rfl (ih (line + 1))

theorem map_tree_truths (line count : Nat) :
    (truths line count).map Entry.tree = List.replicate count (.literal (.boolean true)) := by
  induction count generalizing line with
  | zero => rfl
  | succ count ih => rw [truths, List.map_cons, ih, List.replicate_succ]; rfl

theorem getElem?_truths {line count i : Nat} (h : i < count) :
    (truths line count)[i]? = some (truth (line + i)) := by
  induction count generalizing line i with
  | zero => exact absurd h (Nat.not_lt_zero i)
  | succ count ih =>
    cases i with
    | zero => rfl
    | succ i =>
      rw [truths, List.getElem?_cons_succ, ih (Nat.lt_of_succ_lt_succ h), Nat.add_right_comm]
      rfl

theorem errors_of_mem_truths {line count : Nat} {entry : Entry Expr}
    (h : entry ∈ truths line count) : entry.errors = [] := by
  induction count generalizing line with
  | zero => cases h
  | succ count ih =>
    rcases List.mem_cons.mp h with rfl | hmem
    · rfl
    · exact ih hmem

/-- `f(true, …, true)` with 256 arguments, one on each line. All are there, and line 256 is
noted. -/
theorem crowded_noted :
    Takes (call (expressionWithin 1)) ([⟨.identifier, "f", .unknown⟩] ++
        ⟨.leftParen, "(", .unknown⟩ :: (truthTokens 1 255 ++ [⟨.rightParen, ")", .unknown⟩]))
      .endOfInput
      (.call (.var ⟨.identifier, "f", .unknown⟩) ⟨.rightParen, ")", .unknown⟩
        (List.replicate 256 (.literal (.boolean true))))
      [⟨.tooManyArguments, ⟨.kwTrue, "true", ⟨256, 1⟩⟩⟩] := by
  obtain ⟨_, _, hcalls, _, hnoted, _⟩ := lists_capped
  have hcallee : Takes (primary (expressionWithin 1)) [⟨.identifier, "f", .unknown⟩] .leftParen
      (.var ⟨.identifier, "f", .unknown⟩) [] := fun parser rest _ => by
    rw [parser.noting_nil]
    exact primary_facing_name _ parser rest (.inl rfl)
  have happlied : Applied (expressionWithin 1) (.var ⟨.identifier, "f", .unknown⟩)
      (⟨.leftParen, "(", .unknown⟩ :: (truthTokens 1 255 ++ [⟨.rightParen, ")", .unknown⟩]))
      (.call (.var ⟨.identifier, "f", .unknown⟩) ⟨.rightParen, ")", .unknown⟩
        (List.replicate 256 (.literal (.boolean true))))
      (noted .tooManyArguments (truths 1 256) ++ []) := by
    rw [← map_tree_truths 1 256]
    exact .more rfl (row_truths 1 255) rfl .none
  have hcall := (hcalls 1 hcallee happlied (show TokenKind.endOfInput ≠ _ by decide)).1
  rwa [hnoted _ fun _ => errors_of_mem_truths, getElem?_truths (by decide)] at hcall

end Sample

end Scriptlet
