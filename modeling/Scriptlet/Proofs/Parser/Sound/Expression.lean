import Scriptlet.Proofs.Parser.Dispatch
import Scriptlet.Proofs.Parser.Forward

/-!
# What is read as an expression is one

A read that gives a tree and notes no error has consumed a phrase of the grammar, and the tree is
the one that the grammar gives that phrase. Nothing is skipped: the tokens of the phrase are those
between the place where reading started and the one where it stopped, and the kind of token behind
the phrase is the kind of the token at which it stopped.

That no error is noted in the middle of a read follows from its end, because reads only go forward
and errors are only added.

## Main definitions

* `Parse.Sound` — a read that gives only trees of the phrases it consumed

## Main results

* `Parse.sound_chain`, `sound_call`, `sound_assignment`, … — one result for each form
* `Parse.sound_expression` — expressions
-/

namespace Scriptlet

namespace Parse

open Grammar

variable {α : Type}

/-- What is read without noting an error is a phrase. -/
def Sound (read : Parse α) (phrase : Phrase α) : Prop :=
  ∀ ⦃start stop : Parser⦄ ⦃tree : α⦄, read start = .ok tree stop → start.Quiet stop →
    ∃ tokens openings, start.rest = tokens ++ stop.rest ∧
      phrase tokens (kindAhead stop.rest .endOfInput) tree openings

variable {start stop : Parser}

/-! ## Lists -/

theorem sound_entriesFrom {entry : Parse α} {phrase : Phrase α} (hentry : Sound entry phrase)
    (hforward : Forward entry) {tooMany : ParseCause} {rounds : List Token} {done all : Array α}
    (hrounds : start.rest.length < rounds.length)
    (h : entriesFrom tooMany entry rounds done start = .ok all stop) (hquiet : start.Quiet stop)
    (hdone : done.size ≤ maxEntries) :
    ∃ trees tokens openings, all = done ++ trees.toArray ∧ all.size ≤ maxEntries ∧
      start.rest = tokens ++ stop.rest ∧
        Separated phrase tokens (kindAhead stop.rest .endOfInput) trees openings := by
  induction rounds generalizing start done with
  | nil => cases hrounds
  | cons round rounds ih =>
    have hlater := forward_entriesFrom hforward tooMany rounds
    -- an entry that is one too many would have been noted
    have hcount : done.size ≠ maxEntries := by
      intro hfull
      rw [entriesFrom_cons_full hfull] at h
      obtain ⟨token, middle, hcurrent, hnext⟩ := ok_of_bind h
      cases hcurrent
      obtain ⟨_, after, hreport, hround⟩ := ok_of_bind hnext
      cases hreport
      have hsize := ((forward_entriesRound hforward hlater done).of_ok hround).size_le
      simp only [Parser.Quiet, Parser.report, Array.size_push] at hquiet hsize
      omega
    rw [entriesFrom_cons hcount] at h
    obtain ⟨last, middle, hlast, hnext⟩ := ok_of_bind h
    obtain ⟨comma?, after, haccept, hrest⟩ := ok_of_bind hnext
    have hmiddle := hforward.of_ok hlast
    have hafter := (forward_accept .comma).of_ok haccept
    cases comma? with
    | none =>
      obtain ⟨rfl, hstop⟩ := accept_eq_none haccept (by decide)
      cases hrest
      obtain ⟨tokens, openings, htokens, hphrase⟩ := hentry hlast hquiet
      exact ⟨[last], tokens, openings, by simp, by simp; omega, htokens, .last hphrase hstop⟩
    | some comma =>
      obtain ⟨hfirst, hsecond⟩ := hquiet.split (hmiddle.trans hafter) ((hlater _).of_ok hrest)
      obtain ⟨rfl, hkind⟩ := accept_eq_some haccept
      have hlength := hmiddle.length_le
      simp only [Parser.facing_rest, List.length_cons] at hlength hrounds
      obtain ⟨tokens, openings, htokens, hphrase⟩ := hentry hlast hfirst
      obtain ⟨trees, later, added, rfl, hsize, hrest, hothers⟩ :=
        ih (by omega) hrest hsecond (by simp; omega)
      refine ⟨last :: trees, tokens ++ comma :: later, openings ++ added, by simp, hsize, ?_, ?_⟩
      · rw [htokens, Parser.facing_rest, hrest, List.append_assoc, List.cons_append]
      · exact .more (by simpa [hkind] using hphrase) hkind hothers

theorem sees_eq_ok {kind : TokenKind} {found : Bool} (h : sees kind start = .ok found stop) :
    stop = start ∧ found = decide (kindAhead start.rest .endOfInput = kind) := by
  obtain ⟨token, middle, hcurrent, hnext⟩ := ok_of_bind h
  cases hcurrent
  cases hnext
  rw [Parser.current_kind]
  exact ⟨rfl, rfl⟩

theorem sound_entries {entry : Parse α} {phrase : Phrase α} (hentry : Sound entry phrase)
    (hforward : Forward entry) (tooMany : ParseCause) :
    Sound (entries tooMany entry) (Entries phrase) := by
  intro start stop trees h hquiet
  obtain ⟨closes, middle, hsees, hnext⟩ := ok_of_bind h
  obtain ⟨rfl, rfl⟩ := sees_eq_ok hsees
  by_cases hkind : kindAhead middle.rest .endOfInput = .rightParen
  · simp only [hkind, decide_true, if_true] at hnext
    cases hnext
    exact ⟨[], [], rfl, by rw [hkind]; exact .none⟩
  · simp only [hkind, decide_false] at hnext
    obtain ⟨rounds, _, hrounds, hnext⟩ := ok_of_bind hnext
    cases hrounds
    obtain ⟨all, after, hall, hrest⟩ := ok_of_bind hnext
    cases hrest
    obtain ⟨trees, tokens, openings, rfl, hsize, htokens, hphrase⟩ :=
      sound_entriesFrom hentry hforward (by simp) hall hquiet (by simp)
    refine ⟨tokens, openings, htokens, .some ?_ ?_⟩
    · simpa using hphrase
    · simpa using hsize

/-! ## Expressions -/

variable {operand inner : Parse Expr} {operandPhrase innerPhrase : Phrase Expr}

theorem sound_chainFrom {level : Level} (hend : .endOfInput ∉ level.operators)
    (hoperand : Sound operand operandPhrase) (hforward : Forward operand) {rounds : List Token}
    {left tree : Expr} (hrounds : start.rest.length < rounds.length)
    (h : chainFrom level operand rounds left start = .ok tree stop) (hquiet : start.Quiet stop) :
    ∃ tokens openings, start.rest = tokens ++ stop.rest ∧
      Operators level operandPhrase left tokens (kindAhead stop.rest .endOfInput) tree
        openings := by
  induction rounds generalizing start left with
  | nil => cases hrounds
  | cons round rounds ih =>
    obtain ⟨operator?, middle, haccept, hnext⟩ := ok_of_bind h
    cases operator? with
    | none =>
      obtain ⟨rfl, hkind⟩ := acceptIf_eq_none haccept
      cases hnext
      refine ⟨[], [], rfl, .stop fun hmem => hend ?_⟩
      rw [← hkind (by simpa using hmem)]
      exact hmem
    | some operator =>
      obtain ⟨rfl, hkind, _⟩ := acceptIf_eq_some haccept
      obtain ⟨right, after, hright, hrest⟩ := ok_of_bind hnext
      have hmiddle := hforward.of_ok hright
      have hlength := hmiddle.length_le
      simp only [Parser.facing_rest, List.length_cons] at hrounds
      have hquiet : middle.Quiet stop := hquiet
      obtain ⟨hfirst, hsecond⟩ :=
        hquiet.split hmiddle ((forward_chainFrom hforward level rounds _).of_ok hrest)
      obtain ⟨tokens, openings, htokens, hphrase⟩ := hoperand hright hfirst
      obtain ⟨later, added, hlater, hothers⟩ := ih (by omega) hrest hsecond
      refine ⟨operator :: (tokens ++ later), openings ++ added, ?_, ?_⟩
      · rw [Parser.facing_rest, htokens, hlater, List.cons_append, List.append_assoc]
      · refine .step (by simpa using hkind) ?_ hothers
        rwa [hlater, kindAhead_append] at hphrase

theorem sound_chain {level : Level} (hend : .endOfInput ∉ level.operators)
    (hoperand : Sound operand operandPhrase) (hforward : Forward operand) :
    Sound (chain level operand) (Chain level operandPhrase) := by
  intro start stop tree h hquiet
  obtain ⟨left, middle, hleft, hnext⟩ := ok_of_bind h
  obtain ⟨rounds, _, hrounds, hrest⟩ := ok_of_bind hnext
  cases hrounds
  obtain ⟨hfirst, hsecond⟩ := hquiet.split (hforward.of_ok hleft)
    ((forward_chainFrom hforward level _ left).of_ok hrest)
  obtain ⟨tokens, openings, htokens, hphrase⟩ := hoperand hleft hfirst
  obtain ⟨later, added, hlater, hothers⟩ :=
    sound_chainFrom hend hoperand hforward (by simp) hrest hsecond
  refine ⟨tokens ++ later, openings ++ added, ?_, .intro ?_ hothers⟩
  · rw [htokens, hlater, List.append_assoc]
  · rwa [hlater, kindAhead_append] at hphrase

theorem sound_disjunction (hoperand : Sound operand operandPhrase) (hforward : Forward operand) :
    Sound (climb operand levels) (Disjunction operandPhrase) := by
  have hclimb := forward_climb hforward
  have hfactor : Sound (climb operand (levels.drop 5)) (Factor operandPhrase) :=
    sound_chain (by decide) hoperand hforward
  have hterm : Sound (climb operand (levels.drop 4)) (Term operandPhrase) :=
    sound_chain (by decide) hfactor (hclimb _)
  have hcomparison : Sound (climb operand (levels.drop 3)) (Comparison operandPhrase) :=
    sound_chain (by decide) hterm (hclimb _)
  have hequality : Sound (climb operand (levels.drop 2)) (Equality operandPhrase) :=
    sound_chain (by decide) hcomparison (hclimb _)
  have hconjunction : Sound (climb operand (levels.drop 1)) (Conjunction operandPhrase) :=
    sound_chain (by decide) hequality (hclimb _)
  exact sound_chain (by decide) hconjunction (hclimb _)

theorem sound_primary (hinner : Sound inner innerPhrase) :
    Sound (primary inner) (Primary innerPhrase) := by
  intro start stop tree h hquiet
  rcases primary_eq_ok h with ⟨token, value, hliteral, rfl, rfl⟩ | ⟨token, hname, rfl, rfl⟩ |
    ⟨left, right, middle, isLeft, isRight, rfl, hvalue⟩
  · exact ⟨[token], [], rfl, .literal hliteral⟩
  · exact ⟨[token], [], rfl, .name hname⟩
  · obtain ⟨tokens, openings, htokens, hphrase⟩ := hinner hvalue hquiet
    refine ⟨left :: (tokens ++ [right]), openings, ?_, ?_⟩
    · rw [Parser.facing_rest, htokens, Parser.facing_rest, List.cons_append, List.append_assoc,
        List.singleton_append]
    · exact .group isLeft (by simpa [isRight] using hphrase) isRight

theorem sound_callsFrom (hinner : Sound inner innerPhrase) (hforward : Forward inner)
    {rounds : List Token} {callee tree : Expr} (hrounds : start.rest.length < rounds.length)
    (h : callsFrom inner rounds callee start = .ok tree stop) (hquiet : start.Quiet stop) :
    ∃ tokens openings, start.rest = tokens ++ stop.rest ∧
      Arguments innerPhrase callee tokens (kindAhead stop.rest .endOfInput) tree openings := by
  induction rounds generalizing start callee with
  | nil => cases hrounds
  | cons round rounds ih =>
    obtain ⟨left?, middle, haccept, hnext⟩ := ok_of_bind h
    cases left? with
    | none =>
      obtain ⟨rfl, hkind⟩ := accept_eq_none haccept (by decide)
      cases hnext
      exact ⟨[], [], rfl, .stop hkind⟩
    | some left =>
      obtain ⟨rfl, isLeft⟩ := accept_eq_some haccept
      obtain ⟨arguments, after, harguments, hnext⟩ := ok_of_bind hnext
      obtain ⟨right, behind, hright, hrest⟩ := ok_of_bind hnext
      have hentries := (forward_entries hforward .tooManyArguments).of_ok harguments
      have hexpect := (forward_expect _ _).of_ok hright
      have hlength := (hentries.trans hexpect).length_le
      simp only [Parser.facing_rest, List.length_cons] at hrounds
      have hquiet : middle.Quiet stop := hquiet
      obtain ⟨hfirst, hsecond⟩ := hquiet.split (hentries.trans hexpect)
        ((forward_callsFrom hforward rounds _).of_ok hrest)
      obtain ⟨rfl, isRight⟩ := expect_eq_ok hright
      obtain ⟨tokens, openings, htokens, hphrase⟩ :=
        sound_entries hinner hforward _ harguments hfirst
      obtain ⟨later, added, hlater, hothers⟩ := ih (by omega) hrest hsecond
      refine ⟨left :: (tokens ++ right :: later), openings ++ added, ?_, ?_⟩
      · rw [Parser.facing_rest, htokens, Parser.facing_rest, hlater]
        simp
      · exact .step isLeft (by simpa [isRight] using hphrase) isRight hothers

theorem sound_call (hinner : Sound inner innerPhrase) (hforward : Forward inner) :
    Sound (call inner) (Call innerPhrase) := by
  intro start stop tree h hquiet
  obtain ⟨callee, middle, hcallee, hnext⟩ := ok_of_bind h
  obtain ⟨rounds, _, hrounds, hrest⟩ := ok_of_bind hnext
  cases hrounds
  obtain ⟨hfirst, hsecond⟩ := hquiet.split ((forward_primary hforward).of_ok hcallee)
    ((forward_callsFrom hforward _ callee).of_ok hrest)
  obtain ⟨tokens, openings, htokens, hphrase⟩ := sound_primary hinner hcallee hfirst
  obtain ⟨later, added, hlater, hothers⟩ :=
    sound_callsFrom hinner hforward (by simp) hrest hsecond
  refine ⟨tokens ++ later, openings ++ added, ?_, .intro ?_ hothers⟩
  · rw [htokens, hlater, List.append_assoc]
  · rwa [hlater, kindAhead_append] at hphrase

theorem sound_unary (hoperand : Sound operand operandPhrase) (hinner : Sound inner innerPhrase)
    (hforward : Forward inner) :
    Sound (unary operand inner) (Unary operandPhrase innerPhrase) := by
  intro start stop tree h hquiet
  obtain ⟨operator?, middle, haccept, hnext⟩ := ok_of_bind h
  cases operator? with
  | none =>
    obtain ⟨rfl, _⟩ := acceptIf_eq_none haccept
    obtain ⟨tokens, openings, htokens, hphrase⟩ := sound_call hinner hforward hnext hquiet
    exact ⟨tokens, openings, htokens, .call hphrase⟩
  | some operator =>
    obtain ⟨rfl, hkind, _⟩ := acceptIf_eq_some haccept
    obtain ⟨right, after, hright, hrest⟩ := ok_of_bind hnext
    cases hrest
    obtain ⟨tokens, openings, htokens, hphrase⟩ := hoperand hright hquiet
    refine ⟨operator :: tokens, openings, ?_, .operator (by simpa using hkind) hphrase⟩
    rw [Parser.facing_rest, htokens, List.cons_append]

/-- Without an error, only a name is assigned to. -/
theorem assignTo_eq_ok {target value tree : Expr} {equals : Token}
    (h : assignTo target equals value start = .ok tree stop) (hquiet : start.Quiet stop) :
    ∃ name, target = .var name ∧ tree = .assign name value ∧ stop = start := by
  cases target with
  | var name =>
    cases h
    exact ⟨name, rfl, rfl, rfl⟩
  | _ =>
    cases h
    exact absurd hquiet (Nat.not_le.mpr (by simp [Parser.report]))

theorem sound_assignment (hoperand : Sound operand operandPhrase)
    (hinner : Sound inner innerPhrase) (hoperandForward : Forward operand)
    (hforward : Forward inner) :
    Sound (assignment operand inner) (Assignment operandPhrase innerPhrase) := by
  have hunary := forward_unary hoperandForward hforward
  have hdisjunction := sound_disjunction (sound_unary hoperand hinner hforward) hunary
  intro start stop tree h hquiet
  obtain ⟨target, middle, htarget, hnext⟩ := ok_of_bind h
  obtain ⟨equals?, after, haccept, hrest⟩ := ok_of_bind hnext
  have hmiddle := (forward_climb hunary levels).of_ok htarget
  have hafter := (forward_accept .assign).of_ok haccept
  cases equals? with
  | none =>
    obtain ⟨rfl, hkind⟩ := accept_eq_none haccept (by decide)
    cases hrest
    obtain ⟨tokens, openings, htokens, hphrase⟩ := hdisjunction htarget hquiet
    exact ⟨tokens, openings, htokens, .plain hphrase hkind⟩
  | some equals =>
    obtain ⟨value, behind, hvalue, hassign⟩ := ok_of_bind hrest
    have hbehind := hforward.of_ok hvalue
    have hstop := (forward_assignTo target equals value).of_ok hassign
    obtain ⟨hfirst, hlast⟩ := hquiet.split (hmiddle.trans hafter) (hbehind.trans hstop)
    obtain ⟨hsecond, hthird⟩ := hlast.split hbehind hstop
    obtain ⟨name, rfl, rfl, rfl⟩ := assignTo_eq_ok hassign hthird
    obtain ⟨rfl, hkind⟩ := accept_eq_some haccept
    obtain ⟨tokens, openings, htokens, hphrase⟩ := hdisjunction htarget hfirst
    obtain ⟨later, added, hlater, hphrase'⟩ := hinner hvalue hsecond
    refine ⟨tokens ++ equals :: later, openings ++ added, ?_, ?_⟩
    · rw [htokens, Parser.facing_rest, hlater, List.append_assoc, List.cons_append]
    · exact .assign (by simpa [hkind] using hphrase) hkind hphrase'

/-! ## Nesting -/

theorem sound_nested {read : Parse α} {phrase : Phrase α} {wanted : TokenKind → Prop}
    (h : Sound read phrase) (hstarts : StartsWith phrase wanted) :
    Sound (nested read) (Deeper .expression phrase) := by
  intro start stop tree hread hquiet
  cases hinside : read { start with depth := start.depth + 1 } with
  | ok result middle =>
    rw [nested_of_ok hinside] at hread
    cases hread
    obtain ⟨tokens, openings, htokens, hphrase⟩ := h hinside hquiet
    obtain ⟨token, rest, rfl, _⟩ := hstarts hphrase
    exact ⟨token :: rest, _, htokens, .intro hphrase⟩
  | error error middle =>
    rw [nested_of_error hinside] at hread
    cases hread

theorem sound_within (levels : Nat) :
    Sound (expressionWithin levels) (ExpressionWithin levels) ∧
      Sound (operandWithin levels) (OperandWithin levels) := by
  induction levels with
  | zero => exact ⟨by rintro _ _ _ ⟨⟩, by rintro _ _ _ ⟨⟩⟩
  | succ levels ih =>
    obtain ⟨hexpression, hoperand⟩ := ih
    obtain ⟨hforward, hoperandForward⟩ := forward_within levels
    exact ⟨sound_nested (sound_assignment hoperand hexpression hoperandForward hforward)
        Assignment.starts,
      sound_nested (sound_unary hoperand hexpression hforward) Unary.starts⟩

/-- **What is read as an expression is one.** -/
theorem sound_expression : Sound expression Expression := by
  intro start stop tree h hquiet
  obtain ⟨tokens, openings, htokens, hphrase⟩ :=
    (sound_within (maxNesting - start.depth)).1 h hquiet
  exact ⟨tokens, openings, htokens, _, hphrase⟩

end Parse

end Scriptlet
