import Scriptlet.Proofs.Parser.Complete.Statement
import Scriptlet.Proofs.Parser.Sound.Statement

/-!
# Reading a program decides the grammar

A program is read without an error exactly if the tokens in front of the first end mark are a
program of the grammar whose nesting stays within the limits. Where the end marks stand, and
whether there is one at all, makes no difference.

## Main definitions

* `beforeEnd` — the tokens in front of the first end mark
* `Yields` — reading a program gives statements and no error

## Main results

* `yields_iff_allow` — programs of the grammar are read if a level is left for their openings
* `yields_iff_program` — nothing else is read without an error
-/

namespace Scriptlet

open Grammar

/-- The tokens in front of the first end mark. -/
def beforeEnd (tokens : List Token) : List Token :=
  tokens.takeWhile (·.kind ≠ .endOfInput)

/-- How many levels may be opened in a program. -/
def Grammar.Limits.program : Limits := ⟨maxNesting, maxStatementNesting⟩

/-- Reading the tokens as a program gives the statements, and no error is noted. -/
def Yields (tokens : List Token) (statements : List Stmt) : Prop :=
  ∃ stop, Parse.program (.ofTokens tokens) = .ok statements stop ∧ stop.diagnostics = #[]

/-! ## In front of the first end mark -/

theorem beforeEnd_cons_end {token : Token} (h : token.kind = .endOfInput) (rest : List Token) :
    beforeEnd (token :: rest) = [] := List.takeWhile_cons_of_neg (by simpa using h)

theorem beforeEnd_cons {token : Token} (h : token.kind ≠ .endOfInput) (rest : List Token) :
    beforeEnd (token :: rest) = token :: beforeEnd rest :=
  List.takeWhile_cons_of_pos (by simpa using h)

theorem beforeEnd_append {tokens rest : List Token}
    (h : ∀ token ∈ tokens, token.kind ≠ .endOfInput)
    (hrest : kindAhead rest .endOfInput = .endOfInput) : beforeEnd (tokens ++ rest) = tokens := by
  induction tokens with
  | nil =>
    cases rest with
    | nil => rfl
    | cons token rest => exact beforeEnd_cons_end hrest rest
  | cons token tokens ih =>
    obtain ⟨hfirst, hothers⟩ := List.forall_mem_cons.mp h
    rw [List.cons_append, beforeEnd_cons hfirst, ih hothers]

theorem kind_ne_of_mem_beforeEnd {tokens : List Token} {token : Token}
    (h : token ∈ beforeEnd tokens) : token.kind ≠ .endOfInput := by
  have hall := List.all_eq_true.mp List.all_takeWhile token h
  simpa using hall

/-- What follows the tokens in front of the first end mark is that mark, or nothing. -/
theorem exists_eq_beforeEnd_append (tokens : List Token) :
    ∃ rest, tokens = beforeEnd tokens ++ rest ∧ kindAhead rest .endOfInput = .endOfInput := by
  induction tokens with
  | nil => exact ⟨[], rfl, rfl⟩
  | cons token tokens ih =>
    by_cases h : token.kind = .endOfInput
    · exact ⟨token :: tokens, by rw [beforeEnd_cons_end h, List.nil_append], h⟩
    · obtain ⟨rest, htokens, hrest⟩ := ih
      exact ⟨rest, by rw [beforeEnd_cons h, List.cons_append, ← htokens], hrest⟩

/-- A parser over tokens may add an end mark, and nothing else. -/
theorem rest_ofTokens (tokens : List Token) :
    ∃ added, (Parser.ofTokens tokens).rest = tokens ++ added ∧
      kindAhead added .endOfInput = .endOfInput := by
  unfold Parser.ofTokens
  split
  · rename_i h
    rw [List.getLast?_eq_none_iff.mp h]
    exact ⟨_, rfl, rfl⟩
  · split
    · exact ⟨[], (List.append_nil tokens).symm, rfl⟩
    · exact ⟨_, rfl, rfl⟩

/-! ## Programs -/

/-- A program of the grammar is read up to the first opening for which no level is left, whether an
end mark and other tokens follow or nothing does. -/
theorem settles_ofTokens {tokens rest : List Token} {statements : List Stmt}
    {openings : List Opening} (h : Program tokens statements openings)
    (hrest : kindAhead rest .endOfInput = .endOfInput) :
    ∃ added, Parse.Settles (Parse.program (.ofTokens (tokens ++ rest)))
      (Limits.program.firstError openings) statements
      ((Parser.ofTokens (tokens ++ rest)).facing (rest ++ added)) := by
  obtain ⟨added, hadded, hend⟩ := rest_ofTokens (tokens ++ rest)
  have hread := Parse.settles_program h (.ofTokens (tokens ++ rest)) (rest ++ added)
    (by rw [kindAhead_append, hend, hrest])
  rw [← List.append_assoc, ← hadded] at hread
  exact ⟨added, hread⟩

/-- A program of the grammar is read if and only if a level is left for each of its openings,
whether an end mark and other tokens follow or nothing does. -/
theorem yields_iff_allow {tokens rest : List Token} {statements : List Stmt}
    {openings : List Opening} (h : Program tokens statements openings)
    (hrest : kindAhead rest .endOfInput = .endOfInput) :
    Yields (tokens ++ rest) statements ↔ Limits.program.Allow openings := by
  obtain ⟨added, hsettles⟩ := settles_ofTokens h hrest
  rw [← Limits.firstError_eq_none_iff]
  cases hfirst : Limits.program.firstError openings with
  | none =>
    rw [hfirst, Parse.settles_none] at hsettles
    exact iff_of_true ⟨_, hsettles, rfl⟩ rfl
  | some error =>
    rw [hfirst] at hsettles
    obtain ⟨stopped, hstopped⟩ := hsettles
    refine iff_of_false ?_ nofun
    rintro ⟨stop, hread, _⟩
    cases hread.symm.trans hstopped

/-- What is read without an error is a program of the grammar, and nothing is left over. -/
theorem exists_program_of_yields {tokens : List Token} {statements : List Stmt}
    (h : Yields tokens statements) : ∃ openings, Program (beforeEnd tokens) statements openings := by
  obtain ⟨stop, hread, hquiet⟩ := h
  obtain ⟨consumed, openings, hconsumed, hend, hprogram⟩ :=
    Parse.sound_program hread (by simp [Parser.Quiet, hquiet])
  obtain ⟨reached, hreached, hkinds⟩ := (Parse.forward_program.of_ok hread).consumed
  have hsame : reached = consumed := List.append_cancel_right (hreached.symm.trans hconsumed)
  obtain ⟨rest, htokens, hrest⟩ := exists_eq_beforeEnd_append tokens
  obtain ⟨added, hadded, haddedEnd⟩ := rest_ofTokens tokens
  -- both what was consumed and what stands before the first end mark end at that mark
  have hbefore : beforeEnd tokens = consumed := calc
    beforeEnd tokens = beforeEnd (beforeEnd tokens ++ (rest ++ added)) :=
      (beforeEnd_append (fun _ => kind_ne_of_mem_beforeEnd)
        (by rw [kindAhead_append, haddedEnd, hrest])).symm
    _ = beforeEnd (consumed ++ stop.rest) := by
      rw [← List.append_assoc, ← htokens, ← hadded, hconsumed]
    _ = consumed := beforeEnd_append (hsame ▸ hkinds) hend
  exact ⟨openings, hbefore ▸ hprogram⟩

/-- What is read without an error in front of an end is a program of the grammar, and a level is
left for each of its openings. -/
theorem Yields.exists_allow {tokens rest : List Token} {statements : List Stmt}
    (h : Yields (tokens ++ rest) statements)
    (hends : ∀ token ∈ tokens, token.kind ≠ .endOfInput)
    (hrest : kindAhead rest .endOfInput = .endOfInput) :
    ∃ openings, Program tokens statements openings ∧ Limits.program.Allow openings := by
  obtain ⟨openings, hprogram⟩ := exists_program_of_yields h
  rw [beforeEnd_append hends hrest] at hprogram
  exact ⟨openings, hprogram, (yields_iff_allow hprogram hrest).mp h⟩

/-- **Reading a program decides the grammar.** Reading gives statements without an error exactly if
the tokens in front of the first end mark are, from the first to the last, a program of the grammar
with these statements, and a level is left for each of its openings. -/
theorem yields_iff_program (tokens : List Token) (statements : List Stmt) :
    Yields tokens statements ↔
      ∃ openings, Program (beforeEnd tokens) statements openings ∧
        Limits.program.Allow openings := by
  obtain ⟨rest, htokens, hrest⟩ := exists_eq_beforeEnd_append tokens
  constructor
  · intro h
    obtain ⟨openings, hprogram⟩ := exists_program_of_yields h
    rw [htokens] at h
    exact ⟨openings, hprogram, (yields_iff_allow hprogram hrest).mp h⟩
  · rintro ⟨openings, hprogram, hallow⟩
    rw [htokens]
    exact (yields_iff_allow hprogram hrest).mpr hallow

end Scriptlet
