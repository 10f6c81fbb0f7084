import Scriptlet.Proofs.Grammar.Statement
import Scriptlet.Proofs.Parser.Sound.Expression

/-!
# What is read as a program is one

The forms of statements are treated as those of expressions were. A declaration that could not be
read is replaced by a placeholder, but not without noting an error, so nothing is passed over where
no error is noted.

## Main results

* `Parse.sound_statementForm`, `sound_functionForm`, `sound_declarationForm` — one result for each
  form
* `Parse.sound_declaration`, `Parse.sound_program` — declarations and programs
-/

namespace Scriptlet

namespace Parse

open Grammar

variable {α β : Type} {start stop : Parser}

/-! ## Semicolons and braces -/

/-- A semicolon is consumed exactly if one is next. -/
theorem optionalSemicolon_eq_ok {result : Unit} (h : optionalSemicolon start = .ok result stop) :
    (∃ mark, start = stop.facing (mark :: stop.rest) ∧ mark.kind = .semicolon) ∨
      stop = start ∧ kindAhead start.rest .endOfInput ≠ .semicolon := by
  obtain ⟨mark?, middle, haccept, hnext⟩ := ok_of_bind h
  cases hnext
  cases mark? with
  | some mark => exact .inl ⟨mark, accept_eq_some haccept⟩
  | none => exact .inr (accept_eq_none haccept (by decide))

theorem sound_ended {read : Parse α} {phrase : Phrase α} {change : α → β} {result : Phrase β}
    (hread : Sound read phrase) (hresult : ∀ ⦃tokens next tree openings⦄,
      Ended phrase tokens next tree openings → result tokens next (change tree) openings) :
    Sound (do let value ← read; optionalSemicolon; return change value : Parse β) result := by
  intro start stop tree h hquiet
  obtain ⟨value, middle, hvalue, hnext⟩ := ok_of_bind h
  obtain ⟨_, after, hsemicolon, hrest⟩ := ok_of_bind hnext
  cases hrest
  obtain ⟨mark, rfl, sign⟩ | ⟨rfl, hstop⟩ := optionalSemicolon_eq_ok hsemicolon
  · obtain ⟨tokens, openings, htokens, hphrase⟩ := hread hvalue hquiet
    rw [Parser.facing_rest, kindAhead_cons, sign] at hphrase
    refine ⟨tokens ++ [mark], openings, ?_, hresult (.semicolon hphrase sign)⟩
    rw [htokens, Parser.facing_rest, List.append_assoc, List.singleton_append]
  · obtain ⟨tokens, openings, htokens, hphrase⟩ := hread hvalue hquiet
    exact ⟨tokens, openings, htokens, hresult (.bare hphrase hstop)⟩

section Statements

variable {function statement declaration : Parse Stmt}
variable {functionPhrase statementPhrase declarationPhrase : Phrase Stmt}
variable {wanted : TokenKind → Prop}

/-- Each round consumes a token, because no declaration is empty. -/
theorem sound_declarationsUntil {ends : TokenKind → Prop} [DecidablePred ends]
    (hdeclaration : Sound declaration declarationPhrase) (hforward : Forward declaration)
    (hstarts : StartsWith declarationPhrase wanted) {rounds : List Token} {done all : Array Stmt}
    (hrounds : start.rest.length < rounds.length)
    (h : declarationsUntil ends declaration rounds done start = .ok all stop)
    (hquiet : start.Quiet stop) :
    ∃ trees tokens openings, all = done ++ trees.toArray ∧
      ends (kindAhead stop.rest .endOfInput) ∧ start.rest = tokens ++ stop.rest ∧
        Sequence declarationPhrase tokens (kindAhead stop.rest .endOfInput) trees openings := by
  induction rounds generalizing start done with
  | nil => cases hrounds
  | cons round rounds ih =>
    obtain ⟨next, _, hcurrent, hnext⟩ := ok_of_bind h
    cases hcurrent
    rw [Parser.current_kind] at hnext
    by_cases hend : ends (kindAhead start.rest .endOfInput)
    · rw [if_pos hend] at hnext
      cases hnext
      exact ⟨[], [], [], by simp, hend, rfl, .stop⟩
    · rw [if_neg hend] at hnext
      obtain ⟨tree, middle, htree, hrest⟩ := ok_of_bind hnext
      obtain ⟨hfirst, hsecond⟩ := hquiet.split (hforward.of_ok htree)
        ((forward_declarationsUntil hforward rounds _).of_ok hrest)
      obtain ⟨tokens, openings, htokens, hphrase⟩ := hdeclaration htree hfirst
      obtain ⟨token, tokens, rfl, _⟩ := hstarts hphrase
      have hlength := congrArg List.length htokens
      simp only [List.length_cons, List.length_append] at hlength hrounds
      obtain ⟨trees, later, added, rfl, hstop, hlater, hothers⟩ := ih (by omega) hrest hsecond
      refine ⟨tree :: trees, token :: tokens ++ later, openings ++ added, by simp, hstop, ?_, ?_⟩
      · rw [htokens, hlater, List.append_assoc]
      · refine .step ?_ hothers
        rwa [hlater, kindAhead_append] at hphrase

/-- What stands behind an opening brace, together with that brace. -/
theorem sound_block (hdeclaration : Sound declaration declarationPhrase)
    (hforward : Forward declaration) (hstarts : StartsWith declarationPhrase wanted)
    {left : Token} (isLeft : left.kind = .leftBrace) :
    Sound (block declaration) fun tokens => Braced declarationPhrase (left :: tokens) := by
  intro start stop body h hquiet
  obtain ⟨rounds, _, hrounds, hnext⟩ := ok_of_bind h
  cases hrounds
  obtain ⟨all, middle, hall, hnext⟩ := ok_of_bind hnext
  obtain ⟨right, after, hright, hrest⟩ := ok_of_bind hnext
  cases hrest
  obtain ⟨rfl, isRight⟩ := expect_eq_ok hright
  rw [declarationsFrom_eq] at hall
  obtain ⟨trees, tokens, openings, rfl, _, htokens, hphrase⟩ :=
    sound_declarationsUntil hdeclaration hforward hstarts (by simp) hall hquiet
  rw [Parser.facing_rest, kindAhead_cons, isRight] at hphrase
  refine ⟨tokens ++ [right], openings, ?_, ?_⟩
  · rw [htokens, Parser.facing_rest, List.append_assoc, List.singleton_append]
  · rw [Array.empty_append]
    exact .intro isLeft hphrase isRight

/-! ## Forms of statements -/

variable {keyword : Token}

theorem sound_returnForm (isReturn : keyword.kind = .kwReturn) :
    Sound (returnForm keyword)
      fun tokens => StatementForm statementPhrase declarationPhrase (keyword :: tokens) := by
  intro start stop tree h hquiet
  obtain ⟨next, _, hcurrent, hnext⟩ := ok_of_bind h
  cases hcurrent
  rw [Parser.current_kind] at hnext
  by_cases hbare : kindAhead start.rest .endOfInput = .semicolon ∨
      EndsSequence (kindAhead start.rest .endOfInput)
  · rw [if_pos hbare] at hnext
    obtain ⟨_, after, hsemicolon, hrest⟩ := ok_of_bind hnext
    cases hrest
    obtain ⟨mark, rfl, sign⟩ | ⟨rfl, hstop⟩ := optionalSemicolon_eq_ok hsemicolon
    · exact ⟨[mark], [], rfl, .returnMarked isReturn sign⟩
    · exact ⟨[], [], rfl, .returnBare isReturn (hbare.resolve_left hstop)⟩
  · rw [if_neg hbare] at hnext
    exact sound_ended sound_expression (fun _ _ _ _ => .returnValue isReturn) hnext hquiet

theorem sound_branchForm (hstatement : Sound statement statementPhrase)
    (hforward : Forward statement) (isIf : keyword.kind = .kwIf) :
    Sound (branchForm statement)
      fun tokens => StatementForm statementPhrase declarationPhrase (keyword :: tokens) := by
  intro start stop tree h hquiet
  obtain ⟨condition, afterCondition, hcondition, hnext⟩ := ok_of_bind h
  obtain ⟨word, afterWord, hword, hnext⟩ := ok_of_bind hnext
  obtain ⟨yes, afterYes, hyes, hnext⟩ := ok_of_bind hnext
  obtain ⟨other?, afterOther, haccept, hrest⟩ := ok_of_bind hnext
  have hreach := (forward_expression.of_ok hcondition).trans ((forward_expect _ _).of_ok hword)
  have hreachYes := hforward.of_ok hyes
  have hreachOther := (forward_accept _).of_ok haccept
  cases other? with
  | none =>
    cases hrest
    obtain ⟨hfirst, hsecond⟩ := hquiet.split hreach (hreachYes.trans hreachOther)
    obtain ⟨rfl, isThen⟩ := expect_eq_ok hword
    obtain ⟨rfl, hstop⟩ := accept_eq_none haccept (by decide)
    obtain ⟨tokens, openings, htokens, hphrase⟩ := sound_expression hcondition hfirst
    obtain ⟨later, added, hlater, hyesPhrase⟩ := hstatement hyes hsecond
    rw [Parser.facing_rest, kindAhead_cons, isThen] at hphrase
    refine ⟨tokens ++ word :: later, openings ++ added, ?_,
      .branch isIf hphrase isThen hyesPhrase hstop⟩
    rw [htokens, Parser.facing_rest, hlater, List.append_assoc, List.cons_append]
  | some other =>
    obtain ⟨no, afterNo, hno, hrest⟩ := ok_of_bind hrest
    cases hrest
    have hreachNo := hforward.of_ok hno
    obtain ⟨hfirst, hlast⟩ := hquiet.split hreach ((hreachYes.trans hreachOther).trans hreachNo)
    obtain ⟨hsecond, hthird⟩ := hlast.split (hreachYes.trans hreachOther) hreachNo
    obtain ⟨rfl, isThen⟩ := expect_eq_ok hword
    obtain ⟨rfl, isElse⟩ := accept_eq_some haccept
    obtain ⟨tokens, openings, htokens, hphrase⟩ := sound_expression hcondition hfirst
    obtain ⟨later, added, hlater, hyesPhrase⟩ := hstatement hyes hsecond
    obtain ⟨last, more, hlast, hnoPhrase⟩ := hstatement hno hthird
    rw [Parser.facing_rest, kindAhead_cons, isThen] at hphrase
    rw [Parser.facing_rest, kindAhead_cons, isElse] at hyesPhrase
    refine ⟨tokens ++ word :: (later ++ other :: last), openings ++ (added ++ more), ?_,
      .branchElse isIf hphrase isThen hyesPhrase isElse hnoPhrase⟩
    rw [htokens, Parser.facing_rest, hlater, Parser.facing_rest, hlast]
    simp only [List.append_assoc, List.cons_append]

theorem sound_loopForm (hstatement : Sound statement statementPhrase)
    (hforward : Forward statement) (isWhile : keyword.kind = .kwWhile) :
    Sound (loopForm statement)
      fun tokens => StatementForm statementPhrase declarationPhrase (keyword :: tokens) := by
  intro start stop tree h hquiet
  obtain ⟨condition, afterCondition, hcondition, hnext⟩ := ok_of_bind h
  obtain ⟨word, afterWord, hword, hnext⟩ := ok_of_bind hnext
  obtain ⟨body, afterBody, hbody, hrest⟩ := ok_of_bind hnext
  cases hrest
  have hreach := (forward_expression.of_ok hcondition).trans ((forward_expect _ _).of_ok hword)
  obtain ⟨hfirst, hsecond⟩ := hquiet.split hreach (hforward.of_ok hbody)
  obtain ⟨rfl, isDo⟩ := expect_eq_ok hword
  obtain ⟨tokens, openings, htokens, hphrase⟩ := sound_expression hcondition hfirst
  obtain ⟨later, added, hlater, hbodyPhrase⟩ := hstatement hbody hsecond
  rw [Parser.facing_rest, kindAhead_cons, isDo] at hphrase
  refine ⟨tokens ++ word :: later, openings ++ added, ?_, .loop isWhile hphrase isDo hbodyPhrase⟩
  rw [htokens, Parser.facing_rest, hlater, List.append_assoc, List.cons_append]

theorem sound_statementForm (hstatement : Sound statement statementPhrase)
    (hforward : Forward statement) (hdeclaration : Sound declaration declarationPhrase)
    (hdeclarationForward : Forward declaration) (hstarts : StartsWith declarationPhrase wanted) :
    Sound (statementForm statement declaration)
      (StatementForm statementPhrase declarationPhrase) := by
  intro start stop tree h hquiet
  by_cases hform : HasForm start.current.kind
  · -- the first token says which form it is, and the form is read behind it
    have hbehind : ∀ {read : Parse Stmt}, Sound read (fun tokens =>
          StatementForm statementPhrase declarationPhrase (start.current :: tokens)) →
        read (start.facing start.rest.tail) = .ok tree stop →
        ∃ tokens openings, start.current :: start.rest.tail = tokens ++ stop.rest ∧
          StatementForm statementPhrase declarationPhrase tokens
            (kindAhead stop.rest .endOfInput) tree openings := by
      intro read hsound hread
      obtain ⟨tokens, openings, htokens, hphrase⟩ := hsound hread hquiet
      exact ⟨start.current :: tokens, openings, congrArg (start.current :: ·) htokens, hphrase⟩
    have hkind : start.current.kind ≠ .endOfInput := by
      intro hend
      exact absurd (hend ▸ hform) (by decide)
    rw [Parser.eq_facing_current hkind] at h ⊢
    rw [Parser.facing_rest]
    simp only [HasForm, List.mem_cons, List.not_mem_nil, or_false] at hform
    obtain hreturn | hprint | hbrace | hif | hwhile := hform
    · rw [statementForm_facing_return _ _ start _ hreturn] at h
      exact hbehind (sound_returnForm hreturn) h
    · rw [statementForm_facing_print _ _ start _ hprint] at h
      exact hbehind (sound_ended sound_expression fun _ _ _ _ => .print hprint) h
    · rw [statementForm_facing_brace _ _ start _ hbrace] at h
      obtain ⟨body, after, hbody, hrest⟩ := ok_of_bind h
      cases hrest
      obtain ⟨tokens, openings, htokens, hphrase⟩ :=
        sound_block hdeclaration hdeclarationForward hstarts hbrace hbody hquiet
      exact ⟨start.current :: tokens, openings, congrArg (start.current :: ·) htokens,
        .block hphrase⟩
    · rw [statementForm_facing_if _ _ start _ hif] at h
      exact hbehind (sound_branchForm hstatement hforward hif) h
    · rw [statementForm_facing_while _ _ start _ hwhile] at h
      exact hbehind (sound_loopForm hstatement hforward hwhile) h
  · rw [statementForm_eq_expression _ _ start hform] at h
    have hended : Sound _ fun tokens next tree openings =>
        ∃ value, tree = Stmt.expression value ∧ Ended Expression tokens next value openings :=
      sound_ended sound_expression fun _ _ value _ hvalue => ⟨value, rfl, hvalue⟩
    obtain ⟨tokens, openings, htokens, value, rfl, hphrase⟩ := hended h hquiet
    refine ⟨tokens, openings, htokens, .expression hphrase fun hprint => hform ?_⟩
    rw [Parser.current_kind, htokens, kindAhead_append, hprint]
    decide

/-! ## Declarations -/

theorem sound_parameter (cause : ParseCause) : Sound (expect .identifier cause) Parameter := by
  intro start stop token h hquiet
  obtain ⟨rfl, isName⟩ := expect_eq_ok h
  exact ⟨[token], [], rfl, .intro isName⟩

theorem sound_functionForm (hdeclaration : Sound declaration declarationPhrase)
    (hforward : Forward declaration) (hstarts : StartsWith declarationPhrase wanted) :
    Sound (functionForm declaration) (FunctionForm declarationPhrase) := by
  intro start stop tree h hquiet
  obtain ⟨name, _, hname, hnext⟩ := ok_of_bind h
  obtain ⟨left, afterLeft, hleft, hnext⟩ := ok_of_bind hnext
  obtain ⟨params, afterParams, hparams, hnext⟩ := ok_of_bind hnext
  obtain ⟨right, afterRight, hright, hnext⟩ := ok_of_bind hnext
  obtain ⟨brace, afterBrace, hbrace, hnext⟩ := ok_of_bind hnext
  obtain ⟨body, afterBody, hbody, hrest⟩ := ok_of_bind hnext
  cases hrest
  have hreach := ((forward_entries (forward_expect _ _) _).of_ok hparams).trans
    (((forward_expect _ _).of_ok hright).trans ((forward_expect _ _).of_ok hbrace))
  obtain ⟨rfl, isName⟩ := expect_eq_ok hname
  obtain ⟨rfl, isLeft⟩ := expect_eq_ok hleft
  have hquiet : afterLeft.Quiet stop := hquiet
  obtain ⟨hfirst, hsecond⟩ := hquiet.split hreach ((forward_block hforward).of_ok hbody)
  obtain ⟨rfl, isRight⟩ := expect_eq_ok hright
  obtain ⟨rfl, isBrace⟩ := expect_eq_ok hbrace
  obtain ⟨tokens, openings, htokens, hphrase⟩ :=
    sound_entries (sound_parameter _) (forward_expect _ _) _ hparams hfirst
  obtain ⟨later, added, hlater, hbraced⟩ :=
    sound_block hdeclaration hforward hstarts isBrace hbody hsecond
  rw [Parser.facing_rest, kindAhead_cons, isRight] at hphrase
  refine ⟨name :: left :: (tokens ++ right :: brace :: later), openings ++ added, ?_,
    .intro isName isLeft hphrase isRight hbraced⟩
  rw [Parser.facing_rest, Parser.facing_rest, htokens, Parser.facing_rest, Parser.facing_rest,
    hlater]
  simp only [List.append_assoc, List.cons_append]

/-- What stands for a declaration that could not be read does not come without an error. -/
theorem sound_recovering {read : Parse α} {phrase : Phrase α} (h : Sound read phrase)
    (hforward : Forward read) (substitute : α) : Sound (recovering substitute read) phrase := by
  intro start stop tree hread hquiet
  unfold recovering at hread
  cases hinside : read start with
  | ok result middle =>
    rw [hinside] at hread
    cases hread
    exact h hinside hquiet
  | error error middle =>
    rw [hinside] at hread
    by_cases hfatal : error.isFatal = true
    · simp only [hfatal, if_true] at hread
      cases hread
    · simp only [hfatal] at hread
      have hsize := (hforward.of_error hinside).size_le
      have hmore : middle.diagnostics.size < stop.diagnostics.size := by
        cases hread
        simp [Parser.report]
      exact absurd hquiet (Nat.not_le.mpr (Nat.lt_of_le_of_lt hsize hmore))

theorem sound_declarationForm (hfunction : Sound function functionPhrase)
    (hfunctionForward : Forward function) (hstatement : Sound statement statementPhrase)
    (hforward : Forward statement) :
    Sound (declarationForm function statement) (DeclarationForm functionPhrase statementPhrase) := by
  refine sound_recovering ?_ ?_ _
  · intro start stop tree h hquiet
    obtain ⟨keyword?, middle, haccept, hnext⟩ := ok_of_bind h
    cases keyword? with
    | none =>
      obtain ⟨rfl, _⟩ := accept_eq_none haccept (by decide)
      obtain ⟨tokens, openings, htokens, hphrase⟩ := hstatement hnext hquiet
      exact ⟨tokens, openings, htokens, .statement hphrase⟩
    | some keyword =>
      obtain ⟨rfl, isFunction⟩ := accept_eq_some haccept
      obtain ⟨tokens, openings, htokens, hphrase⟩ := hfunction hnext hquiet
      refine ⟨keyword :: tokens, openings, ?_, .function isFunction hphrase⟩
      rw [Parser.facing_rest, htokens, List.cons_append]
  · refine (forward_accept .kwFunction).bind fun keyword? => ?_
    cases keyword? with
    | none => exact hforward
    | some keyword => exact hfunctionForward

/-! ## Nesting -/

theorem sound_nestedStatement {read : Parse α} {phrase : Phrase α} (h : Sound read phrase)
    (hstarts : StartsWith phrase wanted) :
    Sound (nestedStatement read) (Deeper .statement phrase) := by
  intro start stop tree hread hquiet
  cases hinside : read { start with statementDepth := start.statementDepth + 1 } with
  | ok result middle =>
    rw [nestedStatement_of_ok hinside] at hread
    cases hread
    obtain ⟨tokens, openings, htokens, hphrase⟩ := h hinside hquiet
    obtain ⟨token, rest, rfl, _⟩ := hstarts hphrase
    exact ⟨token :: rest, _, htokens, .intro hphrase⟩
  | error error middle =>
    rw [nestedStatement_of_error hinside] at hread
    cases hread

theorem sound_statementWithin (levels : Nat) :
    Sound (statementWithin levels) (StatementWithin levels) ∧
      Sound (functionWithin levels) (FunctionWithin levels) := by
  induction levels with
  | zero => exact ⟨by rintro _ _ _ ⟨⟩, by rintro _ _ _ ⟨⟩⟩
  | succ levels ih =>
    obtain ⟨hstatement, hfunction⟩ := ih
    obtain ⟨hforward, hfunctionForward⟩ := forward_statementWithin levels
    have hdeclaration := sound_declarationForm hfunction hfunctionForward hstatement hforward
    have hdeclarationForward := forward_declarationForm hfunctionForward hforward
    have hstarts := DeclarationWithin.starts levels
    exact ⟨sound_nestedStatement (sound_statementForm hstatement hforward hdeclaration
        hdeclarationForward hstarts) StatementForm.starts,
      sound_nestedStatement (sound_functionForm hdeclaration hdeclarationForward hstarts)
        FunctionForm.starts⟩

end Statements

/-! ## Programs -/

/-- **What is read as a declaration is one.** -/
theorem sound_declaration : Sound declaration Declaration := by
  intro start stop tree h hquiet
  rw [declaration_apply] at h
  obtain ⟨hstatement, hfunction⟩ := sound_statementWithin _
  obtain ⟨hforward, hfunctionForward⟩ := forward_statementWithin _
  obtain ⟨tokens, openings, htokens, hphrase⟩ :=
    sound_declarationForm hfunction hfunctionForward hstatement hforward h hquiet
  exact ⟨tokens, openings, htokens, _, hphrase⟩

/-- **What is read as a program is one**, and it goes up to the end. -/
theorem sound_program {statements : List Stmt} (h : program start = .ok statements stop)
    (hquiet : start.Quiet stop) :
    ∃ tokens openings, start.rest = tokens ++ stop.rest ∧
      kindAhead stop.rest .endOfInput = .endOfInput ∧ Program tokens statements openings := by
  obtain ⟨rounds, _, hrounds, hnext⟩ := ok_of_bind h
  cases hrounds
  obtain ⟨all, middle, hall, hrest⟩ := ok_of_bind hnext
  cases hrest
  rw [programFrom_eq] at hall
  obtain ⟨trees, tokens, openings, rfl, hend, htokens, hphrase⟩ :=
    sound_declarationsUntil sound_declaration forward_declaration Declaration.starts (by simp) hall
      hquiet
  rw [hend] at hphrase
  refine ⟨tokens, openings, htokens, hend, ?_⟩
  rw [Array.empty_append]
  exact hphrase

end Parse

end Scriptlet
