import Mathlib.Data.List.Count
import Mathlib.Data.List.TakeWhile
import Scriptlet.Proofs.Token.Gap

/-!
# How tokens are written

A kind allows certain lexemes, and a lexeme is written as it stands or, if it is a string, between
quotes. What a text starts with is read as one token up to a character that does not continue it:
the token is written out in front of such a character and nothing else is, and where no token
stands, reading stops for one of three reasons.

## Main definitions

* `Spelled` — the lexemes of a kind
* `writing` — how a lexeme is written
* `TokenKind.runsOn`, `TokenKind.Apart` — which characters behind a token would be read with it, and
  that none of them is there
* `Unreadable` — a text that starts with no token, and why

## Main results

* `scan_writing`, `scan_of_unreadable` — what is read from a text that starts with a token, and from
  one that starts with none
* `exists_writing_or_unreadable` — there are no other texts
-/

namespace Scriptlet

/-! ## Lexemes -/

/-- The lexemes of each kind of token. -/
inductive Spelled : TokenKind → List Char → Prop
  /-- A letter or an underscore, with letters, numerals and underscores behind it, which is no
  reserved word. -/
  | identifier {c : Char} {more : List Char} (first : startsWord c = true)
      (others : ∀ d ∈ more, continuesWord d = true)
      (free : String.ofList (c :: more) ∉ keywords.map Prod.fst) : Spelled .identifier (c :: more)
  /-- A reserved word. -/
  | keyword {word : String} {kind : TokenKind} (listed : (word, kind) ∈ keywords) :
      Spelled kind word.toList
  /-- Digits, at least one. -/
  | number {c : Char} {more : List Char} (first : c.isDigit = true)
      (others : ∀ d ∈ more, d.isDigit = true) : Spelled .number (c :: more)
  /-- Any characters but the quote. -/
  | string {text : List Char} (unquoted : '"' ∉ text) : Spelled .string text
  /-- An operator or a mark of punctuation. -/
  | symbol {spelling : List Char} {kind : TokenKind} (listed : (spelling, kind) ∈ symbols) :
      Spelled kind spelling

/-- How a lexeme of a kind is written. -/
def writing (kind : TokenKind) (lexeme : List Char) : List Char :=
  if kind = .string then '"' :: (lexeme ++ ['"']) else lexeme

theorem writing_of_ne {kind : TokenKind} (h : kind ≠ .string) (lexeme : List Char) :
    writing kind lexeme = lexeme := if_neg h

/-- What is checked for the four blanks holds for every blank. -/
theorem all_of_isBlank {test : Char → Bool} (h : [' ', '\t', '\r', '\n'].all test = true)
    {c : Char} (hblank : isBlank c = true) : test c = true := by
  have hmem : c ∈ [' ', '\t', '\r', '\n'] := by simpa [isBlank, or_assoc] using hblank
  exact List.all_eq_true.mp h c hmem

namespace TokenKind

/-- Whether tokens of the kind are words: identifiers and reserved words. -/
def isWord (kind : TokenKind) : Bool := kind == identifier || (keywords.map Prod.snd).contains kind

/-- Whether a character directly behind a token of the kind would be read together with it. -/
def runsOn : TokenKind → Char → Bool
  | number, c => c.isDigit
  | assign, c | less, c | greater, c => c == '='
  | slash, c => c == '/'
  | kind, c => kind.isWord && continuesWord c

/-- What stands behind a token of the kind is not read together with it. -/
def Apart (kind : TokenKind) (behind : List Char) : Prop :=
  ∀ c ∈ behind.head?, kind.runsOn c = false

theorem apart_nil (kind : TokenKind) : kind.Apart [] := nofun

theorem apart_cons {kind : TokenKind} {c : Char} {rest : List Char} :
    kind.Apart (c :: rest) ↔ kind.runsOn c = false := by
  simp [Apart]

theorem runsOn_of_isWord {kind : TokenKind} (h : kind.isWord = true) (c : Char) :
    kind.runsOn c = continuesWord c := by
  cases kind <;> first | exact Bool.true_and _ | exact absurd h (by decide)

/-- No blank is read together with a token. -/
theorem runsOn_blank (kind : TokenKind) {c : Char} (h : isBlank c = true) :
    kind.runsOn c = false := by
  have hall : ([' ', '\t', '\r', '\n'].all fun c => !kind.runsOn c) = true := by
    cases kind <;> decide
  simpa using all_of_isBlank hall h

end TokenKind

/-! ## Unreadable texts -/

/-- A text that starts with no token, and why. -/
inductive Unreadable : LexCause → List Char → Prop
  /-- An exclamation mark without an equals sign behind it. -/
  | loneBang {rest : List Char} (alone : rest.head? ≠ some '=') : Unreadable .loneBang ('!' :: rest)
  /-- A quote behind which there is no other. -/
  | unterminatedString {rest : List Char} (unquoted : '"' ∉ rest) :
      Unreadable .unterminatedString ('"' :: rest)
  /-- A character that is neither a blank nor the first of any token. -/
  | unexpected {c : Char} {rest : List Char} (visible : isBlank c = false)
      (first : ∀ kind lexeme, Spelled kind lexeme → (writing kind lexeme).head? ≠ some c) :
      Unreadable (.unexpected c) (c :: rest)

/-! ## First characters -/

/-- No symbol starts like a token of another form, or like a gap. -/
theorem symbols_heads : ∀ entry ∈ symbols, ∀ c ∈ entry.1.head?,
    startsWord c = false ∧ c.isDigit = false ∧ isBlank c = false ∧ c ≠ '"' := by
  intro entry hentry c hc
  have hall : ∀ entry ∈ symbols, (entry.1.head?.all fun c =>
      !startsWord c && !c.isDigit && !isBlank c && c != '"') = true := by decide
  have hhead := hall entry hentry
  rw [Option.mem_def.mp hc] at hhead
  simpa [and_assoc] using hhead

/-- No blank starts a word or a number. -/
theorem blank_heads {c : Char} (h : isBlank c = true) :
    startsWord c = false ∧ c.isDigit = false := by
  have hall : ([' ', '\t', '\r', '\n'].all fun c => !startsWord c && !c.isDigit) = true := by
    decide
  simpa using all_of_isBlank hall h

theorem not_isDigit_of_startsWord {c : Char} (h : startsWord c = true) : c.isDigit = false := by
  rw [Bool.eq_false_iff]
  intro hdigit
  have hrange : 48 ≤ c.toNat ∧ c.toNat ≤ 57 := by
    simpa [Char.isDigit, UInt32.le_iff_toNat_le] using hdigit
  have hword : c.isAlpha = true ∨ c = '_' := by
    simpa [startsWord, Text.isAlphabetic, show c.toNat < 128 by omega] using h
  rcases hword with halpha | rfl
  · rcases Bool.or_eq_true_iff.mp halpha with hupper | hlower
    · have hle : 65 ≤ c.toNat := (of_decide_eq_true hupper).1
      omega
    · have hle : 97 ≤ c.toNat := of_decide_eq_true (Bool.and_eq_true_iff.mp hlower).1
      omega
  · cases hdigit

theorem symbols_head_ne_of_startsWord {c : Char} (h : startsWord c = true) :
    ∀ entry ∈ symbols, entry.1.head? ≠ some c := by
  intro entry hentry hhead
  have hword := (symbols_heads entry hentry c hhead).1
  rw [h] at hword
  cases hword

theorem symbols_head_ne_of_isDigit {c : Char} (h : c.isDigit = true) :
    ∀ entry ∈ symbols, entry.1.head? ≠ some c := by
  intro entry hentry hhead
  have hdigit := (symbols_heads entry hentry c hhead).2.1
  rw [h] at hdigit
  cases hdigit

theorem symbols_head_ne_quote : ∀ entry ∈ symbols, entry.1.head? ≠ some '"' :=
  fun entry hentry hhead => (symbols_heads entry hentry '"' hhead).2.2.2 rfl

/-! ## Symbols -/

theorem symbols_kinds : ∀ entry ∈ symbols, entry.2 ≠ .string ∧ entry.1 ≠ [] := by decide

theorem scanSymbol?_eq_none {c : Char} (h : ∀ entry ∈ symbols, entry.1.head? ≠ some c)
    (rest : List Char) : scanSymbol? (c :: rest) = none := by
  refine List.findSome?_eq_none_iff.mpr fun entry hentry => ?_
  obtain ⟨d, more, hspelling⟩ := List.exists_cons_of_ne_nil (symbols_kinds entry hentry).2
  have hd : d ≠ c := by simpa [hspelling] using h entry hentry
  simp [hspelling, List.isPrefixOf?, hd]

theorem scanSymbol?_append {spelling : List Char} {kind : TokenKind}
    (listed : (spelling, kind) ∈ symbols) {behind : List Char} (h : kind.Apart behind) :
    scanSymbol? (spelling ++ behind) = some ⟨kind, spelling, spelling, behind⟩ := by
  simp only [symbols, List.mem_cons, Prod.mk.injEq, List.not_mem_nil, or_false] at listed
  rcases listed with ⟨rfl, rfl⟩ | ⟨rfl, rfl⟩ | ⟨rfl, rfl⟩ | ⟨rfl, rfl⟩ | ⟨rfl, rfl⟩ | ⟨rfl, rfl⟩ |
    ⟨rfl, rfl⟩ | ⟨rfl, rfl⟩ | ⟨rfl, rfl⟩ | ⟨rfl, rfl⟩ | ⟨rfl, rfl⟩ | ⟨rfl, rfl⟩ | ⟨rfl, rfl⟩ |
    ⟨rfl, rfl⟩ | ⟨rfl, rfl⟩ | ⟨rfl, rfl⟩ | ⟨rfl, rfl⟩
  all_goals first
    | rfl
    | cases behind with
      | nil => rfl
      | cons d rest =>
        have hd : d ≠ '=' := by simpa [TokenKind.runsOn] using TokenKind.apart_cons.mp h
        simp [scanSymbol?, symbols, List.isPrefixOf?, hd.symm]

/-! ## Words, numbers and strings -/

theorem scanRun_append {test : Char → Bool} {run behind : List Char}
    (hrun : ∀ c ∈ run, test c = true) (hbehind : ∀ c ∈ behind.head?, test c = false)
    (kind : List Char → TokenKind) :
    scanRun test kind (run ++ behind) = ⟨kind run, run, run, behind⟩ := by
  have hstop : behind.takeWhile test = [] ∧ behind.dropWhile test = behind := by
    cases behind with
    | nil => exact ⟨rfl, rfl⟩
    | cons c rest =>
      have hc := hbehind c rfl
      simp [hc]
  rw [scanRun, List.takeWhile_append_of_pos hrun, List.dropWhile_append_of_pos hrun, hstop.1,
    hstop.2, List.append_nil]

/-- Reserved words are words, and are read as the kinds they are listed with. -/
theorem keywords_words : ∀ entry ∈ keywords, wordKind entry.1.toList = entry.2 ∧
    entry.2.isWord = true ∧ entry.2 ≠ .string ∧
    ∃ c more, entry.1.toList = c :: more ∧ startsWord c = true ∧
      ∀ d ∈ more, continuesWord d = true := by
  intro entry hentry
  have hall : ∀ entry ∈ keywords, wordKind entry.1.toList = entry.2 ∧
      entry.2.isWord = true ∧ entry.2 ≠ .string ∧
      entry.1.toList.head?.any startsWord = true ∧
      entry.1.toList.tail.all continuesWord = true := by decide
  obtain ⟨hkind, hword, hstring, hfirst, hothers⟩ := hall entry hentry
  obtain ⟨c, hc, first⟩ := (Option.any_eq_true _ _).mp hfirst
  obtain ⟨more, htext⟩ := List.head?_eq_some_iff.mp hc
  rw [htext] at hothers
  exact ⟨hkind, hword, hstring, c, more, htext, first, List.all_eq_true.mp hothers⟩

theorem scan_word {c : Char} {more behind : List Char} (first : startsWord c = true)
    (others : ∀ d ∈ more, continuesWord d = true)
    (hbehind : ∀ d ∈ behind.head?, continuesWord d = false) :
    scan c (more ++ behind) = .ok ⟨wordKind (c :: more), c :: more, c :: more, behind⟩ := by
  have hquote : c ≠ '"' := by
    rintro rfl
    cases first
  have hcontinues : continuesWord c = true := by
    unfold startsWord at first
    unfold continuesWord Text.isAlphanumeric
    rcases Bool.or_eq_true_iff.mp first with hletter | hunderscore
    · rw [hletter]
      rfl
    · rw [hunderscore, Bool.or_true]
  have hrun : ∀ d ∈ c :: more, continuesWord d = true :=
    List.forall_mem_cons.mpr ⟨hcontinues, others⟩
  rw [scan, scanSymbol?_eq_none (symbols_head_ne_of_startsWord first)]
  simp only [if_neg hquote, not_isDigit_of_startsWord first, first, if_true, Bool.false_eq_true,
    if_false]
  rw [← List.cons_append, scanRun_append hrun hbehind]

theorem scan_number {c : Char} {more behind : List Char} (first : c.isDigit = true)
    (others : ∀ d ∈ more, d.isDigit = true) (hbehind : ∀ d ∈ behind.head?, d.isDigit = false) :
    scan c (more ++ behind) = .ok ⟨.number, c :: more, c :: more, behind⟩ := by
  have hquote : c ≠ '"' := by
    rintro rfl
    cases first
  rw [scan, scanSymbol?_eq_none (symbols_head_ne_of_isDigit first)]
  simp only [if_neg hquote, first, if_true]
  rw [← List.cons_append,
    scanRun_append (List.forall_mem_cons.mpr ⟨first, others⟩) hbehind]

theorem scan_quote (rest : List Char) : scan '"' rest = scanString rest := by
  rw [scan, scanSymbol?_eq_none symbols_head_ne_quote]
  rfl

theorem passes_of_unquoted {text : List Char} (unquoted : '"' ∉ text) :
    ∀ c ∈ text, decide (c ≠ '"') = true :=
  fun _ hc => decide_eq_true (ne_of_mem_of_not_mem hc unquoted)

theorem scanString_append {text : List Char} (unquoted : '"' ∉ text) (behind : List Char) :
    scanString (text ++ '"' :: behind) = .ok ⟨.string, '"' :: (text ++ ['"']), text, behind⟩ := by
  have hrun := passes_of_unquoted unquoted
  rw [scanString, List.takeWhile_append_of_pos hrun, List.dropWhile_append_of_pos hrun]
  simp

theorem scanString_of_not_mem {text : List Char} (unquoted : '"' ∉ text) :
    scanString text = .error .unterminatedString := by
  rw [scanString, List.dropWhile_eq_nil_iff.mpr (passes_of_unquoted unquoted)]

/-! ## Tokens at the front of a text -/

/-- The end of a script is not written. -/
theorem Spelled.ne_endOfInput {kind : TokenKind} {lexeme : List Char} (h : Spelled kind lexeme) :
    kind ≠ .endOfInput := by
  have hkeyword : ∀ entry ∈ keywords, entry.2 ≠ .endOfInput := by decide
  have hsymbol : ∀ entry ∈ symbols, entry.2 ≠ .endOfInput := by decide
  cases h with
  | identifier | number | string => nofun
  | keyword listed => exact hkeyword _ listed
  | symbol listed => exact hsymbol _ listed

/-- Every token is written with at least one character. -/
theorem Spelled.exists_writing {kind : TokenKind} {lexeme : List Char} (h : Spelled kind lexeme) :
    ∃ c more, writing kind lexeme = c :: more := by
  cases h with
  | identifier | number => exact ⟨_, _, rfl⟩
  | keyword listed =>
    obtain ⟨_, _, hstring, c, more, htext, _⟩ := keywords_words _ listed
    exact ⟨c, more, by rw [writing_of_ne hstring, htext]⟩
  | string => exact ⟨_, _, rfl⟩
  | symbol listed =>
    obtain ⟨hkind, hne⟩ := symbols_kinds _ listed
    rw [writing_of_ne hkind]
    exact List.exists_cons_of_ne_nil hne

/-- **A token in front of a character that does not continue it is read as this token.** -/
theorem scan_writing {kind : TokenKind} {lexeme behind more : List Char} {c : Char}
    (h : Spelled kind lexeme) (hapart : kind.Apart behind)
    (hwriting : writing kind lexeme = c :: more) :
    scan c (more ++ behind) = .ok ⟨kind, writing kind lexeme, lexeme, behind⟩ := by
  cases h with
  | identifier first others free =>
    cases hwriting
    have hlookup : wordKind (c :: more) = .identifier := by
      have hnone : keywords.lookup (String.ofList (c :: more)) = none := by
        rw [List.lookup_eq_none_iff]
        intro entry hentry
        exact bne_iff_ne.mpr fun heq => free (heq ▸ List.mem_map_of_mem hentry)
      rw [wordKind, hnone]
      rfl
    rw [scan_word first others hapart, hlookup]
    rfl
  | @keyword word kind listed =>
    obtain ⟨hkind, hword, hstring, d, rest, htext, first, others⟩ := keywords_words _ listed
    rw [writing_of_ne hstring] at hwriting ⊢
    cases htext.symm.trans hwriting
    rw [hwriting] at hkind ⊢
    have hbehind : ∀ d ∈ behind.head?, continuesWord d = false := by
      intro d hd
      rw [← TokenKind.runsOn_of_isWord hword, hapart d hd]
    rw [scan_word first others hbehind, hkind]
  | number first others =>
    cases hwriting
    exact scan_number first others hapart
  | @string text unquoted =>
    cases hwriting
    rw [scan_quote, List.append_assoc, List.singleton_append, scanString_append unquoted]
    rfl
  | symbol listed =>
    rw [writing_of_ne (symbols_kinds _ listed).1] at hwriting ⊢
    rw [scan, ← List.cons_append, ← hwriting, scanSymbol?_append listed hapart]

/-- A character is the first of a token if it is a quote, a digit, the first of a word, or the first
of a symbol. -/
theorem Spelled.head {kind : TokenKind} {lexeme : List Char} (h : Spelled kind lexeme) {c : Char}
    (hhead : (writing kind lexeme).head? = some c) :
    c = '"' ∨ c.isDigit = true ∨ startsWord c = true ∨
      ∃ entry ∈ symbols, entry.1.head? = some c := by
  cases h with
  | identifier first =>
    cases hhead
    exact .inr (.inr (.inl first))
  | keyword listed =>
    obtain ⟨_, _, hstring, d, rest, htext, first, _⟩ := keywords_words _ listed
    rw [writing_of_ne hstring, htext] at hhead
    cases hhead
    exact .inr (.inr (.inl first))
  | number first =>
    cases hhead
    exact .inr (.inl first)
  | string =>
    cases hhead
    exact .inl rfl
  | symbol listed =>
    rw [writing_of_ne (symbols_kinds _ listed).1] at hhead
    exact .inr (.inr (.inr ⟨_, listed, hhead⟩))

/-- **Reading stops at a text that starts with no token.** -/
theorem scan_of_unreadable {cause : LexCause} {c : Char} {rest : List Char}
    (h : Unreadable cause (c :: rest)) : scan c rest = .error cause := by
  cases h with
  | loneBang alone =>
    cases rest with
    | nil => rfl
    | cons d rest =>
      have hd : d ≠ '=' := fun heq => alone (congrArg some heq)
      have hnone : scanSymbol? ('!' :: d :: rest) = none := by
        simp [scanSymbol?, symbols, List.isPrefixOf?, hd.symm]
      rw [scan, hnone]
      rfl
  | unterminatedString unquoted => rw [scan_quote, scanString_of_not_mem unquoted]
  | unexpected visible first =>
    have hsymbol : ∀ entry ∈ symbols, entry.1.head? ≠ some c := by
      intro entry hentry hhead
      refine first entry.2 entry.1 (.symbol hentry) ?_
      rwa [writing_of_ne (symbols_kinds entry hentry).1]
    have hquote : c ≠ '"' := by
      rintro rfl
      exact first .string [] (.string (by simp)) rfl
    have hdigit : ¬ c.isDigit = true := fun hdigit =>
      first .number [c] (.number hdigit (by simp)) rfl
    have hword : ¬ startsWord c = true := by
      intro hword
      have hlong : ∀ entry ∈ keywords, entry.1.toList.length ≠ 1 := by decide
      refine first .identifier [c] (.identifier hword (by simp) fun hmem => ?_) rfl
      obtain ⟨entry, hentry, heq⟩ := List.mem_map.mp hmem
      exact hlong entry hentry (by rw [heq]; simp)
    have hbang : c ≠ '!' := by
      rintro rfl
      exact hsymbol (['!', '='], .notEqual) (by decide) rfl
    rw [scan, scanSymbol?_eq_none hsymbol]
    simp only [if_neg hquote, if_neg hdigit, if_neg hword, if_neg hbang]

theorem exists_writing_of_scanSymbol? {c : Char} {rest : List Char} {scanned : Scanned}
    (h : scanSymbol? (c :: rest) = some scanned) (hgap : startsGap (c :: rest) = false) :
    ∃ kind lexeme behind, c :: rest = writing kind lexeme ++ behind ∧ Spelled kind lexeme ∧
      kind.Apart behind := by
  obtain ⟨⟨spelling, kind⟩, listed, hfound⟩ := List.exists_of_findSome?_eq_some h
  obtain ⟨behind, hprefix, rfl⟩ := Option.map_eq_some_iff.mp hfound
  have htext := List.isPrefixOf?_eq_some_iff_append_eq.mp hprefix
  refine ⟨kind, spelling, behind, ?_, .symbol listed, ?_⟩
  · rw [writing_of_ne (symbols_kinds _ listed).1, htext]
  -- only an equals sign and a slash could be read together with a symbol
  intro d hd
  obtain ⟨more, rfl⟩ := List.head?_eq_some_iff.mp hd
  rw [← htext] at h hgap
  simp only [symbols, List.mem_cons, Prod.mk.injEq, List.not_mem_nil, or_false] at listed
  rcases listed with ⟨rfl, rfl⟩ | ⟨rfl, rfl⟩ | ⟨rfl, rfl⟩ | ⟨rfl, rfl⟩ | ⟨rfl, rfl⟩ | ⟨rfl, rfl⟩ |
    ⟨rfl, rfl⟩ | ⟨rfl, rfl⟩ | ⟨rfl, rfl⟩ | ⟨rfl, rfl⟩ | ⟨rfl, rfl⟩ | ⟨rfl, rfl⟩ | ⟨rfl, rfl⟩ |
    ⟨rfl, rfl⟩ | ⟨rfl, rfl⟩ | ⟨rfl, rfl⟩ | ⟨rfl, rfl⟩
  all_goals first
    | rfl
    | refine beq_eq_false_iff_ne.mpr ?_
      rintro rfl
      first | (cases hgap; done) | cases h

/-- A text that starts with no symbol has none of them in front. -/
theorem append_ne_of_scanSymbol? {text : List Char} (h : scanSymbol? text = none) :
    ∀ entry ∈ symbols, ∀ behind, entry.1 ++ behind ≠ text := by
  rintro ⟨spelling, kind⟩ listed behind rfl
  have hnone := Option.map_eq_none_iff.mp (List.findSome?_eq_none_iff.mp h (spelling, kind) listed)
  rw [List.isPrefixOf?_eq_some_iff_append_eq.mpr rfl] at hnone
  cases hnone

/-- The first character of a symbol is a symbol itself, unless it is an exclamation mark. -/
theorem symbols_single : ∀ entry ∈ symbols, ∀ c ∈ entry.1.head?,
    c = '!' ∨ [c] ∈ symbols.map Prod.fst := by
  intro entry hentry c hc
  have hall : ∀ entry ∈ symbols, (entry.1.head?.all fun c =>
      c == '!' || (symbols.map Prod.fst).contains [c]) = true := by decide
  have hhead := hall entry hentry
  rw [Option.mem_def.mp hc, Option.all_some, Bool.or_eq_true] at hhead
  exact hhead.imp beq_iff_eq.mp List.contains_iff_mem.mp

/-- A word is spelled as the token of its kind. -/
theorem spelled_word {c : Char} {more : List Char} (first : startsWord c = true)
    (others : ∀ d ∈ more, continuesWord d = true) :
    Spelled (wordKind (c :: more)) (c :: more) ∧ (wordKind (c :: more)).isWord = true := by
  unfold wordKind
  cases hlookup : keywords.lookup (String.ofList (c :: more)) with
  | none =>
    refine ⟨.identifier first others fun hmem => ?_, rfl⟩
    obtain ⟨entry, hentry, heq⟩ := List.mem_map.mp hmem
    exact bne_iff_ne.mp (List.lookup_eq_none_iff.mp hlookup entry hentry) heq.symm
  | some kind =>
    have hmem : (String.ofList (c :: more), kind) ∈ keywords := by
      obtain ⟨front, back, hsplit, _⟩ := List.lookup_eq_some_iff.mp hlookup
      rw [hsplit]
      exact List.mem_append_right _ List.mem_cons_self
    have hspelled := Spelled.keyword hmem
    rw [String.toList_ofList] at hspelled
    exact ⟨hspelled, (keywords_words _ hmem).2.1⟩

theorem exists_run {test : Char → Bool} (text : List Char) :
    ∃ run behind, text = run ++ behind ∧ (∀ c ∈ run, test c = true) ∧
      ∀ c ∈ behind.head?, test c = false := by
  refine ⟨text.takeWhile test, text.dropWhile test, List.takeWhile_append_dropWhile.symm,
    fun c => List.mem_takeWhile_imp, fun c hc => ?_⟩
  have hstop := List.head?_dropWhile_not test text
  rw [hc] at hstop
  exact hstop

/-- **Behind a gap a text ends, starts with a token or is unreadable.** -/
theorem exists_writing_or_unreadable {c : Char} {rest : List Char}
    (hgap : startsGap (c :: rest) = false) :
    (∃ kind lexeme behind, c :: rest = writing kind lexeme ++ behind ∧ Spelled kind lexeme ∧
      kind.Apart behind) ∨ ∃ cause, Unreadable cause (c :: rest) := by
  cases hsymbol : scanSymbol? (c :: rest) with
  | some scanned => exact .inl (exists_writing_of_scanSymbol? hsymbol hgap)
  | none =>
    by_cases hquote : c = '"'
    · subst hquote
      by_cases hmem : '"' ∈ rest
      · obtain ⟨text, behind, rfl, unquoted⟩ := List.eq_append_cons_of_mem hmem
        exact .inl ⟨.string, text, behind, by simp [writing], .string unquoted, fun _ _ => rfl⟩
      · exact .inr ⟨_, .unterminatedString hmem⟩
    by_cases hdigit : c.isDigit = true
    · obtain ⟨more, behind, rfl, others, hbehind⟩ := @exists_run Char.isDigit rest
      exact .inl ⟨.number, c :: more, behind, rfl, .number hdigit others, hbehind⟩
    by_cases hword : startsWord c = true
    · obtain ⟨more, behind, rfl, others, hbehind⟩ := @exists_run continuesWord rest
      obtain ⟨hspelled, hkind⟩ := spelled_word hword others
      have hstring : wordKind (c :: more) ≠ .string := fun heq => by
        rw [heq] at hkind
        cases hkind
      refine .inl ⟨_, c :: more, behind, by rw [writing_of_ne hstring]; rfl, hspelled, ?_⟩
      intro d hd
      rw [TokenKind.runsOn_of_isWord hkind, hbehind d hd]
    right
    by_cases hbang : c = '!'
    · subst hbang
      refine ⟨.loneBang, .loneBang fun hhead => ?_⟩
      obtain ⟨behind, rfl⟩ := List.head?_eq_some_iff.mp hhead
      exact append_ne_of_scanSymbol? hsymbol (['!', '='], .notEqual) (by decide) behind rfl
    · refine ⟨.unexpected c, .unexpected (startsGap_cons_eq_false.mp hgap).1 ?_⟩
      intro kind lexeme hspelled hhead
      rcases hspelled.head hhead with hc | hc | hc | ⟨entry, hentry, hc⟩
      · exact hquote hc
      · exact hdigit hc
      · exact hword hc
      · obtain ⟨single, hsingle, hc⟩ := List.mem_map.mp
          ((symbols_single entry hentry c hc).resolve_left hbang)
        exact append_ne_of_scanSymbol? hsymbol single hsingle rest (by rw [hc]; rfl)

/-! ## No gap in front -/

theorem not_isBlank_of_head {c : Char} (h : c = '"' ∨ c.isDigit = true ∨ startsWord c = true ∨
    ∃ entry ∈ symbols, entry.1.head? = some c) : isBlank c = false := by
  rw [Bool.eq_false_iff]
  intro hblank
  obtain ⟨hword, hdigit⟩ := blank_heads hblank
  rcases h with rfl | h | h | ⟨entry, hentry, h⟩
  · cases hblank
  · exact absurd (h.symm.trans hdigit) nofun
  · exact absurd (h.symm.trans hword) nofun
  · exact absurd (hblank.symm.trans (symbols_heads entry hentry c h).2.2.1) nofun

/-- Only one token starts with a slash. -/
theorem Spelled.eq_slash {kind : TokenKind} {lexeme : List Char} (h : Spelled kind lexeme)
    (hhead : (writing kind lexeme).head? = some '/') : kind = .slash ∧ lexeme = ['/'] := by
  cases h with
  | identifier first | number first =>
    cases hhead
    cases first
  | keyword listed =>
    obtain ⟨_, _, hstring, d, rest, htext, first, _⟩ := keywords_words _ listed
    rw [writing_of_ne hstring, htext] at hhead
    cases hhead
    cases first
  | string => cases hhead
  | symbol listed =>
    have hslash : ∀ entry ∈ symbols, entry.1.head? = some '/' →
        entry.2 = .slash ∧ entry.1 = ['/'] := by decide
    rw [writing_of_ne (symbols_kinds _ listed).1] at hhead
    exact hslash _ listed hhead

/-- A token does not start a gap. -/
theorem startsGap_writing {kind : TokenKind} {lexeme behind : List Char} (h : Spelled kind lexeme)
    (hapart : kind.Apart behind) : startsGap (writing kind lexeme ++ behind) = false := by
  obtain ⟨c, more, hwriting⟩ := h.exists_writing
  have hhead := h.head (by rw [hwriting]; rfl)
  rw [hwriting, List.cons_append, startsGap_cons_eq_false]
  refine ⟨not_isBlank_of_head hhead, ?_⟩
  rintro ⟨rfl, hslash⟩
  obtain ⟨rfl, rfl⟩ := h.eq_slash (by rw [hwriting]; rfl)
  cases hwriting
  exact absurd (hapart '/' hslash) nofun

/-- Neither does an unreadable text. -/
theorem Unreadable.startsGap {cause : LexCause} {text : List Char} (h : Unreadable cause text) :
    startsGap text = false := by
  cases h with
  | loneBang | unterminatedString => rfl
  | unexpected visible first =>
    refine startsGap_cons_eq_false.mpr ⟨visible, fun hslashes => ?_⟩
    refine first .slash ['/'] (.symbol (by decide)) ?_
    rw [hslashes.1]
    rfl

end Scriptlet
