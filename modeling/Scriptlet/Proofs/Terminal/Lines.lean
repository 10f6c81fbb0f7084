import Scriptlet.Proofs.Terminal.Transcript

/-!
# Each read answers for one piece of the input

The bytes of an input are cut behind each line break, and what is left behind the last one is a
piece of its own. A read answers for the next piece, whatever was read before and whatever was
written in between: with the line that the piece encodes, without what ends it, or with an error if
the piece encodes nothing. Either way the piece is used up and no other is touched.

## Main definitions

* `LineSource.Cut`, `LineSource.pieces` — bytes that are cut behind each line break
* `Terminal.Answers` — what a read answers for a piece, and behind the last one
* `Terminal.Awaits` — the pieces that a terminal has not read

## Main results

* `decode?_eq_some_iff` — bytes are decoded as the text that they stand for
* `Terminal.Awaits.after`, `Terminal.Awaits.afterAll` — what one request and many requests leave
* `Terminal.Awaits.read` — a read answers for the first piece that is left
* `Terminal.reads_answer_pieces` — reads answer for the pieces one after the other
-/

namespace Scriptlet

/-! ## Decoding -/

theorem textBytes_eq_flatMap (text : String) :
    textBytes text = text.toList.flatMap String.utf8EncodeChar := by
  rw [textBytes, String.toUTF8_eq_toByteArray, ← String.utf8Encode_toList]
  simp [List.utf8Encode]

/-- **Bytes are decoded as the text that they stand for.** -/
theorem decode?_eq_some_iff {bytes : List UInt8} {text : String} :
    decode? bytes = some text ↔ textBytes text = bytes := by
  rw [decode?, String.fromUTF8?]
  constructor
  · intro h
    split at h
    · cases h
      simp [textBytes, String.fromUTF8, List.data_toByteArray]
    · cases h
  · rintro rfl
    have hbytes : (textBytes text).toByteArray = text.toByteArray := by
      apply ByteArray.ext
      simp [textBytes, List.data_toByteArray]
    rw [hbytes, dif_pos text.isValidUTF8]
    rfl

theorem decode?_eq_none_iff {bytes : List UInt8} :
    decode? bytes = none ↔ ∀ text, textBytes text ≠ bytes := by
  simp only [Option.eq_none_iff_forall_ne_some, ne_eq, decode?_eq_some_iff]

open LineSource (lineBreak)

/-- The byte of a carriage return. -/
def carriageReturn : UInt8 := 13

/-- Only a line break is encoded with the byte of a line break at its end. -/
theorem eq_newline_of_getLast? {c : Char}
    (h : (String.utf8EncodeChar c).getLast? = some lineBreak) : c = '\n' := by
  have hcode {n : Nat} (hn : some (UInt8.ofNat n) = some lineBreak) : n % 256 = 10 := by
    have hbyte := congrArg UInt8.toNat (Option.some.inj hn)
    rwa [UInt8.toNat_ofNat'] at hbyte
  -- The last byte of a longer encoding is at least 128.
  rw [String.utf8EncodeChar] at h
  split at h
  · have hc : c.val.toNat = '\n'.val.toNat := by
      have := hcode h
      show c.val.toNat = 10
      omega
    exact Char.ext (UInt32.toNat_inj.mp hc)
  · split at h
    · have := hcode h
      omega
    · split at h
      · have := hcode h
        omega
      · have := hcode h
        omega

theorem getLast?_of_textBytes {text : String} (h : (textBytes text).getLast? = some lineBreak) :
    text.toList.getLast? = some '\n' := by
  rw [textBytes_eq_flatMap] at h
  rcases List.eq_nil_or_concat text.toList with hnil | ⟨front, c, hconcat⟩
  · simp [hnil] at h
  · have hne : String.utf8EncodeChar c ≠ [] := by simp
    rw [hconcat, List.concat_eq_append, List.flatMap_append, List.flatMap_singleton,
      List.getLast?_append, List.getLast?_eq_some_getLast hne, Option.some_or,
      ← List.getLast?_eq_some_getLast hne] at h
    simp [hconcat, eq_newline_of_getLast? h]

/-- What ends a line is a line break, and a carriage return before it. -/
theorem withoutLineBreak_cases (text : String) :
    (∃ line, text = line ++ "\r\n" ∧ withoutLineBreak text = line) ∨
      (∃ line, text = line ++ "\n" ∧ line.toList.getLast? ≠ some '\r' ∧
        withoutLineBreak text = line) ∨
      text.toList.getLast? ≠ some '\n' ∧ withoutLineBreak text = text := by
  have hlast : text.toList.getLast? = text.toList.reverse.head? := List.head?_reverse.symm
  have htext : text = String.ofList text.toList.reverse.reverse := by simp
  rw [withoutLineBreak, hlast]
  split
  · next rest hreverse =>
    refine .inl ⟨_, ?_, rfl⟩
    rw [hreverse] at htext
    rw [htext]
    simp
  · next rest hreturn hreverse =>
    refine .inr (.inl ⟨_, ?_, ?_, rfl⟩)
    · rw [hreverse] at htext
      rw [htext]
      simp
    · intro hends
      obtain ⟨front, rfl⟩ : ∃ front, rest = '\r' :: front := by
        simpa [List.head?_eq_some_iff] using hends
      exact hreturn front rfl
  · next hreturn hbreak =>
    refine .inr (.inr ⟨fun hends => ?_, rfl⟩)
    obtain ⟨front, hfront⟩ := List.head?_eq_some_iff.mp hends
    exact hbreak front hfront

/-! ## Pieces -/

namespace LineSource

/-- Bytes that are cut behind each line break. What is left behind the last one is a piece if it is
not empty. -/
inductive Cut : List UInt8 → List (List UInt8) → Prop
  | nil : Cut [] []
  | last {piece : List UInt8} (hne : piece ≠ []) (h : lineBreak ∉ piece) : Cut piece [piece]
  | line {body rest : List UInt8} {pieces : List (List UInt8)} (h : lineBreak ∉ body)
      (hrest : Cut rest pieces) :
      Cut (body ++ lineBreak :: rest) ((body ++ [lineBreak]) :: pieces)

/-- The pieces of bytes that are cut behind each line break. -/
def pieces : List UInt8 → List (List UInt8)
  | [] => []
  | byte :: rest =>
    if byte = lineBreak then [byte] :: pieces rest
    else
      match pieces rest with
      | [] => [[byte]]
      | piece :: others => (byte :: piece) :: others

theorem cut_pieces (bytes : List UInt8) : Cut bytes (pieces bytes) := by
  induction bytes with
  | nil => exact .nil
  | cons byte rest ih =>
    rw [pieces]
    by_cases hbyte : byte = lineBreak
    · rw [if_pos hbyte, hbyte]
      exact .line List.not_mem_nil ih
    · rw [if_neg hbyte]
      have hnotMem {body : List UInt8} (h : lineBreak ∉ body) : lineBreak ∉ byte :: body := by
        simp [h, Ne.symm hbyte]
      generalize pieces rest = others at ih
      cases ih with
      | nil => exact .last (List.cons_ne_nil _ _) (hnotMem List.not_mem_nil)
      | last hne h => exact .last (List.cons_ne_nil _ _) (hnotMem h)
      | line h hrest => exact .line (hnotMem h) hrest

example : pieces [97, 13, 10, 255, 10, 10, 98, 13] =
    [[97, 13, 10], [255, 10], [10], [98, 13]] := by decide

/-- Each piece is ended by a line break, or has none. -/
theorem Cut.ended {bytes : List UInt8} {pieces : List (List UInt8)} (h : Cut bytes pieces)
    {piece : List UInt8} (hmem : piece ∈ pieces) :
    piece.getLast? = some lineBreak ∨ lineBreak ∉ piece := by
  induction h with
  | nil => exact absurd hmem List.not_mem_nil
  | last hne hlast => exact .inr (List.mem_singleton.mp hmem ▸ hlast)
  | @line body rest pieces hbody hrest ih =>
    rcases List.mem_cons.mp hmem with rfl | hlater
    · exact .inl (by simp)
    · exact ih hlater

/-- The first piece is what a read takes off the bytes. -/
theorem pieces_of_ne_nil {bytes : List UInt8} (h : bytes ≠ []) :
    pieces bytes = firstLine bytes :: pieces (afterFirstLine bytes) := by
  induction bytes with
  | nil => exact absurd rfl h
  | cons byte rest ih =>
    rw [pieces]
    by_cases hbyte : byte = lineBreak
    · simp [firstLine, afterFirstLine, hbyte]
    · have hfirst : firstLine (byte :: rest) = byte :: firstLine rest := by
        simp [firstLine, hbyte]
      have hafter : afterFirstLine (byte :: rest) = afterFirstLine rest := by
        simp [afterFirstLine, hbyte]
      rw [if_neg hbyte, hfirst, hafter]
      by_cases hrest : rest = []
      · rw [hrest]
        rfl
      · rw [ih hrest]

/-! ## Reading a piece -/

theorem readLine_of_decode? {bytes : List UInt8} {text : String} (hne : bytes ≠ [])
    (h : decode? (firstLine bytes) = some text) :
    readLine ⟨bytes, false⟩ = .ok (some (withoutLineBreak text)) ⟨afterFirstLine bytes, false⟩ := by
  simp [readLine, hne, h]

theorem readLine_of_invalid {bytes : List UInt8} (hne : bytes ≠ [])
    (h : decode? (firstLine bytes) = none) :
    readLine ⟨bytes, false⟩ = .error .invalidText ⟨afterFirstLine bytes, false⟩ := by
  simp [readLine, hne, h]

end LineSource

/-! ## Reads -/

namespace Terminal

/-- What a read answers for a piece of the input, and what behind the last piece. -/
inductive Answers : Option (List UInt8) → Answer → Prop
  /-- The piece stands for no text. -/
  | invalid {piece : List UInt8} (h : ∀ text, textBytes text ≠ piece) :
      Answers (some piece) (.error .invalidText)
  /-- The line is ended by a carriage return and a line break. -/
  | returned (line : String) :
      Answers (some (textBytes line ++ [carriageReturn, lineBreak])) (.ok (some line))
  /-- The line is ended by a line break alone. -/
  | ended {line : String} (h : line.toList.getLast? ≠ some '\r') :
      Answers (some (textBytes line ++ [lineBreak])) (.ok (some line))
  /-- The line is ended by the input, and is given whole. -/
  | unended {line : String} (h : lineBreak ∉ textBytes line) :
      Answers (some (textBytes line)) (.ok (some line))
  /-- There is no line. -/
  | over : Answers none (.ok none)

/-- A piece is answered with the text that it stands for, without what ends it. -/
theorem answers_of_decode? {piece : List UInt8} {text : String} (h : decode? piece = some text)
    (hended : piece.getLast? = some lineBreak ∨ lineBreak ∉ piece) :
    Answers (some piece) (.ok (some (withoutLineBreak text))) := by
  obtain rfl := decode?_eq_some_iff.mp h
  rcases withoutLineBreak_cases text with ⟨line, rfl, hline⟩ | ⟨line, rfl, hreturn, hline⟩ |
    ⟨hbreak, hline⟩
  · rw [hline, textBytes_append]
    exact .returned line
  · rw [hline, textBytes_append]
    exact .ended hreturn
  · rw [hline]
    exact .unended (hended.resolve_left fun hlast => hbreak (getLast?_of_textBytes hlast))

/-- The pieces that a terminal, which never fails to read, has not read. -/
structure Awaits (terminal : Terminal) (pieces : List (List UInt8)) : Prop where
  fails : terminal.input.fails = false
  pieces_eq : LineSource.pieces terminal.input.bytes = pieces

variable {terminal : Terminal} {pieces : List (List UInt8)}

/-- Whatever shows the line, it is given and taken off the input. -/
theorem exists_readLine_of_some {input rest : LineSource} {line : String}
    (h : LineSource.readLine input = .ok (some line) rest) (output : Output) :
    ∃ shown, readLine ⟨output, input⟩ = .ok (some line) ⟨shown, rest⟩ := by
  cases output with
  | stream sink => exact ⟨_, readLine_stream h sink⟩
  | captured lines pending =>
    cases hpending : pending.isEmpty with
    | true =>
      obtain rfl := String.isEmpty_iff.mp hpending
      exact ⟨_, readLine_captured_of_empty h lines⟩
    | false => exact ⟨_, readLine_captured_of_ne_empty h lines hpending⟩

/-- **A read answers for the first piece that is left**, and leaves the others. -/
theorem Awaits.read (h : Awaits terminal pieces) :
    Answers pieces.head? (Request.readLine.answer terminal) ∧
      Awaits (Request.readLine.after terminal) pieces.tail := by
  obtain ⟨output, bytes, fails⟩ := terminal
  obtain ⟨rfl, rfl⟩ := h
  by_cases hne : bytes = []
  · obtain ⟨hanswer, hafter⟩ := @Request.of_ok .readLine _ _ _
      (@readLine_of_none ⟨bytes, false⟩ ⟨bytes, false⟩ output (by rw [hne]; rfl))
    rw [hanswer, hafter, hne]
    exact ⟨.over, rfl, rfl⟩
  · have hfirst : LineSource.firstLine bytes ∈ LineSource.pieces bytes := by
      simp [LineSource.pieces_of_ne_nil hne]
    have hended := (LineSource.cut_pieces bytes).ended hfirst
    show Answers (LineSource.pieces bytes).head? _ ∧ _
    rw [LineSource.pieces_of_ne_nil hne]
    cases hdecode : decode? (LineSource.firstLine bytes) with
    | none =>
      obtain ⟨hanswer, hafter⟩ := @Request.of_error .readLine _ _ _
        (@readLine_of_error _ _ output _ (LineSource.readLine_of_invalid hne hdecode))
      rw [hanswer, hafter]
      exact ⟨.invalid (decode?_eq_none_iff.mp hdecode), rfl, rfl⟩
    | some text =>
      obtain ⟨shown, hread⟩ :=
        exists_readLine_of_some (LineSource.readLine_of_decode? hne hdecode) output
      obtain ⟨hanswer, hafter⟩ := @Request.of_ok .readLine _ _ _ hread
      rw [hanswer, hafter]
      exact ⟨answers_of_decode? hdecode hended, rfl, rfl⟩

theorem input_onScreen (change : Array String → String → Array String × String) (input : LineSource)
    (terminal : Terminal) (h : terminal.input = input) :
    (stateAfter (onScreen change) terminal).input = input := by
  obtain ⟨output, source⟩ := terminal
  cases output <;> exact h

theorem input_onSink (action : EStateM IoError Sink Unit) (input : LineSource)
    (terminal : Terminal) (h : terminal.input = input) :
    (stateAfter (onSink action) terminal).input = input := by
  obtain ⟨output, source⟩ := terminal
  cases output with
  | captured lines pending => exact h
  | stream sink =>
    cases hsink : action sink with
    | ok result after => simpa [stateAfter, onSink, hsink] using h
    | error error after => simpa [stateAfter, onSink, hsink] using h

/-- Nothing but a read touches the input, also if it fails. -/
theorem Request.input_after {request : Request} (h : request ≠ .readLine) (terminal : Terminal) :
    (request.after terminal).input = terminal.input := by
  have hpure (line? : Option String) (state : Terminal) (hstate : state.input = terminal.input) :
      (stateAfter (pure line? : EStateM IoError Terminal (Option String)) state).input =
        terminal.input := hstate
  cases request with
  | readLine => exact absurd rfl h
  | writeLine text =>
    exact stateAfter_bind (stateAfter_bind (input_onScreen _ _) fun _ => input_onSink _ _)
      (fun _ => hpure none) terminal rfl
  | writePrompt text =>
    exact stateAfter_bind (stateAfter_bind (input_onScreen _ _) fun _ => input_onSink _ _)
      (fun _ => hpure none) terminal rfl
  | flush => exact stateAfter_bind (input_onSink _ _) (fun _ => hpure none) terminal rfl

/-- **One request** uses up a piece if it is a read, and none otherwise. -/
theorem Awaits.after (h : Awaits terminal pieces) (request : Request) :
    Awaits (request.after terminal) (pieces.drop ([request].count .readLine)) := by
  by_cases hread : request = .readLine
  · simpa [hread] using h.read.2
  · have hinput := Request.input_after hread terminal
    have hnone : [request].count .readLine = 0 := by simp [hread]
    rw [hnone, List.drop_zero]
    exact ⟨hinput ▸ h.fails, hinput ▸ h.pieces_eq⟩

/-- **All requests** together use up as many pieces as there are reads among them. -/
theorem Awaits.afterAll (h : Awaits terminal pieces) (requests : List Request) :
    Awaits (afterAll requests terminal) (pieces.drop (requests.count .readLine)) := by
  induction requests generalizing terminal pieces with
  | nil => exact h
  | cons request rest ih =>
    have hcount : (request :: rest).count .readLine =
        [request].count .readLine + rest.count .readLine := by
      rw [← List.singleton_append, List.count_append]
    rw [hcount, ← List.drop_drop]
    exact ih (h.after request)

/-- **Reads answer for the pieces of the input one after the other.** The bytes of an input are cut
behind each line break. Let any requests be made of a terminal with this input, whatever it does
with what is written, and also if some of them fail; and let there be `k` reads among them. The next
read answers for the piece behind the first `k`: with an error if the piece is not valid, and
otherwise with the line that it stands for, without the line break that ends it and without one
carriage return before that. Behind the last piece it answers that there is no line. -/
theorem reads_answer_pieces (output : Output) (bytes : List UInt8) :
    LineSource.Cut bytes (LineSource.pieces bytes) ∧
      ∀ requests : List Request,
        Answers (LineSource.pieces bytes)[requests.count .readLine]?
          (Request.readLine.answer (Terminal.afterAll requests ⟨output, ⟨bytes, false⟩⟩)) := by
  refine ⟨LineSource.cut_pieces bytes, fun requests => ?_⟩
  have hstart : Awaits ⟨output, ⟨bytes, false⟩⟩ (LineSource.pieces bytes) := ⟨rfl, rfl⟩
  rw [← List.head?_drop]
  exact (hstart.afterAll requests).read.1

end Terminal

end Scriptlet
