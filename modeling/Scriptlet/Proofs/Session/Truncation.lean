import Scriptlet.Proofs.Session.Plan
import Scriptlet.Proofs.Session.Terminals
import Scriptlet.Proofs.Terminal.Closing

/-!
# Scripts that write to a sink that closes

A script is run once with a sink that takes everything and once with one that closes after a number
of bytes. Both runs go the same way up to the first text that does not fit and whose refusal is
noticed: the line of a print statement, a prompt, or the line that shows the value of a statement.
There the second run stops. If there is no such text, the second run comes to the same end. Either
way its sink got the first bytes of what the other sink got.

## Main definitions

* `Utterance.bytes`, `Utterance.place?` — what a text sends, and where its refusal is noticed
* `sentBy`, `refusal?` — what deeds send, and where they are first refused
* `Session.closing` — the same session, with a sink that closes
* `Truncates` — how an action ends if the sink closes

## Main results

* `Plan.delivers` — on a sink without a bound everything arrives
* `Plan.truncates` — what is planned ends alike unless it is refused
* `closed_sink_truncates` — scripts are truncated and nothing else
-/

namespace Scriptlet

/-! ## What is sent and what is refused -/

namespace Utterance

/-- The bytes that are sent: lines have a line break behind them, prompts have not. -/
def bytes : Utterance → List UInt8
  | statement _ text => textBytes (text ++ "\n")
  | native text => textBytes (text ++ "\n")
  | prompt _ text => textBytes text
  | echo text => textBytes (text ++ "\n")

/-- The place at which a refusal is reported. Nobody notices that of the function that prints. -/
def place? : Utterance → Option Location
  | statement location _ => some location
  | native _ => none
  | prompt location _ => some location
  | echo _ => some .unknown

end Utterance

namespace Deed

/-- The bytes that are sent. -/
def bytes : Deed → List UInt8
  | uttered utterance => utterance.bytes
  | _ => []

/-- Where it is reported that the bytes do not fit, given how many were sent before. -/
def refusal? (limit sent : Nat) : Deed → Option Location
  | uttered utterance => if Fits limit sent utterance.bytes then none else utterance.place?
  | _ => none

end Deed

/-- The bytes that deeds send one after the other. -/
def sentBy (deeds : List Deed) : List UInt8 := deeds.flatMap Deed.bytes

/-- Where it is first reported that something does not fit. -/
def refusal? (limit : Nat) : Nat → List Deed → Option Location
  | _, [] => none
  | sent, deed :: rest =>
    (deed.refusal? limit sent).or (refusal? limit (sent + deed.bytes.length) rest)

section Refusal

variable {limit sent : Nat} {deeds first second : List Deed} {place : Location}

@[simp] theorem sentBy_nil : sentBy [] = [] := rfl

@[simp] theorem sentBy_append (first second : List Deed) :
    sentBy (first ++ second) = sentBy first ++ sentBy second := List.flatMap_append

theorem refusal?_append (limit sent : Nat) (first second : List Deed) :
    refusal? limit sent (first ++ second) =
      (refusal? limit sent first).or
        (refusal? limit (sent + (sentBy first).length) second) := by
  induction first generalizing sent with
  | nil => rfl
  | cons deed rest ih =>
    simp only [List.cons_append, refusal?, ih, Option.or_assoc, sentBy, List.flatMap_cons,
      List.length_append, Nat.add_assoc]

theorem Deed.lt_of_refusal? {deed : Deed} (h : deed.refusal? limit sent = some place) :
    limit < sent + deed.bytes.length := by
  cases deed with
  | uttered utterance =>
    by_cases hfits : Fits limit sent utterance.bytes
    · simp [Deed.refusal?, hfits] at h
    · exact lt_of_not_fits hfits
  | completed completion value => cases h
  | fellThrough function value => cases h

/-- What is refused goes beyond the bound. -/
theorem lt_of_refusal? (h : refusal? limit sent deeds = some place) :
    limit < sent + (sentBy deeds).length := by
  induction deeds generalizing sent with
  | nil => cases h
  | cons deed rest ih =>
    have hlength : (sentBy (deed :: rest)).length = deed.bytes.length + (sentBy rest).length := by
      simp [sentBy]
    rcases Option.or_eq_some_iff.mp h with hdeed | ⟨-, hrest⟩
    · have := Deed.lt_of_refusal? hdeed
      omega
    · have := ih hrest
      omega

/-- What is refused first. -/
theorem exists_of_refusal? (h : refusal? limit sent deeds = some place) :
    ∃ earlier utterance later, deeds = earlier ++ .uttered utterance :: later ∧
      refusal? limit sent earlier = none ∧ utterance.place? = some place ∧
      ¬ Fits limit (sent + (sentBy earlier).length) utterance.bytes := by
  induction deeds generalizing sent with
  | nil => cases h
  | cons deed rest ih =>
    rcases Option.or_eq_some_iff.mp h with hdeed | ⟨hdeed, hrest⟩
    · cases deed with
      | uttered utterance =>
        by_cases hfits : Fits limit sent utterance.bytes
        · simp [Deed.refusal?, hfits] at hdeed
        · exact ⟨[], utterance, rest, rfl, rfl, by simpa [Deed.refusal?, hfits] using hdeed, hfits⟩
      | completed completion value => cases hdeed
      | fellThrough function value => cases hdeed
    · obtain ⟨earlier, utterance, later, rfl, hearlier, hplace, hfits⟩ := ih hrest
      refine ⟨deed :: earlier, utterance, later, rfl, ?_, hplace, ?_⟩
      · simp [refusal?, hdeed, hearlier]
      · rwa [sentBy, List.flatMap_cons, List.length_append, ← Nat.add_assoc]

/-- Every text fits whose refusal would be noticed. -/
def AllFit (limit sent : Nat) (deeds : List Deed) : Prop :=
  ∀ earlier utterance later, deeds = earlier ++ .uttered utterance :: later →
    utterance.place? = none ∨ Fits limit (sent + (sentBy earlier).length) utterance.bytes

theorem refusal?_eq_none_iff : refusal? limit sent deeds = none ↔ AllFit limit sent deeds := by
  constructor
  · rintro h earlier utterance later rfl
    rw [refusal?_append, Option.or_eq_none_iff] at h
    have hutterance := (Option.or_eq_none_iff.mp h.2).1
    by_cases hfits : Fits limit (sent + (sentBy earlier).length) utterance.bytes
    · exact .inr hfits
    · exact .inl (by simpa [Deed.refusal?, hfits] using hutterance)
  · intro h
    by_contra hsome
    obtain ⟨place, hplace⟩ := Option.ne_none_iff_exists'.mp hsome
    obtain ⟨earlier, utterance, later, hdeeds, -, hnoticed, hfits⟩ := exists_of_refusal? hplace
    rcases h earlier utterance later hdeeds with hnone | hfit
    · rw [hnone] at hnoticed
      cases hnoticed
    · exact hfits hfit

/-- The first text that does not fit and whose refusal is noticed is refused. -/
theorem refusal?_of_first {earlier later : List Deed} {utterance : Utterance}
    (hearlier : AllFit limit sent earlier) (hplace : utterance.place? = some place)
    (hfits : ¬ Fits limit (sent + (sentBy earlier).length) utterance.bytes) :
    refusal? limit sent (earlier ++ .uttered utterance :: later) = some place := by
  rw [refusal?_append, refusal?_eq_none_iff.mpr hearlier]
  simp [refusal?, Deed.refusal?, hfits, hplace]

end Refusal

/-! ## On a sink without a bound -/

/-- What deeds say about a sink without a bound: it got the bytes that they send. -/
def Delivers (before : Session) (deeds : List Deed) (after : Session) : Prop :=
  before.terminal.Endless →
    after.terminal.Endless ∧ after.terminal.sent = before.terminal.sent ++ sentBy deeds

namespace Action

variable {α : Type} {action : EStateM IoError Terminal α} {bytes : List UInt8} {session : Session}

theorem stateAfter_onTerminal (location : Location) (action : EStateM IoError Terminal α)
    (session : Session) :
    stateAfter (onTerminal location action) session =
      session.on (stateAfter action session.terminal) := by
  simp only [stateAfter, onTerminal]
  cases action session.terminal <;> rfl

theorem onTerminalQuietly_eq (action : EStateM IoError Terminal Unit) (session : Session) :
    onTerminalQuietly action session =
      .ok () (session.on (stateAfter action session.terminal)) := by
  simp only [stateAfter, onTerminalQuietly]
  cases action session.terminal <;> rfl

theorem delivers_onTerminal (h : Terminal.Sends action bytes) (location : Location)
    (hsession : session.terminal.Endless) :
    (stateAfter (onTerminal location action) session).terminal.Endless ∧
      (stateAfter (onTerminal location action) session).terminal.sent =
        session.terminal.sent ++ bytes := by
  rw [stateAfter_onTerminal]
  exact ⟨h.endless hsession, h.sent hsession⟩

end Action

theorem Utterance.delivers (utterance : Utterance) (session : Session) :
    Delivers session [.uttered utterance] (stateAfter utterance.send session) := by
  intro hsession
  rw [show sentBy [.uttered utterance] = utterance.bytes from List.append_nil _]
  cases utterance with
  | statement location text =>
    exact Action.delivers_onTerminal (Terminal.sends_writeLine text) location hsession
  | native text =>
    rw [stateAfter, send, Action.onTerminalQuietly_eq]
    exact ⟨(Terminal.sends_writeLine text).endless hsession,
      (Terminal.sends_writeLine text).sent hsession⟩
  | prompt location text =>
    exact Action.delivers_onTerminal (Terminal.sends_writePrompt text) location hsession
  | echo text =>
    exact Action.delivers_onTerminal (Terminal.sends_writeLine text) .unknown hsession

/-- Nothing was recorded and the terminal is the same. -/
theorem Delivers.nil {before after : Session} (h : after.terminal = before.terminal) :
    Delivers before [] after := by
  intro hbefore
  rw [h, sentBy_nil, List.append_nil]
  exact ⟨hbefore, rfl⟩

/-- A move sends the bytes of its deeds. -/
theorem Move.delivers {α : Type} (single : Move α) (session : Session) :
    Delivers session (single.deeds session) (stateAfter single.action session) := by
  cases single with
  | utter utterance => exact utterance.delivers session
  | read location => exact Action.delivers_onTerminal Terminal.sends_readLine location
  | flush => exact Action.delivers_onTerminal Terminal.sends_flush .unknown
  | lookup name => exact .nil (by rw [stateAfter_lookup])
  | checkDepth location => exact .nil (by rw [stateAfter_checkDepth])
  | checkCalled location => exact .nil (by rw [stateAfter_checkCalled])
  | complete completion value => exact fun h => ⟨h, (List.append_nil _).symm⟩
  | fallThrough function => exact fun h => ⟨h, (List.append_nil _).symm⟩
  | _ => exact .nil rfl

namespace Plan

/-- What is recorded of a run says what is sent. -/
theorem chronicle_delivers : Chronicle Delivers where
  refl session := .nil rfl
  trans h hnext hbefore := by
    obtain ⟨hmiddle, hsent⟩ := h hbefore
    obtain ⟨hafter, hmore⟩ := hnext hmiddle
    exact ⟨hafter, by rw [hmore, hsent, sentBy_append, List.append_assoc]⟩
  move := Move.delivers
  inside enclosure {_ _ _} h := by
    cases enclosure with
    | block => exact h
    | body function arguments => exact h

/-- **On a sink without a bound everything arrives**, whatever is planned. -/
theorem delivers {α : Type} (plan : Plan α) (session : Session) :
    Delivers session (plan.log session) (stateAfter plan.run session) :=
  chronicle_delivers.holds plan session

end Plan

/-! ## On a sink that closes -/

/-- The same session, with a bound if its terminal has a sink. -/
def Session.closing (limit : Nat) (session : Session) : Session :=
  session.on (session.terminal.closing limit)

/-- How an action with some deeds ends if the sink closes: in the same way if nothing is refused,
and otherwise where something first is. The sink has got the first bytes of what is sent. -/
structure Truncates {α : Type} (limit : Nat) (session : Session) (deeds : List Deed)
    (action : Action α) : Prop where
  same : refusal? limit session.terminal.sent.length deeds = none →
    action (session.closing limit) = onState (Session.closing limit) (action session)
  refused {place : Location} : refusal? limit session.terminal.sent.length deeds = some place →
    ∃ after, action (session.closing limit) = .error (.fault ⟨.io .closed, place⟩) after ∧
      after.terminal.sent = (session.terminal.sent ++ sentBy deeds).take limit

namespace Truncates

variable {α β : Type} {limit : Nat} {session : Session} {deeds : List Deed}

/-- Nothing is sent and the terminal does not matter. -/
theorem of_same {action : Action α}
    (h : action (session.closing limit) = onState (Session.closing limit) (action session))
    (hdeeds : refusal? limit session.terminal.sent.length deeds = none) :
    Truncates limit session deeds action where
  same _ := h
  refused hplace := by rw [hdeeds] at hplace; cases hplace

/-- Actions one behind the other. -/
theorem behind {action : Action α} {next : α → Plan β} (h : Truncates limit session deeds action)
    (hdelivers : Delivers session deeds (stateAfter action session))
    (hsession : session.terminal.Endless)
    (hnext : ∀ result middle, middle.terminal.Endless →
      Truncates limit middle ((next result).log middle) (next result).run) :
    Truncates limit session
      (deeds ++ Plan.logBehind (fun result => (next result).log) (action session))
      (action >>= fun result => (next result).run) := by
  obtain ⟨hendless, hsent⟩ := hdelivers hsession
  have hsplit := refusal?_append limit session.terminal.sent.length deeds
    (Plan.logBehind (fun result => (next result).log) (action session))
  cases hfirst : refusal? limit session.terminal.sent.length deeds with
  | some place =>
    -- The second action is not reached with the bound, and what it sends without one is behind it.
    obtain ⟨after, hclosed, hafter⟩ := h.refused hfirst
    rw [hfirst, Option.some_or] at hsplit
    refine ⟨fun hnone => ?_, fun {other} hother => ?_⟩
    · rw [hsplit] at hnone
      cases hnone
    · rw [hsplit] at hother
      cases hother
      have hbound : limit ≤ (session.terminal.sent ++ sentBy deeds).length := by
        rw [List.length_append]
        exact Nat.le_of_lt (lt_of_refusal? hfirst)
      refine ⟨after, bind_of_error hclosed, ?_⟩
      rw [hafter, sentBy_append, ← List.append_assoc, List.take_append_of_le_length hbound]
  | none =>
    have hsame := h.same hfirst
    rw [hfirst, Option.none_or, ← List.length_append, ← hsent] at hsplit
    cases haction : action session with
    | error reason middle =>
      rw [haction] at hsame hsplit
      refine .of_same ?_ hsplit
      rw [bind_of_error haction]
      exact bind_of_error hsame
    | ok result middle =>
      rw [haction] at hsame hsplit
      rw [stateAfter, haction] at hendless hsent hsplit
      obtain ⟨hsame', hrefused⟩ := hnext result middle hendless
      refine ⟨fun hnone => ?_, fun hplace => ?_⟩
      · rw [hsplit] at hnone
        rw [bind_of_ok haction]
        exact (bind_of_ok hsame).trans (hsame' hnone)
      · rw [hsplit] at hplace
        obtain ⟨after, hclosed, hafter⟩ := hrefused hplace
        refine ⟨after, (bind_of_ok hsame).trans hclosed, ?_⟩
        rw [hafter, sentBy_append, ← List.append_assoc, ← hsent]
        rfl

end Truncates

namespace Action

variable {α : Type} {action : EStateM IoError Terminal α} {bytes : List UInt8} {session : Session}
  {limit : Nat}

/-- What fits is sent alike. -/
theorem onTerminal_closing_of_fits (h : Terminal.Sends action bytes) (location : Location)
    (hsession : session.terminal.Endless) (hfits : Fits limit session.terminal.sent.length bytes) :
    onTerminal location action (session.closing limit) =
      onState (Session.closing limit) (onTerminal location action session) := by
  have hclosing : action (session.closing limit).terminal = _ := h.fits hsession hfits
  rw [onTerminal, onTerminal, hclosing]
  cases action session.terminal <;> rfl

/-- What does not fit is refused. -/
theorem onTerminal_closing_of_not_fits (h : Terminal.Sends action bytes) (location : Location)
    (hsession : session.terminal.Endless)
    (hfits : ¬ Fits limit session.terminal.sent.length bytes) :
    onTerminal location action (session.closing limit) =
      .error (.fault ⟨.io .closed, location⟩)
        ((stateAfter (onTerminal location action) session).closing limit) := by
  have hclosing : action (session.closing limit).terminal = _ := h.refused hsession hfits
  rw [stateAfter_onTerminal, onTerminal, hclosing]
  rfl

/-- Nobody notices whether something fits. -/
theorem onTerminalQuietly_closing {action : EStateM IoError Terminal Unit}
    (h : Terminal.Sends action bytes) (limit : Nat) (hsession : session.terminal.Endless) :
    onTerminalQuietly action (session.closing limit) =
      onState (Session.closing limit) (onTerminalQuietly action session) := by
  have hclosing : stateAfter action (session.closing limit).terminal = _ :=
    h.stateAfter_closing hsession limit
  rw [onTerminalQuietly_eq, onTerminalQuietly_eq, hclosing]
  rfl

end Action

/-- A text whose refusal is noticed. -/
theorem truncates_onTerminal {limit : Nat} {session : Session}
    {action : EStateM IoError Terminal Unit} {utterance : Utterance} {location : Location}
    (h : Terminal.Sends action utterance.bytes) (hplace : utterance.place? = some location)
    (hsession : session.terminal.Endless) :
    Truncates limit session [.uttered utterance] (Action.onTerminal location action) := by
  by_cases hfits : Fits limit session.terminal.sent.length utterance.bytes
  · refine .of_same (Action.onTerminal_closing_of_fits h location hsession hfits) ?_
    simp [refusal?, Deed.refusal?, hfits]
  · have hrefusal : refusal? limit session.terminal.sent.length [.uttered utterance] =
        some location := by
      simp [refusal?, Deed.refusal?, hfits, hplace]
    refine ⟨fun hnone => ?_, fun hsome => ?_⟩
    · rw [hrefusal] at hnone
      cases hnone
    · rw [hrefusal] at hsome
      cases hsome
      obtain ⟨hendless, hsent⟩ := Action.delivers_onTerminal h location hsession
      refine ⟨_, Action.onTerminal_closing_of_not_fits h location hsession hfits, ?_⟩
      refine (hendless.sent_closing limit).trans ?_
      rw [hsent, sentBy, List.flatMap_singleton]
      rfl

theorem Utterance.truncates (utterance : Utterance) {limit : Nat} {session : Session}
    (hsession : session.terminal.Endless) :
    Truncates limit session [.uttered utterance] utterance.send := by
  cases utterance with
  | statement location text =>
    exact truncates_onTerminal (Terminal.sends_writeLine text) rfl hsession
  | native text =>
    refine .of_same
      (Action.onTerminalQuietly_closing (Terminal.sends_writeLine text) limit hsession) ?_
    simp [refusal?, Deed.refusal?, place?]
  | prompt location text =>
    exact truncates_onTerminal (Terminal.sends_writePrompt text) rfl hsession
  | echo text => exact truncates_onTerminal (Terminal.sends_writeLine text) rfl hsession

/-- A move is truncated like its deeds. -/
theorem Move.truncates {α : Type} (single : Move α) {limit : Nat} {session : Session}
    (hsession : session.terminal.Endless) :
    Truncates limit session (single.deeds session) single.action := by
  cases single with
  | utter utterance => exact utterance.truncates hsession
  | read location =>
    have hread := Action.onTerminal_closing_of_fits Terminal.sends_readLine location hsession
      (fits_nil limit _)
    exact .of_same hread rfl
  | flush =>
    have hflush := Action.onTerminal_closing_of_fits Terminal.sends_flush .unknown hsession
      (fits_nil limit _)
    exact .of_same hflush rfl
  | lookup name =>
    refine .of_same ?_ rfl
    cases h : session.store.get? session.scope name.lexeme with
    | some value =>
      rw [lookup_of_some h]
      exact lookup_of_some h
    | none =>
      rw [lookup_of_none h]
      exact lookup_of_none h
  | checkDepth location =>
    refine .of_same ?_ rfl
    rcases Nat.lt_or_ge session.callDepth session.options.maxCallDepth with h | h
    · rw [checkDepth_of_lt h]
      exact checkDepth_of_lt h
    · rw [checkDepth_of_le h]
      exact checkDepth_of_le h
  | checkCalled location =>
    refine .of_same ?_ rfl
    by_cases h : session.callDepth = 0
    · rw [checkCalled_of_eq h]
      exact checkCalled_of_eq h
    · rw [checkCalled_of_ne h]
      exact checkCalled_of_ne h
  | _ => exact .of_same rfl rfl

namespace Plan

/-- Blocks and bodies are truncated like the statements in them. -/
theorem truncates_around {α : Type} (enclosure : Enclosure) {limit : Nat} {session : Session}
    {deeds : List Deed} {action : Action α}
    (h : Truncates limit (enclosure.start session) deeds action) :
    Truncates limit session deeds (enclosure.around action) := by
  have hterminal : (enclosure.start session).terminal = session.terminal := by
    cases enclosure <;> rfl
  have hclosing : enclosure.around action (session.closing limit) =
      onState (enclosure.leave (session.closing limit))
        (action ((enclosure.start session).closing limit)) := by
    cases enclosure <;> rfl
  refine ⟨fun hnone => ?_, fun hplace => ?_⟩
  · rw [← hterminal] at hnone
    rw [hclosing, h.same hnone, Enclosure.around]
    cases action (enclosure.start session) <;> cases enclosure <;> rfl
  · rw [← hterminal] at hplace
    obtain ⟨after, hclosed, hafter⟩ := h.refused hplace
    refine ⟨enclosure.leave (session.closing limit) after, by rw [hclosing, hclosed]; rfl, ?_⟩
    rw [hterminal] at hafter
    rw [← hafter]
    cases enclosure <;> rfl

/-- **What is planned is truncated and nothing else.** -/
theorem truncates {α : Type} (plan : Plan α) {limit : Nat} {session : Session}
    (hsession : session.terminal.Endless) :
    Truncates limit session (plan.log session) plan.run := by
  induction plan generalizing session with
  | done result => exact .of_same rfl rfl
  | stop reason => exact .of_same rfl rfl
  | move single next ih =>
    exact (single.truncates hsession).behind (single.delivers session) hsession
      fun result middle => ih result
  | inside enclosure body next ihbody ih =>
    have hstart : (enclosure.start session).terminal.Endless := by
      cases enclosure <;> exact hsession
    exact (truncates_around enclosure (ihbody hstart)).behind
      (chronicle_delivers.around enclosure (body.delivers _)) hsession
      fun result middle => ih result

end Plan

/-! ## Scripts -/

/-- A script is truncated and nothing else. -/
theorem Action.truncates_interpret (steps : Nat) (statements : List Stmt) {limit : Nat}
    {session : Session} (hsession : session.terminal.Endless) :
    Truncates limit session ((Plan.interpret steps statements).log session)
      (Action.interpret steps statements) := by
  rw [← Plan.run_interpret]
  exact (Plan.interpret steps statements).truncates hsession

theorem Session.RunResult.after_onState (change : Session → Session) (result : RunResult) :
    after (onState change result) = change (after result) := by
  cases result <;> rfl

theorem Session.RunResult.answer_onState (change : Session → Session) (result : RunResult) :
    answer (onState change result) = answer result := by
  cases result <;> rfl

theorem Session.RunResult.finish_onState (noted : List ParseError) (change : Session → Session)
    (outcome : EStateM.Result Stop Session Unit) :
    finish noted (onState change outcome) = onState change (finish noted outcome) := by
  cases outcome <;> rfl

namespace Session

variable {steps limit : Nat} {source : String} {session : Session}

/-- On a sink without a bound everything arrives. -/
theorem run_delivers (steps : Nat) (source : String) (hsession : session.terminal.Endless) :
    (RunResult.after (run steps source session)).terminal.Endless ∧
      (RunResult.after (run steps source session)).terminal.sent =
        session.terminal.sent ++ sentBy ((Activity.run source).deeds steps session) := by
  have hrun : RunResult.after (run steps source session) =
      (Activity.run source).after steps session := by
    rw [Activity.after, stateAfter]
    cases run steps source session <;> rfl
  rw [hrun]
  exact Plan.chronicle_delivers.after steps (.run source) session hsession

/-- A run in which nothing is refused is the same. -/
theorem run_closing_of_fit (hsession : session.terminal.Endless)
    (h : AllFit limit session.terminal.sent.length ((Activity.run source).deeds steps session)) :
    run steps source (session.closing limit) =
      onState (Session.closing limit) (run steps source session) := by
  rcases run_cases steps source with ⟨-, error, hrun⟩ | ⟨statements, noted, hscript, hrun⟩
  · rw [hrun, hrun]
    rfl
  · simp only [Activity.deeds, Activity.logOf, hscript, Option.elim_some] at h
    rw [hrun, hrun, (Action.truncates_interpret steps statements hsession).same
      (refusal?_eq_none_iff.mpr h), RunResult.finish_onState]

/-- A run in which something is refused stops there. -/
theorem run_closing_of_refusal (hsession : session.terminal.Endless) {place : Location}
    (h : refusal? limit session.terminal.sent.length ((Activity.run source).deeds steps session) =
      some place) :
    ∃ after, run steps source (session.closing limit) =
        .error (.stop (.fault ⟨.io .closed, place⟩)) after ∧
      after.terminal.sent = (session.terminal.sent ++
        sentBy ((Activity.run source).deeds steps session)).take limit := by
  rcases run_cases steps source with ⟨hscript, -⟩ | ⟨statements, noted, hscript, hrun⟩
  · simp only [Activity.deeds, Activity.logOf, hscript] at h
    cases h
  · simp only [Activity.deeds, Activity.logOf, hscript, Option.elim_some] at h ⊢
    obtain ⟨after, hclosed, hafter⟩ :=
      (Action.truncates_interpret steps statements hsession).refused h
    refine ⟨after, ?_, hafter⟩
    rw [hrun, hclosed]
    rfl

end Session

/-- **A sink that closes truncates what is written and does nothing else.** Let a script be run on
a sink that takes everything, and on one that takes a number of bytes in all. With the same number
of steps the first sink gets the bytes of all texts that are written, one after the other, and the
second one the first of them, up to its bound. The second run comes to the same end as the first, or
stops because its sink is closed. It comes to the same end if each text fits that a print statement,
a prompt or the display of a value writes; and at the first of these that does not fit, it stops.
Whether the lines fit that the function that prints writes does not matter. -/
theorem closed_sink_truncates (limit : Nat) (written : Array UInt8) (flushFails : Bool)
    (input : LineSource) (session : Session) (steps : Nat) (source : String) :
    let endless := session.on ⟨.stream ⟨written, none, flushFails⟩, input⟩
    let closing := session.on ⟨.stream ⟨written.take limit, some limit, flushFails⟩, input⟩
    let deeds := (Activity.run source).deeds steps endless
    let result := Session.run steps source endless
    let result' := Session.run steps source closing
    (Session.RunResult.after result).terminal.sent = written.toList ++ sentBy deeds ∧
    (Session.RunResult.after result').terminal.sent =
      (Session.RunResult.after result).terminal.sent.take limit ∧
    (Session.RunResult.answer result' = Session.RunResult.answer result ∨
      ∃ place, Session.RunResult.answer result' =
        .error (.stop (.fault ⟨.io .closed, place⟩))) ∧
    (AllFit limit written.size deeds → result' = onState (Session.closing limit) result) ∧
    ∀ earlier utterance later place, deeds = earlier ++ .uttered utterance :: later →
      AllFit limit written.size earlier → utterance.place? = some place →
      ¬ Fits limit (written.size + (sentBy earlier).length) utterance.bytes →
      Session.RunResult.answer result' = .error (.stop (.fault ⟨.io .closed, place⟩)) := by
  intro endless closing deeds result result'
  have hendless : endless.terminal.Endless := .stream _ input rfl
  have hlength : endless.terminal.sent.length = written.size := written.length_toList
  obtain ⟨hafter, hsent⟩ := Session.run_delivers steps source hendless
  -- Either nothing is refused or there is something that is refused first.
  have hends : (Session.RunResult.after result').terminal.sent =
        (Session.RunResult.after result).terminal.sent.take limit ∧
      (Session.RunResult.answer result' = Session.RunResult.answer result ∨
        ∃ place, Session.RunResult.answer result' =
          .error (.stop (.fault ⟨.io .closed, place⟩))) := by
    cases hrefusal : refusal? limit endless.terminal.sent.length deeds with
    | none =>
      have hsame : result' = onState (Session.closing limit) result :=
        Session.run_closing_of_fit hendless (refusal?_eq_none_iff.mp hrefusal)
      rw [hsame, Session.RunResult.after_onState, Session.RunResult.answer_onState]
      exact ⟨hafter.sent_closing limit, .inl rfl⟩
    | some place =>
      obtain ⟨after, hclosed, hbytes⟩ := Session.run_closing_of_refusal hendless hrefusal
      have hresult : result' = .error (.stop (.fault ⟨.io .closed, place⟩)) after := hclosed
      rw [hresult, hsent, ← hbytes]
      exact ⟨rfl, .inr ⟨place, rfl⟩⟩
  refine ⟨hsent, hends.1, hends.2, fun hfit => ?_, fun earlier utterance later place hdeeds hearlier
    hplace hfits => ?_⟩
  · rw [← hlength] at hfit
    exact Session.run_closing_of_fit hendless hfit
  · rw [← hlength] at hearlier hfits
    have hrefusal : refusal? limit endless.terminal.sent.length deeds = some place := by
      rw [hdeeds]
      exact refusal?_of_first hearlier hplace hfits
    obtain ⟨after, hclosed, -⟩ := Session.run_closing_of_refusal hendless hrefusal
    exact congrArg Session.RunResult.answer hclosed

namespace Sample

/-- Prints a line by a call and another one by a statement. -/
def saying : String := "say = print; say(\"abc\"); print 2 + 3"

/-- A session in which nothing was run, with a sink. -/
def saidTo (sink : Sink) : Session := (Session.start {} {}).on ⟨.stream sink, {}⟩

/-- Nobody notices that the line of the call does not fit, but the statement is refused. -/
theorem saying_truncated :
    (Session.RunResult.after (Session.run 20 saying (saidTo {}))).terminal.sent =
        textBytes "abc\n5\n" ∧
      (Session.RunResult.after (Session.run 20 saying
        (saidTo ⟨Array.take #[] 3, some 3, false⟩))).terminal.sent =
        (Session.RunResult.after (Session.run 20 saying (saidTo {}))).terminal.sent.take 3 ∧
      Session.RunResult.answer (Session.run 20 saying
        (saidTo ⟨Array.take #[] 3, some 3, false⟩)) =
        .error (.stop (.fault ⟨.io .closed, ⟨1, 34⟩⟩)) := by
  have hrefusal : refusal? 3 0 ((Activity.run saying).deeds 20 (saidTo {})) = some ⟨1, 34⟩ := by
    decide +kernel
  obtain ⟨earlier, utterance, later, hdeeds, hearlier, hplace, hfits⟩ := exists_of_refusal? hrefusal
  obtain ⟨-, htake, -, -, hrefused⟩ :=
    closed_sink_truncates 3 #[] false {} (Session.start {} {}) 20 saying
  exact ⟨by decide +kernel, htake, hrefused earlier utterance later ⟨1, 34⟩ hdeeds
    (refusal?_eq_none_iff.mp hearlier) hplace hfits⟩

end Sample

end Scriptlet
