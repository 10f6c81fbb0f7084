import Scriptlet.Proofs.Outcome
import Scriptlet.Session.Eval

/-!
# Stopping at a limit

A run has two limits: how many steps it may take, and how many calls may be open at once. Only
calls and steps run into them. Whatever is done without going into an expression, a statement or the
body of a function may fail, but never because of a limit.

## Main definitions

* `Stop.AtLimit` — a run stopped at one of its limits
* `Action.Brief` — an action that never does

## Main results

* `Action.brief_unary`, `Action.brief_binary`, `Action.brief_callNative`, `Action.brief_echo` — the
  actions out of which expressions and statements are made
-/

namespace Scriptlet

/-- A run stopped because it was given too few steps, or because too many calls were open. -/
def Stop.AtLimit : Stop → Prop
  | .exhausted => True
  | .fault raised => ∃ limit, raised.cause = .stackOverflow limit

namespace Action

variable {α β : Type}

/-- An action that never stops at a limit. -/
def Brief (action : Action α) : Prop :=
  ∀ ⦃before stop after⦄, action before = .error stop after → ¬ stop.AtLimit

theorem Brief.bind {action : Action α} {next : α → Action β} (h : Brief action)
    (hnext : ∀ result, Brief (next result)) : Brief (action >>= next) := by
  intro before stop after herror
  cases haction : action before with
  | ok result middle => exact hnext result ((bind_of_ok haction).symm.trans herror)
  | error stop' middle =>
    rw [bind_of_error haction] at herror
    cases herror
    exact h haction

theorem Brief.ite {action other : Action α} {condition : Prop} [Decidable condition]
    (h : Brief action) (hother : Brief other) : Brief (if condition then action else other) := by
  split
  · exact h
  · exact hother

/-! ## Single actions -/

theorem brief_pure (result : α) : Brief (pure result : Action α) := by
  rintro _ _ _ ⟨⟩

theorem brief_get : Brief (get : Action Session) := by
  rintro _ _ _ ⟨⟩

theorem brief_modify (change : Session → Session) : Brief (modify change : Action Unit) := by
  rintro _ _ _ ⟨⟩

theorem brief_makeFunction (declaration : FunctionDecl) : Brief (makeFunction declaration) := by
  rintro _ _ _ ⟨⟩

theorem brief_fault {cause : FaultCause} {location : Location}
    (h : ∀ limit, cause ≠ .stackOverflow limit) : Brief (fault cause location : Action α) := by
  rintro _ _ _ ⟨⟩ ⟨limit, hlimit⟩
  exact h limit hlimit

theorem brief_lookup (name : Token) : Brief (lookup name) := by
  refine brief_get.bind fun session => ?_
  split
  · exact brief_pure _
  · exact brief_fault nofun

theorem brief_onTerminal (location : Location) (action : EStateM IoError Terminal α) :
    Brief (onTerminal location action) := by
  intro session stop after herror
  unfold onTerminal at herror
  cases haction : action session.terminal with
  | ok result terminal =>
    rw [haction] at herror
    cases herror
  | error error terminal =>
    rw [haction] at herror
    cases herror
    exact nofun

theorem brief_onTerminalQuietly (action : EStateM IoError Terminal Unit) :
    Brief (onTerminalQuietly action) := by
  intro session stop after herror
  unfold onTerminalQuietly at herror
  cases haction : action session.terminal <;> (rw [haction] at herror; cases herror)

/-! ## Operators -/

theorem brief_ofExcept (location : Location) {result : Except FaultCause α}
    (h : ∀ cause limit, result = .error cause → cause ≠ .stackOverflow limit) :
    Brief (ofExcept location result) := by
  cases result with
  | ok result => exact brief_pure result
  | error cause => exact brief_fault fun limit => h cause limit rfl

theorem ne_stackOverflow_of_orOverflow {operation : String} {n? : Option Int64} {cause : FaultCause}
    (limit : Nat) (h : Value.orOverflow operation n? = .error cause) :
    cause ≠ .stackOverflow limit := by
  cases n? with
  | some n => cases h
  | none =>
    cases h
    exact nofun

theorem ne_stackOverflow_of_binaryInteger {operator : Token} {a b : Int64} {cause : FaultCause}
    (limit : Nat) (h : Value.binaryInteger operator a b = .error cause) :
    cause ≠ .stackOverflow limit := by
  unfold Value.binaryInteger at h
  split at h
  case h_4 =>
    split at h
    · cases h
      exact nofun
    · exact ne_stackOverflow_of_orOverflow limit h
  case h_1 | h_2 | h_3 => exact ne_stackOverflow_of_orOverflow limit h
  case h_9 =>
    cases h
    exact nofun
  all_goals cases h

theorem brief_binary (location : Location) (operator : Token) (a b : Value) :
    Brief (ofExcept location (Value.binary operator a b)) := by
  refine brief_ofExcept location fun cause limit h => ?_
  unfold Value.binary at h
  split at h
  · cases h
  · cases h
  · split at h
    · exact ne_stackOverflow_of_binaryInteger limit h
    · cases h
      exact nofun

theorem brief_unary (location : Location) (operator : Token) (operand : Value) :
    Brief (ofExcept location (Value.unary operator operand)) := by
  refine brief_ofExcept location fun cause limit h => ?_
  unfold Value.unary at h
  split at h
  · cases h
  · split at h
    · exact ne_stackOverflow_of_orOverflow limit h
    · cases h
      exact nofun
  · cases h
    exact nofun

/-! ## Around calls and scripts -/

theorem brief_callNative (location : Location) (native : Native) (arguments : List Value) :
    Brief (callNative location native arguments) := by
  cases native with
  | print => exact (brief_onTerminalQuietly _).bind fun _ => brief_pure _
  | input =>
    refine (brief_onTerminal _ _).bind fun _ => (brief_onTerminal _ _).bind fun line? => ?_
    cases line? with
    | some line => exact brief_pure _
    | none => exact brief_pure _

theorem brief_checkArity (location : Location) (name : String) (arity : Nat)
    (arguments : List Value) : Brief (checkArity location name arity arguments) :=
  .ite (brief_fault nofun) (brief_pure _)

theorem brief_echo (stmt : Stmt) : Brief (echo stmt) := by
  unfold echo
  split
  · exact brief_get.bind fun session => .ite (brief_onTerminal _ _) (brief_pure _)
  · exact brief_pure _

end Action

end Scriptlet
