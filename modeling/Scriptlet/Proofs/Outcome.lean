/-!
# How an action ends

An action changes a state and gives a result, or stops with an error; the state survives in both
cases. Two actions in sequence are taken apart into the first and, from where it ended, the second.

## Main definitions

* `stateAfter` — the state in which an action ends
* `onState` — the same outcome, in another state
* `error?` — the error that an action ends with

## Main results

* `bind_of_ok`, `bind_of_error`, `ok_of_bind`, `stateAfter_bind` — actions one behind the other
-/

namespace Scriptlet

variable {ε σ α β : Type} {action : EStateM ε σ α} {next : α → EStateM ε σ β}
variable {before middle after : σ}

/-- The state in which an action ends, with a result or without. -/
def stateAfter (action : EStateM ε σ α) (before : σ) : σ :=
  match action before with
  | .ok _ after => after
  | .error _ after => after

/-- The same outcome, with the state that is left behind changed. -/
def onState (change : σ → σ) : EStateM.Result ε σ α → EStateM.Result ε σ α
  | .ok result after => .ok result (change after)
  | .error error after => .error error (change after)

/-- The error of an outcome. -/
def error? : EStateM.Result ε σ α → Option ε
  | .ok _ _ => none
  | .error error _ => some error

theorem exists_of_error? {outcome : EStateM.Result ε σ α} {error : ε}
    (h : error? outcome = some error) : ∃ after, outcome = .error error after := by
  cases outcome with
  | ok result after => cases h
  | error error after =>
    cases h
    exact ⟨after, rfl⟩

theorem ok_of_onState {change : σ → σ} {outcome : EStateM.Result ε σ α} {result : α}
    (h : onState change outcome = .ok result after) :
    ∃ inner, outcome = .ok result inner ∧ after = change inner := by
  cases outcome with
  | ok result inner =>
    cases h
    exact ⟨inner, rfl, rfl⟩
  | error error inner => cases h

theorem error_of_onState {change : σ → σ} {outcome : EStateM.Result ε σ α} {error : ε}
    (h : onState change outcome = .error error after) :
    ∃ inner, outcome = .error error inner ∧ after = change inner := by
  cases outcome with
  | ok result inner => cases h
  | error error inner =>
    cases h
    exact ⟨inner, rfl, rfl⟩

theorem bind_of_ok {result : α} (h : action before = .ok result middle) :
    (action >>= next) before = next result middle := by
  change EStateM.bind action next before = next result middle
  rw [EStateM.bind, h]

theorem bind_of_error {error : ε} (h : action before = .error error middle) :
    (action >>= next) before = .error error middle := by
  change EStateM.bind action next before = .error error middle
  rw [EStateM.bind, h]

/-- What two actions keep they keep one behind the other. -/
theorem stateAfter_bind {P : σ → Prop} (h : ∀ state, P state → P (stateAfter action state))
    (hnext : ∀ result state, P state → P (stateAfter (next result) state)) :
    ∀ state, P state → P (stateAfter (action >>= next) state) := by
  intro before hbefore
  have hmiddle := h before hbefore
  unfold stateAfter at hmiddle ⊢
  cases haction : action before with
  | ok result middle =>
    rw [haction] at hmiddle
    rw [bind_of_ok haction]
    exact hnext result middle hmiddle
  | error error middle =>
    rw [haction] at hmiddle
    rw [bind_of_error haction]
    exact hmiddle

/-- Two actions give a result if the first does and the second does behind it. -/
theorem ok_of_bind {result : β} (h : (action >>= next) before = .ok result after) :
    ∃ first middle, action before = .ok first middle ∧ next first middle = .ok result after := by
  cases haction : action before with
  | ok first middle => exact ⟨first, middle, rfl, (bind_of_ok haction).symm.trans h⟩
  | error error middle => rw [bind_of_error haction] at h; cases h

end Scriptlet
