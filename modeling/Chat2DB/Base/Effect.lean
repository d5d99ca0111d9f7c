import Mathlib

/-! # Programs that fail and change a state

A program returns a value or an error, and a new state in either case. A triple
says what holds of the state when it returns and when it fails.
-/

def Effect (σ ε α : Type) : Type := σ → Except ε α × σ

namespace Effect

variable {σ ε δ α β : Type}

protected def pure (value : α) : Effect σ ε α := fun state => (.ok value, state)

protected def bind (first : Effect σ ε α) (next : α → Effect σ ε β) : Effect σ ε β := fun state =>
  match first state with
  | (.ok value, after) => next value after
  | (.error error, after) => (.error error, after)

instance : Monad (Effect σ ε) where
  pure := Effect.pure
  bind := Effect.bind

def fail (error : ε) : Effect σ ε α := fun state => (.error error, state)

def update (change : σ → σ) : Effect σ ε Unit := fun state => (.ok (), change state)

def ofExcept (result : Except ε α) : Effect σ ε α := fun state => (result, state)

def mapError (wrap : ε → δ) (program : Effect σ ε α) : Effect σ δ α := fun state =>
  match program state with
  | (.ok value, after) => (.ok value, after)
  | (.error error, after) => (.error (wrap error), after)

/-- Run a program and hand its result on as a value. -/
def attempt (program : Effect σ ε α) : Effect σ δ (Except ε α) := fun state =>
  (.ok (program state).1, (program state).2)

theorem bind_of_ok {first : Effect σ ε α} {next : α → Effect σ ε β} {state after : σ} {value : α}
    (hfirst : first state = (.ok value, after)) : (first >>= next) state = next value after := by
  change Effect.bind first next state = next value after
  simp [Effect.bind, hfirst]

theorem bind_of_error {first : Effect σ ε α} {next : α → Effect σ ε β} {state after : σ} {error : ε}
    (hfirst : first state = (.error error, after)) :
    (first >>= next) state = (.error error, after) := by
  change Effect.bind first next state = (.error error, after)
  simp [Effect.bind, hfirst]

/-- From `before`, the program returns in `returned` or fails in `failed`. -/
def Triple (before : σ → Prop) (program : Effect σ ε α) (returned : α → σ → Prop)
    (failed : ε → σ → Prop) : Prop :=
  ∀ state, before state →
    match program state with
    | (.ok value, after) => returned value after
    | (.error error, after) => failed error after

namespace Triple

variable {before : σ → Prop} {program : Effect σ ε α} {returned : α → σ → Prop}
  {failed : ε → σ → Prop}

/-- The two ends of a run. -/
theorem ends (hprogram : Triple before program returned failed) {state : σ} (hstate : before state) :
    (∃ value after, program state = (.ok value, after) ∧ returned value after) ∨
      ∃ error after, program state = (.error error, after) ∧ failed error after := by
  have hresult := hprogram state hstate
  split at hresult
  · rename_i value after heq
    exact .inl ⟨value, after, heq, hresult⟩
  · rename_i error after heq
    exact .inr ⟨error, after, heq, hresult⟩

theorem of_pure {value : α} (hreturned : ∀ state, before state → returned value state) :
    Triple before (pure value : Effect σ ε α) returned failed :=
  hreturned

theorem of_fail {error : ε} (hfailed : ∀ state, before state → failed error state) :
    Triple before (fail error : Effect σ ε α) returned failed :=
  hfailed

theorem of_update {change : σ → σ} {returned : Unit → σ → Prop}
    (hreturned : ∀ state, before state → returned () (change state)) :
    Triple before (update change : Effect σ ε Unit) returned failed :=
  hreturned

theorem of_ofExcept {result : Except ε α}
    (hfailed : ∀ error state, before state → failed error state) :
    Triple before (ofExcept result : Effect σ ε α)
      (fun value state => before state ∧ result = .ok value) failed := by
  intro state hstate
  cases hresult : result with
  | ok value => exact ⟨hstate, rfl⟩
  | error error => exact hfailed error state hstate

/-- One program after another; the second starts where the first returned. -/
theorem bind {next : α → Effect σ ε β} {middle : α → σ → Prop} {returned : β → σ → Prop}
    (hfirst : Triple before program middle failed)
    (hnext : ∀ value, Triple (middle value) (next value) returned failed) :
    Triple before (program >>= next) returned failed := by
  intro state hstate
  have hprogram := hfirst state hstate
  change match Effect.bind program next state with
    | (.ok value, after) => returned value after
    | (.error error, after) => failed error after
  unfold Effect.bind
  split at hprogram
  · rename_i value after heq
    exact hnext value after hprogram
  · rename_i error after heq
    exact hprogram

theorem mapError {wrap : ε → δ} {failed : δ → σ → Prop}
    (hprogram : Triple before program returned fun error => failed (wrap error)) :
    Triple before (program.mapError wrap) returned failed := by
  intro state hstate
  have hresult := hprogram state hstate
  unfold Effect.mapError
  split at hresult
  · rename_i value after heq
    exact hresult
  · rename_i error after heq
    exact hresult

theorem attempt {failed' : δ → σ → Prop} (hprogram : Triple before program returned failed) :
    Triple before (program.attempt : Effect σ δ (Except ε α))
      (fun result state =>
        match result with
        | .ok value => returned value state
        | .error error => failed error state) failed' := by
  intro state hstate
  have hresult := hprogram state hstate
  unfold Effect.attempt
  split at hresult
  · rename_i value after heq
    simp only [heq]
    exact hresult
  · rename_i error after heq
    simp only [heq]
    exact hresult

/-- What is known beforehand and is not about the state. -/
theorem of_fact {fact : Prop} (hprogram : fact → Triple before program returned failed) :
    Triple (fun state => fact ∧ before state) program returned failed :=
  fun state hstate => hprogram hstate.1 state hstate.2

/-- Start from more. -/
theorem strengthen {stronger : σ → Prop} (hprogram : Triple before program returned failed)
    (hbefore : ∀ state, stronger state → before state) :
    Triple stronger program returned failed :=
  fun state hstate => hprogram state (hbefore state hstate)

/-- Promise less. -/
theorem weaken {weaker : α → σ → Prop} {failed' : ε → σ → Prop}
    (hprogram : Triple before program returned failed)
    (hreturned : ∀ value state, returned value state → weaker value state)
    (hfailed : ∀ error state, failed error state → failed' error state) :
    Triple before program weaker failed' := by
  intro state hstate
  have hresult := hprogram state hstate
  split at hresult
  · rename_i value after heq
    exact hreturned value after hresult
  · rename_i error after heq
    exact hfailed error after hresult

theorem weaken_failed {failed' : ε → σ → Prop} (hprogram : Triple before program returned failed)
    (hfailed : ∀ error state, failed error state → failed' error state) :
    Triple before program returned failed' :=
  hprogram.weaken (fun _ _ hreturned => hreturned) hfailed

end Triple

end Effect
