import Mathlib

/-! # Programs that a crash may cut short

A program changes the state by primitive steps only and returns a value or an
error. It may stop for good after any of its steps, so what holds of it has a
third part beside its two ends: what holds of every state on the way.
-/

/-- Primitive steps of a state. -/
class Primitive (σ π : Type) where
  apply : σ → π → σ

/-- What a program returns and the primitive steps that it takes. -/
def Stepwise (σ π ε α : Type) : Type := σ → Except ε α × List π

namespace Stepwise

variable {σ π ε δ α β : Type} [Primitive σ π]

/-- The state after the steps. -/
def after (state : σ) (steps : List π) : σ := steps.foldl Primitive.apply state

@[simp] theorem after_nil (state : σ) : after state ([] : List π) = state := rfl

@[simp] theorem after_cons (state : σ) (step : π) (steps : List π) :
    after state (step :: steps) = after (Primitive.apply state step) steps := rfl

@[simp] theorem after_append (state : σ) (first second : List π) :
    after state (first ++ second) = after (after state first) second :=
  List.foldl_append

protected def pure (value : α) : Stepwise σ π ε α := fun _ => (.ok value, [])

protected def bind (first : Stepwise σ π ε α) (next : α → Stepwise σ π ε β) :
    Stepwise σ π ε β := fun state =>
  match first state with
  | (.ok value, steps) =>
    ((next value (after state steps)).1, steps ++ (next value (after state steps)).2)
  | (.error error, steps) => (.error error, steps)

instance : Monad (Stepwise σ π ε) where
  pure := Stepwise.pure
  bind := Stepwise.bind

def fail (error : ε) : Stepwise σ π ε α := fun _ => (.error error, [])

/-- Look at the state. -/
def read (view : σ → α) : Stepwise σ π ε α := fun state => (.ok (view state), [])

def perform (step : π) : Stepwise σ π ε Unit := fun _ => (.ok (), [step])

def ofExcept (result : Except ε α) : Stepwise σ π ε α := fun _ => (result, [])

/-- Run a program and hand its result on as a value. -/
def attempt (program : Stepwise σ π ε α) : Stepwise σ π δ (Except ε α) := fun state =>
  (.ok (program state).1, (program state).2)

/-- Run the body once for each member of a list. -/
def fold (body : β → α → Stepwise σ π ε β) : List α → β → Stepwise σ π ε β
  | [], value => pure value
  | member :: rest, value => do
    let next ← body value member
    fold body rest next

/-- The result of a program and the state in which it ends. -/
def run (program : Stepwise σ π ε α) (state : σ) : Except ε α × σ :=
  ((program state).1, after state (program state).2)

/-! ## Runs -/

theorem bind_of_ok {first : Stepwise σ π ε α} {next : α → Stepwise σ π ε β} {state : σ}
    {value : α} {steps : List π} (hfirst : first state = (.ok value, steps)) :
    (first >>= next) state =
      ((next value (after state steps)).1, steps ++ (next value (after state steps)).2) := by
  change Stepwise.bind first next state = _
  simp only [Stepwise.bind, hfirst]

theorem bind_of_error {first : Stepwise σ π ε α} {next : α → Stepwise σ π ε β} {state : σ}
    {error : ε} {steps : List π} (hfirst : first state = (.error error, steps)) :
    (first >>= next) state = (.error error, steps) := by
  change Stepwise.bind first next state = _
  simp only [Stepwise.bind, hfirst]

@[simp] theorem run_pure (value : α) (state : σ) :
    run (pure value : Stepwise σ π ε α) state = (.ok value, state) := rfl

@[simp] theorem run_fail (error : ε) (state : σ) :
    run (fail error : Stepwise σ π ε α) state = (.error error, state) := rfl

@[simp] theorem run_read (view : σ → α) (state : σ) :
    run (read view : Stepwise σ π ε α) state = (.ok (view state), state) := rfl

@[simp] theorem run_perform (step : π) (state : σ) :
    run (perform step : Stepwise σ π ε Unit) state = (.ok (), Primitive.apply state step) := rfl

@[simp] theorem run_ofExcept (result : Except ε α) (state : σ) :
    run (ofExcept result : Stepwise σ π ε α) state = (result, state) := rfl

theorem run_bind_of_ok {first : Stepwise σ π ε α} {next : α → Stepwise σ π ε β}
    {state middle : σ} {value : α} (hfirst : run first state = (.ok value, middle)) :
    run (first >>= next) state = run (next value) middle := by
  obtain ⟨hvalue, hmiddle⟩ := Prod.mk.inj hfirst
  have heq : first state = (.ok value, (first state).2) := by rw [← hvalue]
  unfold run
  rw [bind_of_ok heq, after_append, hmiddle]

/-- An attempt always goes on, with the result of the program. -/
theorem run_attempt_bind {program : Stepwise σ π ε α} {next : Except ε α → Stepwise σ π δ β}
    {state : σ} :
    run (attempt program >>= next) state = run (next (run program state).1) (run program state).2 :=
  run_bind_of_ok rfl

/-! ## Triples with crashes -/

/-- From `before`, the program returns in `returned` or fails in `failed`, and every state on the
way is in `crashed`. -/
def Triple (before : σ → Prop) (program : Stepwise σ π ε α) (returned : α → σ → Prop)
    (failed : ε → σ → Prop) (crashed : σ → Prop) : Prop :=
  ∀ state, before state →
    (∀ count, crashed (after state ((program state).2.take count))) ∧
      match run program state with
      | (.ok value, last) => returned value last
      | (.error error, last) => failed error last

namespace Triple

variable {before : σ → Prop} {program : Stepwise σ π ε α} {returned : α → σ → Prop}
  {failed : ε → σ → Prop} {crashed : σ → Prop}

/-- The two ends of a run. -/
theorem ends (hprogram : Triple before program returned failed crashed) {state : σ}
    (hstate : before state) :
    (∃ value last, run program state = (.ok value, last) ∧ returned value last) ∨
      ∃ error last, run program state = (.error error, last) ∧ failed error last := by
  have hresult := (hprogram state hstate).2
  split at hresult
  · rename_i value last heq
    exact .inl ⟨value, last, heq, hresult⟩
  · rename_i error last heq
    exact .inr ⟨error, last, heq, hresult⟩

/-- A program without steps only has to say how it ends. -/
theorem of_no_steps {result : Except ε α} (hprogram : ∀ state, before state →
      program state = (result, []))
    (hcrashed : ∀ state, before state → crashed state)
    (hend : ∀ state, before state →
      match result with
      | .ok value => returned value state
      | .error error => failed error state) :
    Triple before program returned failed crashed := by
  intro state hstate
  unfold run
  rw [hprogram state hstate]
  refine ⟨fun count => ?_, ?_⟩
  · rw [List.take_nil]
    exact hcrashed state hstate
  · have hlast := hend state hstate
    cases result with
    | ok value => exact hlast
    | error error => exact hlast

theorem of_pure {value : α} (hcrashed : ∀ state, before state → crashed state)
    (hreturned : ∀ state, before state → returned value state) :
    Triple before (pure value : Stepwise σ π ε α) returned failed crashed :=
  of_no_steps (fun _ _ => rfl) hcrashed hreturned

theorem of_fail {error : ε} (hcrashed : ∀ state, before state → crashed state)
    (hfailed : ∀ state, before state → failed error state) :
    Triple before (fail error : Stepwise σ π ε α) returned failed crashed :=
  of_no_steps (fun _ _ => rfl) hcrashed hfailed

theorem of_read {view : σ → α} (hcrashed : ∀ state, before state → crashed state) :
    Triple before (read view : Stepwise σ π ε α)
      (fun value state => before state ∧ value = view state) failed crashed := by
  intro state hstate
  refine ⟨fun count => ?_, hstate, rfl⟩
  change crashed (after state (([] : List π).take count))
  rw [List.take_nil]
  exact hcrashed state hstate

theorem of_ofExcept {result : Except ε α} (hcrashed : ∀ state, before state → crashed state)
    (hfailed : ∀ error state, before state → result = .error error → failed error state) :
    Triple before (ofExcept result : Stepwise σ π ε α)
      (fun value state => before state ∧ result = .ok value) failed crashed := by
  refine of_no_steps (fun _ _ => rfl) hcrashed fun state hstate => ?_
  cases hresult : result with
  | ok value => exact ⟨hstate, rfl⟩
  | error error => exact hfailed error state hstate hresult

theorem of_perform {step : π} {returned : Unit → σ → Prop}
    (hcrashed : ∀ state, before state → crashed state)
    (hlast : ∀ state, before state → crashed (Primitive.apply state step))
    (hreturned : ∀ state, before state → returned () (Primitive.apply state step)) :
    Triple before (perform step : Stepwise σ π ε Unit) returned failed crashed := by
  intro state hstate
  refine ⟨fun count => ?_, hreturned state hstate⟩
  cases count with
  | zero => exact hcrashed state hstate
  | succ count =>
    change crashed (after state (step :: ([] : List π).take count))
    rw [List.take_nil]
    exact hlast state hstate

/-- One program after another; the second starts where the first returned. -/
theorem bind {next : α → Stepwise σ π ε β} {returned : β → σ → Prop} (middle : α → σ → Prop)
    (hfirst : Triple before program middle failed crashed)
    (hnext : ∀ value, Triple (middle value) (next value) returned failed crashed) :
    Triple before (program >>= next) returned failed crashed := by
  intro state hstate
  obtain ⟨hway, hend⟩ := hfirst state hstate
  cases hprogram : program state with
  | mk result steps =>
    rw [hprogram] at hway
    simp only [run, hprogram] at hend
    unfold run
    cases result with
    | error error =>
      rw [bind_of_error hprogram]
      exact ⟨hway, hend⟩
    | ok value =>
      obtain ⟨hwayNext, hendNext⟩ := hnext value (after state steps) hend
      rw [bind_of_ok hprogram]
      refine ⟨fun count => ?_, ?_⟩
      · rw [List.take_append, after_append]
        -- Either the crash is in the first program or all its steps were taken.
        by_cases hcount : count ≤ steps.length
        · rw [Nat.sub_eq_zero_of_le hcount, List.take_zero, after_nil]
          exact hway count
        · rw [List.take_of_length_le (Nat.le_of_not_le hcount)]
          exact hwayNext (count - steps.length)
      · rw [after_append]
        exact hendNext

/-- Of every program nothing can be said. -/
theorem anything : Triple before program (fun _ _ => True) (fun _ _ => True) (fun _ => True) := by
  intro state _
  refine ⟨fun _ => trivial, ?_⟩
  split <;> trivial

/-- The last state is one on the way. -/
theorem at_end (hprogram : Triple before program returned failed crashed) :
    Triple before program (fun value state => returned value state ∧ crashed state)
      (fun error state => failed error state ∧ crashed state) crashed := by
  intro state hstate
  obtain ⟨hway, hend⟩ := hprogram state hstate
  have hlast : crashed (run program state).2 := by
    have hall := hway (program state).2.length
    rw [List.take_length] at hall
    exact hall
  refine ⟨hway, ?_⟩
  cases hrun : run program state with
  | mk result last =>
    rw [hrun] at hend hlast
    cases result with
    | ok value => exact ⟨hend, hlast⟩
    | error error => exact ⟨hend, hlast⟩

/-- What was shown apart holds together. -/
theorem both {returned' : α → σ → Prop} {failed' : ε → σ → Prop} {crashed' : σ → Prop}
    (hprogram : Triple before program returned failed crashed)
    (hother : Triple before program returned' failed' crashed') :
    Triple before program (fun value state => returned value state ∧ returned' value state)
      (fun error state => failed error state ∧ failed' error state)
      (fun state => crashed state ∧ crashed' state) := by
  intro state hstate
  obtain ⟨hway, hend⟩ := hprogram state hstate
  obtain ⟨hwayOther, hendOther⟩ := hother state hstate
  refine ⟨fun count => ⟨hway count, hwayOther count⟩, ?_⟩
  cases hrun : run program state with
  | mk result last =>
    rw [hrun] at hend hendOther
    cases result with
    | ok value => exact ⟨hend, hendOther⟩
    | error error => exact ⟨hend, hendOther⟩

theorem attempt {failed' : δ → σ → Prop}
    (hprogram : Triple before program returned failed crashed) :
    Triple before (program.attempt : Stepwise σ π δ (Except ε α))
      (fun result state =>
        match result with
        | .ok value => returned value state
        | .error error => failed error state) failed' crashed := by
  intro state hstate
  obtain ⟨hway, hend⟩ := hprogram state hstate
  refine ⟨hway, ?_⟩
  change match (program state).1 with
    | .ok value => returned value (after state (program state).2)
    | .error error => failed error (after state (program state).2)
  unfold run at hend
  cases hresult : (program state).1 with
  | ok value =>
    rw [hresult] at hend
    exact hend
  | error error =>
    rw [hresult] at hend
    exact hend

/-- A loop keeps what its body keeps, with the members still to come. -/
theorem fold {body : β → α → Stepwise σ π ε β} (invariant : List α → β → σ → Prop)
    (hcrashed : ∀ value state, invariant [] value state → crashed state)
    (hbody : ∀ member rest value, Triple (invariant (member :: rest) value) (body value member)
      (fun next => invariant rest next) failed crashed) (members : List α) (value : β) :
    Triple (invariant members value) (Stepwise.fold body members value)
      (fun next => invariant [] next) failed crashed := by
  induction members generalizing value with
  | nil => exact of_pure (hcrashed value) fun _ hstate => hstate
  | cons member rest ih => exact bind _ (hbody member rest value) fun next => ih next

/-- Name the state in which a program starts. -/
theorem of_state (hprogram : ∀ start, before start →
    Triple (fun state => state = start) program returned failed crashed) :
    Triple before program returned failed crashed :=
  fun state hstate => hprogram state hstate state rfl

/-- What is known beforehand and is not about the state. -/
theorem of_fact {fact : Prop} (hprogram : fact → Triple before program returned failed crashed) :
    Triple (fun state => before state ∧ fact) program returned failed crashed :=
  fun state hstate => hprogram hstate.2 state hstate.1

/-- Start from more. -/
theorem strengthen {stronger : σ → Prop} (hprogram : Triple before program returned failed crashed)
    (hbefore : ∀ state, stronger state → before state) :
    Triple stronger program returned failed crashed :=
  fun state hstate => hprogram state (hbefore state hstate)

/-- Promise less. -/
theorem weaken {weaker : α → σ → Prop} {failed' : ε → σ → Prop} {crashed' : σ → Prop}
    (hprogram : Triple before program returned failed crashed)
    (hreturned : ∀ value state, returned value state → weaker value state)
    (hfailed : ∀ error state, failed error state → failed' error state)
    (hcrashed : ∀ state, crashed state → crashed' state) :
    Triple before program weaker failed' crashed' := by
  intro state hstate
  obtain ⟨hway, hend⟩ := hprogram state hstate
  refine ⟨fun count => hcrashed _ (hway count), ?_⟩
  split at hend
  · rename_i value last heq
    exact hreturned value last hend
  · rename_i error last heq
    exact hfailed error last hend

/-- A check that stops without a step. -/
theorem check {result : Except ε α} {next : α → Stepwise σ π ε β} {returned : β → σ → Prop}
    (hcrashed : ∀ state, before state → crashed state)
    (hfailed : ∀ error state, before state → failed error state)
    (hnext : ∀ value, result = .ok value → Triple before (next value) returned failed crashed) :
    Triple before (ofExcept result >>= next) returned failed crashed := by
  refine bind _ (of_ofExcept hcrashed fun error state hstate _ => hfailed error state hstate)
    fun value => ?_
  exact of_fact fun hvalue => hnext value hvalue

/-- A check that is known to pass. -/
theorem passed {result : Except ε α} {value : α} {next : α → Stepwise σ π ε β}
    {returned : β → σ → Prop} (hpassed : result = .ok value)
    (hcrashed : ∀ state, before state → crashed state)
    (hnext : Triple before (next value) returned failed crashed) :
    Triple before (ofExcept result >>= next) returned failed crashed := by
  refine bind (fun other state => before state ∧ other = value) ?_ fun other => ?_
  · refine of_no_steps (fun _ _ => rfl) hcrashed fun state hstate => ?_
    rw [hpassed]
    exact ⟨hstate, rfl⟩
  · refine of_fact fun hother => ?_
    rw [hother]
    exact hnext

/-- A check that is known to stop. -/
theorem stopped {result : Except ε α} {error : ε} {next : α → Stepwise σ π ε β}
    {returned : β → σ → Prop} (hstopped : result = .error error)
    (hcrashed : ∀ state, before state → crashed state)
    (hfailed : ∀ state, before state → failed error state) :
    Triple before (ofExcept result >>= next) returned failed crashed := by
  refine bind (fun _ _ => False) ?_ fun _ _ hnever => hnever.elim
  refine of_no_steps (fun _ _ => rfl) hcrashed fun state hstate => ?_
  rw [hstopped]
  exact hfailed state hstate

/-! From a named state, a program can be followed step by step. -/

theorem read_at {start : σ} {view : σ → α} {next : α → Stepwise σ π ε β}
    {returned : β → σ → Prop} (hcrashed : crashed start)
    (hnext : Triple (fun state => state = start) (next (view start)) returned failed crashed) :
    Triple (fun state => state = start) (read view >>= next) returned failed crashed := by
  refine bind (fun value state => state = start ∧ value = view start) ?_ fun value => ?_
  · refine (of_read ?_).weaken (fun value state hstate => ?_) (fun _ _ hstate => hstate)
      fun _ hstate => hstate
    · exact fun state hstate => hstate ▸ hcrashed
    · exact ⟨hstate.1, hstate.1 ▸ hstate.2⟩
  · refine of_fact fun hvalue => ?_
    rw [hvalue]
    exact hnext

theorem perform_at {start : σ} {step : π} {next : Unit → Stepwise σ π ε β}
    {returned : β → σ → Prop} (hcrashed : crashed start)
    (hlast : crashed (Primitive.apply start step))
    (hnext : Triple (fun state => state = Primitive.apply start step) (next ()) returned failed
      crashed) :
    Triple (fun state => state = start) (perform step >>= next) returned failed crashed := by
  refine bind (fun _ state => state = Primitive.apply start step) ?_ fun _ => hnext
  refine of_perform (fun state hstate => ?_) (fun state hstate => ?_) fun state hstate => ?_
  · exact hstate ▸ hcrashed
  · exact hstate ▸ hlast
  · rw [hstate]

end Triple

end Stepwise
