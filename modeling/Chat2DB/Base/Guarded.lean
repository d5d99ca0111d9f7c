import Chat2DB.Base.Stepwise

/-! # Programs whose steps may fail

A step may fail half way, and the steps behind it are then not taken. A program
is judged step by step: each step has to be allowed in the state in which it is
taken, whatever becomes of the steps behind it.
-/

namespace Stepwise

variable {σ π ε δ α β : Type} [Primitive σ π]

/-- Every step of a list is allowed in the state in which it is taken. -/
def Allows (allowed : σ → π → Prop) : σ → List π → Prop
  | _, [] => True
  | state, step :: rest => allowed state step ∧ Allows allowed (Primitive.apply state step) rest

/-- The first steps of a list, and what the next one leaves behind when it fails. -/
def cutShort (tear : Nat → π → List π) (count written : Nat) (steps : List π) : List π :=
  steps.take count ++ steps[count]?.elim [] (tear written)

variable {allowed allowed' : σ → π → Prop} {state : σ} {steps : List π}

@[simp] theorem allows_nil : Allows allowed state [] := trivial

@[simp] theorem allows_cons {step : π} : Allows allowed state (step :: steps) ↔
    allowed state step ∧ Allows allowed (Primitive.apply state step) steps :=
  Iff.rfl

theorem allows_append {more : List π} : Allows allowed state (steps ++ more) ↔
    Allows allowed state steps ∧ Allows allowed (after state steps) more := by
  induction steps generalizing state with
  | nil => simp
  | cons step steps ih => simp [ih, and_assoc]

theorem Allows.mono (hsteps : Allows allowed state steps)
    (hmono : ∀ state step, allowed state step → allowed' state step) :
    Allows allowed' state steps := by
  induction steps generalizing state with
  | nil => trivial
  | cons step steps ih => exact ⟨hmono state step hsteps.1, ih hsteps.2⟩

/-- Steps that are allowed anywhere. -/
theorem allows_of_forall (hsteps : ∀ step ∈ steps, ∀ state, allowed state step) :
    Allows allowed state steps := by
  induction steps generalizing state with
  | nil => trivial
  | cons step steps ih =>
    rw [List.forall_mem_cons] at hsteps
    exact ⟨hsteps.1 state, ih hsteps.2⟩

/-- What every allowed step keeps holds after the steps. -/
theorem Allows.keeps {motive : σ → Prop} (hsteps : Allows allowed state steps)
    (hkeeps : ∀ state step, motive state → allowed state step →
      motive (Primitive.apply state step)) (hstate : motive state) : motive (after state steps) := by
  induction steps generalizing state with
  | nil => exact hstate
  | cons step steps ih => exact ih hsteps.2 (hkeeps state step hstate hsteps.1)

/-- If what is left of an allowed step is allowed, a failure leads to no other states. -/
theorem Allows.cutShort {tear : Nat → π → List π} (hsteps : Allows allowed state steps)
    (htear : ∀ state step written, allowed state step → Allows allowed state (tear written step))
    (count written : Nat) : Allows allowed state (cutShort tear count written steps) := by
  induction steps generalizing state count with
  | nil => simp [Stepwise.cutShort]
  | cons step steps ih =>
    cases count with
    | zero => simpa [Stepwise.cutShort] using htear state step written hsteps.1
    | succ count => exact ⟨hsteps.1, ih hsteps.2 count⟩

/-- From `before`, the program takes allowed steps only and returns in `returned` or fails in
`failed`. -/
def Guarded (allowed : σ → π → Prop) (before : σ → Prop) (program : Stepwise σ π ε α)
    (returned : α → σ → Prop) (failed : ε → σ → Prop) : Prop :=
  ∀ state, before state → Allows allowed state (program state).2 ∧
    match run program state with
    | (.ok value, last) => returned value last
    | (.error error, last) => failed error last

namespace Guarded

variable {before : σ → Prop} {program : Stepwise σ π ε α} {returned : α → σ → Prop}
  {failed : ε → σ → Prop}

theorem of_pure {value : α} (hreturned : ∀ state, before state → returned value state) :
    Guarded allowed before (pure value : Stepwise σ π ε α) returned failed :=
  fun state hstate => ⟨trivial, hreturned state hstate⟩

theorem of_fail {error : ε} (hfailed : ∀ state, before state → failed error state) :
    Guarded allowed before (fail error : Stepwise σ π ε α) returned failed :=
  fun state hstate => ⟨trivial, hfailed state hstate⟩

theorem of_ofExcept {result : Except ε α}
    (hreturned : ∀ value state, before state → result = .ok value → returned value state)
    (hfailed : ∀ error state, before state → result = .error error → failed error state) :
    Guarded allowed before (ofExcept result : Stepwise σ π ε α) returned failed := by
  intro state hstate
  refine ⟨trivial, ?_⟩
  rw [run_ofExcept]
  cases hresult : result with
  | ok value => exact hreturned value state hstate hresult
  | error error => exact hfailed error state hstate hresult

theorem of_perform {step : π} {returned : Unit → σ → Prop}
    (hallowed : ∀ state, before state → allowed state step)
    (hreturned : ∀ state, before state → returned () (Primitive.apply state step)) :
    Guarded allowed before (perform step : Stepwise σ π ε Unit) returned failed :=
  fun state hstate => ⟨⟨hallowed state hstate, trivial⟩, hreturned state hstate⟩

/-- One program after another; the second starts where the first returned. -/
theorem bind {next : α → Stepwise σ π ε β} {returned : β → σ → Prop} (middle : α → σ → Prop)
    (hfirst : Guarded allowed before program middle failed)
    (hnext : ∀ value, Guarded allowed (middle value) (next value) returned failed) :
    Guarded allowed before (program >>= next) returned failed := by
  intro state hstate
  obtain ⟨hsteps, hend⟩ := hfirst state hstate
  cases hprogram : program state with
  | mk result steps =>
    rw [hprogram] at hsteps
    simp only [run, hprogram] at hend
    unfold run
    cases result with
    | error error =>
      rw [bind_of_error hprogram]
      exact ⟨hsteps, hend⟩
    | ok value =>
      obtain ⟨hstepsNext, hendNext⟩ := hnext value (after state steps) hend
      rw [bind_of_ok hprogram]
      refine ⟨allows_append.mpr ⟨hsteps, hstepsNext⟩, ?_⟩
      rw [after_append]
      exact hendNext

theorem attempt {failed' : δ → σ → Prop}
    (hprogram : Guarded allowed before program returned failed) :
    Guarded allowed before (program.attempt : Stepwise σ π δ (Except ε α))
      (fun result state =>
        match result with
        | .ok value => returned value state
        | .error error => failed error state) failed' := by
  intro state hstate
  obtain ⟨hsteps, hend⟩ := hprogram state hstate
  refine ⟨hsteps, ?_⟩
  change match (program state).1 with
    | .ok value => returned value (after state (program state).2)
    | .error error => failed error (after state (program state).2)
  unfold run at hend
  cases hresult : (program state).1 with
  | ok value =>
    rw [hresult] at hend
    exact hend
  | error error =>
    rw [hresult] at hend
    exact hend

/-- A loop keeps what its body keeps, with the members still to come. -/
theorem fold {body : β → α → Stepwise σ π ε β} (invariant : List α → β → σ → Prop)
    (hbody : ∀ member rest value, Guarded allowed (invariant (member :: rest) value)
      (body value member) (fun next => invariant rest next) failed)
    (members : List α) (value : β) :
    Guarded allowed (invariant members value) (Stepwise.fold body members value)
      (fun next => invariant [] next) failed := by
  induction members generalizing value with
  | nil => exact of_pure fun _ hstate => hstate
  | cons member rest ih => exact bind _ (hbody member rest value) fun next => ih next

/-- Start from more, and promise less. -/
theorem weaken {stronger : σ → Prop} {weaker : α → σ → Prop} {failed' : ε → σ → Prop}
    (hprogram : Guarded allowed before program returned failed)
    (hbefore : ∀ state, stronger state → before state)
    (hreturned : ∀ value state, returned value state → weaker value state)
    (hfailed : ∀ error state, failed error state → failed' error state) :
    Guarded allowed stronger program weaker failed' := by
  intro state hstate
  obtain ⟨hsteps, hend⟩ := hprogram state (hbefore state hstate)
  refine ⟨hsteps, ?_⟩
  split at hend
  · rename_i value last heq
    exact hreturned value last hend
  · rename_i error last heq
    exact hfailed error last hend

/-- Allow more steps. -/
theorem mono (hprogram : Guarded allowed before program returned failed)
    (hmono : ∀ state step, allowed state step → allowed' state step) :
    Guarded allowed' before program returned failed :=
  fun state hstate => ⟨(hprogram state hstate).1.mono hmono, (hprogram state hstate).2⟩

/-- What every allowed step keeps holds in the end, too. -/
theorem keeps {motive : σ → Prop} (hprogram : Guarded allowed before program returned failed)
    (hkeeps : ∀ state step, motive state → allowed state step →
      motive (Primitive.apply state step)) (hbefore : ∀ state, before state → motive state) :
    Guarded allowed before program (fun value state => returned value state ∧ motive state)
      (fun error state => failed error state ∧ motive state) := by
  intro state hstate
  obtain ⟨hsteps, hend⟩ := hprogram state hstate
  have hlast : motive (run program state).2 := hsteps.keeps hkeeps (hbefore state hstate)
  refine ⟨hsteps, ?_⟩
  cases hrun : run program state with
  | mk result last =>
    rw [hrun] at hend hlast
    cases result with
    | ok value => exact ⟨hend, hlast⟩
    | error error => exact ⟨hend, hlast⟩

/-- The run of a program leads to its end. -/
theorem at_run {start : σ}
    (hprogram : Guarded allowed (fun state => state = start) program returned failed) :
    Guarded allowed (fun state => state = start) program
      (fun value last => returned value last ∧ run program start = (.ok value, last))
      (fun error last => failed error last ∧ run program start = (.error error, last)) := by
  rintro state rfl
  obtain ⟨hsteps, hend⟩ := hprogram state rfl
  refine ⟨hsteps, ?_⟩
  cases hrun : run program state with
  | mk result last =>
    rw [hrun] at hend
    cases result with
    | ok value => exact ⟨hend, rfl⟩
    | error error => exact ⟨hend, rfl⟩

/-- A look at the state. -/
theorem read {view : σ → α} {next : α → Stepwise σ π ε β} {returned : β → σ → Prop}
    (hnext : ∀ value, Guarded allowed before (next value) returned failed) :
    Guarded allowed before (Stepwise.read view >>= next) returned failed :=
  bind (fun _ => before) (fun _ hstate => ⟨trivial, hstate⟩) hnext

/-- Name the state in which a program starts. -/
theorem of_state (hprogram : ∀ start, before start →
    Guarded allowed (fun state => state = start) program returned failed) :
    Guarded allowed before program returned failed :=
  fun state hstate => hprogram state hstate state rfl

/-- What is known beforehand and is not about the state. -/
theorem of_fact {fact : Prop} (hprogram : fact → Guarded allowed before program returned failed) :
    Guarded allowed (fun state => before state ∧ fact) program returned failed :=
  fun state hstate => hprogram hstate.2 state hstate.1

/-- A check that stops without a step. -/
theorem check {result : Except ε α} {next : α → Stepwise σ π ε β} {returned : β → σ → Prop}
    (hfailed : ∀ error state, before state → failed error state)
    (hnext : ∀ value, result = .ok value →
      Guarded allowed before (next value) returned failed) :
    Guarded allowed before (ofExcept result >>= next) returned failed := by
  refine bind (fun value state => before state ∧ result = .ok value) ?_ fun value => ?_
  · exact of_ofExcept (fun _ _ hstate hvalue => ⟨hstate, hvalue⟩)
      fun error state hstate _ => hfailed error state hstate
  · exact of_fact fun hvalue => hnext value hvalue

/-! From a named state, a program can be followed step by step. -/

theorem read_at {start : σ} {view : σ → α} {next : α → Stepwise σ π ε β}
    {returned : β → σ → Prop}
    (hnext : Guarded allowed (fun state => state = start) (next (view start)) returned failed) :
    Guarded allowed (fun state => state = start) (Stepwise.read view >>= next) returned failed := by
  refine bind (fun value state => state = start ∧ value = view start) ?_ fun value => ?_
  · rintro state rfl
    exact ⟨trivial, rfl, rfl⟩
  · refine of_fact fun hvalue => ?_
    rw [hvalue]
    exact hnext

theorem perform_at {start : σ} {step : π} {next : Unit → Stepwise σ π ε β}
    {returned : β → σ → Prop} (hallowed : allowed start step)
    (hnext : Guarded allowed (fun state => state = Primitive.apply start step) (next ()) returned
      failed) :
    Guarded allowed (fun state => state = start) (perform step >>= next) returned failed := by
  refine bind (fun _ state => state = Primitive.apply start step) ?_ fun _ => hnext
  refine of_perform ?_ ?_
  · rintro state rfl
    exact hallowed
  · rintro state rfl
    rfl

/-- The steps of a program from a state, and how it ends there. -/
theorem allows (hprogram : Guarded allowed before program returned failed) (hstate : before state) :
    Allows allowed state (program state).2 :=
  (hprogram state hstate).1

theorem ends (hprogram : Guarded allowed before program returned failed) (hstate : before state) :
    (∃ value last, run program state = (.ok value, last) ∧ returned value last) ∨
      ∃ error last, run program state = (.error error, last) ∧ failed error last := by
  have hresult := (hprogram state hstate).2
  split at hresult
  · rename_i value last heq
    exact .inl ⟨value, last, heq, hresult⟩
  · rename_i error last heq
    exact .inr ⟨error, last, heq, hresult⟩

end Guarded

end Stepwise
