import Mathlib

/-! # Sequences of atomic requests

A service handles one request at a time and replies. A run is the list of the
requests in the order in which they took effect; the state before request `i`
is the state after the first `i` of them.
-/

namespace Trace

universe u v w

variable {σ : Type u} {ω : Type v} {ρ : Type w}

/-- The state after all requests. -/
def run (exec : ω → σ → ρ × σ) (start : σ) (ops : List ω) : σ :=
  ops.foldl (fun state op => (exec op state).2) start

/-- The state after the first `count` requests. -/
def stateAt (exec : ω → σ → ρ × σ) (start : σ) (ops : List ω) (count : Nat) : σ :=
  run exec start (ops.take count)

variable {exec : ω → σ → ρ × σ} {start : σ} {ops : List ω}

@[simp] theorem stateAt_zero : stateAt exec start ops 0 = start := rfl

/-- One request takes the state before it to the state after it. -/
theorem stateAt_succ {index : Nat} {op : ω} (hop : ops[index]? = some op) :
    stateAt exec start ops (index + 1) = (exec op (stateAt exec start ops index)).2 := by
  unfold stateAt run
  rw [List.take_add_one, hop]
  simp

/-- Induction along a run, with the number of requests handled so far. -/
theorem stateAt_induction {motive : Nat → σ → Prop} (hstart : motive 0 start)
    (hstep : ∀ index op, ops[index]? = some op →
      motive index (stateAt exec start ops index) →
      motive (index + 1) (exec op (stateAt exec start ops index)).2) :
    ∀ count, count ≤ ops.length → motive count (stateAt exec start ops count) := by
  intro count
  induction count with
  | zero => intro _; exact hstart
  | succ index ih =>
    intro hcount
    obtain ⟨op, hop⟩ : ∃ op, ops[index]? = some op :=
      ⟨_, List.getElem?_eq_getElem (show index < ops.length by omega)⟩
    rw [stateAt_succ hop]
    exact hstep index op hop (ih (by omega))

/-- What the start satisfies and every request keeps holds after every run. -/
theorem run_invariant {motive : σ → Prop} (hstart : motive start)
    (hstep : ∀ op state, motive state → motive (exec op state).2) (ops : List ω) :
    motive (run exec start ops) := by
  induction ops generalizing start with
  | nil => exact hstart
  | cons op rest ih => exact ih (hstep op start hstart)

theorem stateAt_invariant {inv : σ → Prop} (hstart : inv start)
    (hstep : ∀ op state, inv state → inv (exec op state).2) (ops : List ω) (count : Nat) :
    inv (stateAt exec start ops count) :=
  run_invariant hstart hstep (ops.take count)

/-- A property that only the requests in `breaks` can end holds until one of
them is handled. -/
theorem stateAt_until {inv holds : σ → Prop} {breaks : ω → σ → Prop}
    (hinv : ∀ count, inv (stateAt exec start ops count))
    (hstep : ∀ op state, inv state → holds state → ¬ breaks op state → holds (exec op state).2)
    {first : Nat} (hfirst : holds (stateAt exec start ops first)) :
    ∀ last, first ≤ last → last ≤ ops.length →
      (∀ index op, first ≤ index → index < last → ops[index]? = some op →
        ¬ breaks op (stateAt exec start ops index)) →
      holds (stateAt exec start ops last) := by
  intro last hle
  induction last, hle using Nat.le_induction with
  | base => intro _ _; exact hfirst
  | succ index hindex ih =>
    intro hlast hfree
    obtain ⟨op, hop⟩ : ∃ op, ops[index]? = some op :=
      ⟨_, List.getElem?_eq_getElem (show index < ops.length by omega)⟩
    rw [stateAt_succ hop]
    refine hstep op _ (hinv index) (ih (by omega) ?_) (hfree index op hindex (by omega) hop)
    intro earlier other hearlier hbefore
    exact hfree earlier other hearlier (by omega)

/-- Where a request that may have no effect stands for another one or for none, a run of
such requests is a run of those that had their effect. -/
theorem run_filterMap {τ : Type u} {ρ' : Type w} {attempt : τ → σ → ρ' × σ} {effect : τ → Option ω}
    (hattempt : ∀ request state, (attempt request state).2 =
      ((effect request).map fun op => (exec op state).2).getD state)
    (requests : List τ) :
    run attempt start requests = run exec start (requests.filterMap effect) := by
  induction requests generalizing start with
  | nil => rfl
  | cons request rest ih =>
    change run attempt (attempt request start).2 rest = _
    rw [ih, hattempt]
    cases heffect : effect request with
    | none => rw [List.filterMap_cons_none heffect, Option.map_none, Option.getD_none]
    | some op =>
      rw [List.filterMap_cons_some heffect, Option.map_some, Option.getD_some]
      rfl

end Trace
