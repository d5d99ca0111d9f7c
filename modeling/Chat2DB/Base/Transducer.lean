import Chat2DB.Base.Outcome

/-! # Machines that answer inputs with outputs

A transducer takes one input after the other, answers each with outputs, and has a last
word when the inputs end. It may refuse, and then nothing counts.
-/

universe u

structure Transducer (σ ι ο ε : Type u) where
  push : σ → ι → Except ε (σ × List ο)
  finish : σ → Except ε (List ο)

namespace Transducer

variable {σ ι ο ε : Type u} (machine : Transducer σ ι ο ε)

/-- The outputs for a segment of the input, and the state behind it. -/
def feed (state : σ) : List ι → Except ε (σ × List ο)
  | [] => .ok (state, [])
  | input :: inputs => do
    let (next, outputs) ← machine.push state input
    let (last, rest) ← feed next inputs
    return (last, outputs ++ rest)

/-- The outputs for all of the input. -/
def outputs (state : σ) (inputs : List ι) : Except ε (List ο) := do
  let (last, outputs) ← machine.feed state inputs
  let rest ← machine.finish last
  return outputs ++ rest

variable {machine}

@[simp] theorem feed_nil (state : σ) : machine.feed state [] = .ok (state, []) := rfl

theorem feed_cons_iff {state last : σ} {input : ι} {inputs : List ι} {result : List ο} :
    machine.feed state (input :: inputs) = .ok (last, result) ↔
      ∃ next first rest, machine.push state input = .ok (next, first) ∧
        machine.feed next inputs = .ok (last, rest) ∧ result = first ++ rest := by
  simp only [feed, Outcome.bind_eq_ok, Outcome.pure_eq_ok, Prod.exists, Prod.mk.injEq]
  constructor
  · rintro ⟨next, first, hpush, behind, rest, hfeed, rfl, rfl⟩
    exact ⟨next, first, rest, hpush, hfeed, rfl⟩
  · rintro ⟨next, first, rest, hpush, hfeed, rfl⟩
    exact ⟨next, first, hpush, last, rest, hfeed, rfl, rfl⟩

theorem feed_append_iff {state last : σ} {before after : List ι} {result : List ο} :
    machine.feed state (before ++ after) = .ok (last, result) ↔
      ∃ next first rest, machine.feed state before = .ok (next, first) ∧
        machine.feed next after = .ok (last, rest) ∧ result = first ++ rest := by
  induction before generalizing state result with
  | nil => simp
  | cons input before ih =>
    simp only [List.cons_append, feed_cons_iff, ih]
    constructor
    · rintro ⟨next, first, rest, hpush, ⟨middle, second, third, hbefore, hafter, rfl⟩, rfl⟩
      exact ⟨middle, first ++ second, third, ⟨next, first, second, hpush, hbefore, rfl⟩, hafter,
        (List.append_assoc _ _ _).symm⟩
    · rintro ⟨middle, both, third, ⟨next, first, second, hpush, hbefore, rfl⟩, hafter, rfl⟩
      exact ⟨next, first, second ++ third, hpush, ⟨middle, second, third, hbefore, hafter, rfl⟩,
        List.append_assoc _ _ _⟩

theorem outputs_iff {state : σ} {inputs : List ι} {result : List ο} :
    machine.outputs state inputs = .ok result ↔
      ∃ last first rest, machine.feed state inputs = .ok (last, first) ∧
        machine.finish last = .ok rest ∧ result = first ++ rest := by
  simp only [outputs, Outcome.bind_eq_ok, Outcome.pure_eq_ok, Prod.exists]
  constructor
  · rintro ⟨last, first, hfeed, rest, hfinish, rfl⟩
    exact ⟨last, first, rest, hfeed, hfinish, rfl⟩
  · rintro ⟨last, first, rest, hfeed, hfinish, rfl⟩
    exact ⟨last, first, hfeed, rest, hfinish, rfl⟩

/-- What holds at the start and is kept by each input, with the outputs it adds, holds
behind every segment. -/
theorem feed_invariant {motive : List ι → List ο → σ → Prop} {start last : σ}
    (hstart : motive [] [] start)
    (hstep : ∀ before produced state input next first, motive before produced state →
      machine.push state input = .ok (next, first) →
      motive (before ++ [input]) (produced ++ first) next)
    {inputs : List ι} {result : List ο} (hfeed : machine.feed start inputs = .ok (last, result)) :
    motive inputs result last := by
  induction inputs using List.reverseRecOn generalizing last result with
  | nil =>
    rw [feed_nil, Except.ok.injEq, Prod.mk.injEq] at hfeed
    obtain ⟨rfl, rfl⟩ := hfeed
    exact hstart
  | append_singleton inputs input ih =>
    obtain ⟨state, produced, rest, hbefore, hinput, rfl⟩ := feed_append_iff.mp hfeed
    obtain ⟨next, first, last', hpush, hnil, rfl⟩ := feed_cons_iff.mp hinput
    rw [feed_nil, Except.ok.injEq, Prod.mk.injEq] at hnil
    obtain ⟨rfl, rfl⟩ := hnil
    rw [List.append_nil]
    exact hstep _ _ _ _ _ _ (ih hbefore) hpush

end Transducer
