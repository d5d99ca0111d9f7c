import Mathlib

/-! # Machines with partial steps

A machine takes labelled steps, each of which may be disabled in a state. A run
is a list of actions that were all enabled when they were taken.
-/

namespace Machine

universe u v

variable {σ : Type u} {α : Type v}

/-- The state after the actions, if every one of them was enabled. -/
def run (step : σ → α → Option σ) (start : σ) (actions : List α) : Option σ :=
  actions.foldlM step start

/-- Every action of the run was allowed in the state in which it was taken. -/
def Along (allowed : σ → α → Prop) (step : σ → α → Option σ) (start : σ) (actions : List α) :
    Prop :=
  ∀ before action after state, actions = before ++ action :: after →
    run step start before = some state → allowed state action

variable {step : σ → α → Option σ} {start state : σ} {actions : List α}

theorem run_append_singleton {action : α} :
    run step start (actions ++ [action]) = (run step start actions).bind fun s => step s action := by
  simp [run]

theorem run_append {rest : List α} :
    run step start (actions ++ rest) = (run step start actions).bind fun s => run step s rest := by
  simp [run, List.foldlM_append]

theorem run_cons {action : α} :
    run step start (action :: actions) = (step start action).bind fun s => run step s actions := by
  simp [run]

/-- Induction along a run: the last action took a reached state one step on. -/
theorem run_induction {motive : List α → σ → Prop} (hstart : motive [] start)
    (hstep : ∀ actions action before after, run step start actions = some before →
      step before action = some after → motive actions before → motive (actions ++ [action]) after)
    (hrun : run step start actions = some state) : motive actions state := by
  induction actions using List.reverseRecOn generalizing state with
  | nil =>
    obtain rfl : start = state := by simpa [run] using hrun
    exact hstart
  | append_singleton actions action ih =>
    rw [run_append_singleton, Option.bind_eq_some_iff] at hrun
    obtain ⟨before, hbefore, hafter⟩ := hrun
    exact hstep actions action before state hbefore hafter (ih hbefore)

/-- What the start satisfies and every enabled action keeps holds after a run. -/
theorem run_invariant {motive : σ → Prop} (hstart : motive start)
    (hstep : ∀ before action after, motive before → step before action = some after → motive after)
    (hrun : run step start actions = some state) : motive state :=
  run_induction (motive := fun _ state => motive state) hstart
    (fun _ action before after _ hafter hbefore => hstep before action after hbefore hafter) hrun

theorem Along.append_singleton {allowed : σ → α → Prop} {action : α}
    (halong : Along allowed step start (actions ++ [action])) :
    Along allowed step start actions ∧
      ∀ state, run step start actions = some state → allowed state action := by
  constructor
  · rintro before other after reached rfl hreached
    exact halong before other (after ++ [action]) reached (by simp) hreached
  · intro reached hreached
    exact halong actions action [] reached rfl hreached

theorem along_nil {allowed : σ → α → Prop} : Along allowed step start [] := by
  intro before action after state hsplit
  simp at hsplit

theorem along_cons {allowed : σ → α → Prop} {action : α} :
    Along allowed step start (action :: actions) ↔ allowed start action ∧
      ∀ next ∈ step start action, Along allowed step next actions := by
  constructor
  · intro halong
    refine ⟨halong [] action actions start rfl rfl, ?_⟩
    rintro next hnext before other after reached rfl hreached
    refine halong (action :: before) other after reached rfl ?_
    rw [run_cons, Option.mem_def.mp hnext]
    exact hreached
  · rintro ⟨hallowed, halong⟩ before other after reached hsplit hreached
    cases before with
    | nil =>
      obtain ⟨rfl, rfl⟩ := List.cons.inj hsplit
      obtain rfl := Option.some.inj hreached
      exact hallowed
    | cons first before =>
      obtain ⟨rfl, rfl⟩ := List.cons.inj hsplit
      rw [run_cons, Option.bind_eq_some_iff] at hreached
      obtain ⟨next, hnext, hreached⟩ := hreached
      exact halong next hnext before other after reached rfl hreached

/-- Whether a concrete run is allowed can be computed. -/
def decidableAlong (allowed : σ → α → Prop) [∀ state action, Decidable (allowed state action)]
    (step : σ → α → Option σ) :
    ∀ (actions : List α) (start : σ), Decidable (Along allowed step start actions)
  | [], _ => .isTrue along_nil
  | _ :: actions, _ =>
    have : ∀ next, Decidable (Along allowed step next actions) :=
      decidableAlong allowed step actions
    decidable_of_iff _ along_cons.symm

instance (allowed : σ → α → Prop) [∀ state action, Decidable (allowed state action)]
    (step : σ → α → Option σ) (start : σ) (actions : List α) :
    Decidable (Along allowed step start actions) :=
  decidableAlong allowed step actions start

/-- An invariant that needs its actions to be allowed. -/
theorem run_invariant_along {motive : σ → Prop} {allowed : σ → α → Prop} (hstart : motive start)
    (hstep : ∀ before action after, motive before → allowed before action →
      step before action = some after → motive after)
    (hrun : run step start actions = some state) (halong : Along allowed step start actions) :
    motive state := by
  refine run_induction (motive := fun actions state =>
    Along allowed step start actions → motive state) ?_ ?_ hrun halong
  · intro _
    exact hstart
  · intro actions action before after hbefore hafter ih halong
    obtain ⟨hactions, hallowed⟩ := halong.append_singleton
    exact hstep before action after (ih hactions) (hallowed before hbefore) hafter

/-! ## States in between -/

/-- Every state of the run has the property, the first and the last one as well. -/
def Throughout (property : σ → Prop) (step : σ → α → Option σ) (start : σ) (actions : List α) :
    Prop :=
  ∀ done, done <+: actions → ∀ state, run step start done = some state → property state

section Throughout

variable {property : σ → Prop}

theorem Throughout.last (hthroughout : Throughout property step start actions)
    (hrun : run step start actions = some state) : property state :=
  hthroughout actions (List.prefix_refl actions) state hrun

theorem Throughout.imp {weaker : σ → Prop} (hthroughout : Throughout property step start actions)
    (himp : ∀ state, property state → weaker state) : Throughout weaker step start actions :=
  fun done hdone state hstate => himp state (hthroughout done hdone state hstate)

theorem throughout_append {rest : List α} (hrun : run step start actions = some state) :
    Throughout property step start (actions ++ rest) ↔
      Throughout property step start actions ∧ Throughout property step state rest := by
  constructor
  · intro hthroughout
    constructor
    · intro done hdone reached hreached
      exact hthroughout done (hdone.trans (List.prefix_append _ _)) reached hreached
    · intro done hdone reached hreached
      apply hthroughout (actions ++ done) ((List.prefix_append_right_inj actions).mpr hdone) reached
      rw [run_append, hrun]
      exact hreached
  · rintro ⟨hfirst, hrest⟩ done hdone reached hreached
    rcases List.prefix_or_prefix_of_prefix hdone (List.prefix_append actions rest) with
      hinside | ⟨later, rfl⟩
    · exact hfirst done hinside reached hreached
    · rw [run_append, hrun] at hreached
      exact hrest later ((List.prefix_append_right_inj actions).mp hdone) reached hreached

/-- A property that every action keeps holds throughout once it holds at the start. -/
theorem throughout_of_start (hstart : property start)
    (hstep : ∀ action ∈ actions, ∀ before after, step before action = some after →
      property before → property after) : Throughout property step start actions := by
  intro done hdone reached hreached
  refine run_induction (motive := fun done state => done <+: actions → property state)
    (fun _ => hstart) ?_ hreached hdone
  intro done action before after _ hafter ih hlonger
  have hmem : action ∈ actions := hlonger.subset (List.mem_append_right _ List.mem_cons_self)
  exact hstep action hmem before after hafter (ih ((List.prefix_append _ _).trans hlonger))

/-- A property that no action can bring about holds throughout once it holds at the end. -/
theorem throughout_of_last (hrun : run step start actions = some state) (hlast : property state)
    (hstep : ∀ action ∈ actions, ∀ before after, step before action = some after →
      property after → property before) : Throughout property step start actions := by
  rintro done ⟨rest, rfl⟩ reached hreached
  rw [run_append, hreached] at hrun
  by_contra hproperty
  -- once lost, the property does not come back
  have hlost : Throughout (fun state => ¬property state) step reached rest := by
    apply throughout_of_start
    · exact hproperty
    · intro action haction before after hafter hbefore hreturns
      exact hbefore (hstep action (List.mem_append_right done haction) before after hafter hreturns)
  exact hlost.last hrun hlast

/-- Nothing lies between the ends of a single step. -/
theorem throughout_of_ends (hlength : actions.length ≤ 1)
    (hrun : run step start actions = some state) (hstart : property start)
    (hlast : property state) : Throughout property step start actions := by
  intro done hdone reached hreached
  match done, hdone with
  | [], _ =>
    obtain rfl := Option.some.inj hreached
    exact hstart
  | first :: more, hdone =>
    have hle := hdone.length_le
    have hall : first :: more = actions := by
      apply hdone.eq_of_length
      rw [List.length_cons] at hle ⊢
      omega
    rw [hall, hrun] at hreached
    obtain rfl := Option.some.inj hreached
    exact hlast

end Throughout

/-- Where an allowed action is always enabled that reaches the goal or lowers the rank, allowed
actions alone reach the goal. -/
theorem exists_run_of_rank {allowed : σ → α → Prop} {motive goal : σ → Prop} {rank : σ → Nat}
    (hdue : ∀ state, motive state → ¬ goal state → ∃ action next, allowed state action ∧
      step state action = some next ∧ 0 < rank state ∧
        (goal next ∨ motive next ∧ rank next < rank state))
    (hstart : goal start ∨ motive start) :
    ∃ actions last, actions.length ≤ rank start ∧ Along allowed step start actions ∧
      run step start actions = some last ∧ goal last := by
  induction hrank : rank start using Nat.strong_induction_on generalizing start with
  | _ bound ih =>
    by_cases hgoal : goal start
    · exact ⟨[], start, Nat.zero_le _, along_nil, rfl, hgoal⟩
    · obtain ⟨action, next, hallowed, hnext, hpositive, hgoes⟩ :=
        hdue start (hstart.resolve_left hgoal) hgoal
      obtain ⟨actions, last, hlength, halong, hrun, hlast⟩ : ∃ actions last,
          actions.length < bound ∧ Along allowed step next actions ∧
          run step next actions = some last ∧ goal last := by
        rcases hgoes with hreached | ⟨hmotive, hless⟩
        · exact ⟨[], next, hrank ▸ hpositive, along_nil, rfl, hreached⟩
        · obtain ⟨actions, last, hlength, hrest⟩ := ih _ (hrank ▸ hless) (.inr hmotive) rfl
          exact ⟨actions, last, hlength.trans_lt (hrank ▸ hless), hrest⟩
      refine ⟨action :: actions, last, hlength, ?_, ?_, hlast⟩
      · rw [along_cons, hnext]
        exact ⟨hallowed, by simpa using halong⟩
      · rw [run_cons, hnext]
        exact hrun

end Machine
