import Mathlib

/-! # Guarded computations with errors

Checks that reject with an error, lookups that must succeed, and the inversion
rules that read a successful sequence of them as a conjunction of the checks
that were passed.
-/

namespace Outcome

universe u v

variable {ε : Type u} {α β : Type v}

/-- Stop with `error` when the stated condition holds. -/
def rejectIf (bad : Prop) [Decidable bad] (error : ε) : Except ε Unit :=
  if bad then .error error else .ok ()

/-- Use the value of a lookup, or stop with `error` when it is absent. -/
def orThrow (value : Option α) (error : ε) : Except ε α :=
  match value with
  | some result => .ok result
  | none => .error error

theorem ok_bind (value : α) (next : α → Except ε β) : (Except.ok value >>= next) = next value :=
  rfl

theorem bind_eq_ok (first : Except ε α) (next : α → Except ε β) (result : β) :
    (first >>= next) = .ok result ↔ ∃ value, first = .ok value ∧ next value = .ok result := by
  cases first <;> simp [bind, Except.bind]

/-- A passed check contributes the negation of what it rejects. -/
theorem rejectIf_eq_ok (bad : Prop) [Decidable bad] (error : ε) (result : Unit) :
    rejectIf bad error = .ok result ↔ ¬ bad := by
  unfold rejectIf
  split <;> simp_all

theorem orThrow_eq_ok (value : Option α) (error : ε) (result : α) :
    orThrow value error = .ok result ↔ value = some result := by
  cases value <;> simp [orThrow]

theorem pure_eq_ok (value result : α) :
    (pure value : Except ε α) = .ok result ↔ value = result := by
  simp [pure, Except.pure]

theorem mapError_eq_ok {δ : Type u} (first : Except ε α) (change : ε → δ) (result : α) :
    first.mapError change = .ok result ↔ first = .ok result := by
  cases first <;> simp [Except.mapError]

/-- A list is taken through a computation element by element. -/
theorem forall₂_of_mapM {f : α → Except ε β} {sources : List α} {results : List β}
    (h : sources.mapM f = .ok results) :
    List.Forall₂ (fun source result => f source = .ok result) sources results := by
  induction sources generalizing results with
  | nil =>
    cases h
    exact .nil
  | cons source sources ih =>
    rw [List.mapM_cons] at h
    obtain ⟨result, hresult, h⟩ := (bind_eq_ok _ _ _).1 h
    obtain ⟨later, hlater, h⟩ := (bind_eq_ok _ _ _).1 h
    cases h
    exact .cons hresult (ih hlater)

theorem mapM_of_forall₂ {f : α → Except ε β} {sources : List α} {results : List β}
    (h : List.Forall₂ (fun source result => f source = .ok result) sources results) :
    sources.mapM f = .ok results := by
  induction h with
  | nil => rfl
  | cons hfirst _ ih =>
    rw [List.mapM_cons, hfirst, ok_bind, ih]
    rfl

/-- A computation over numbers in a row gives a list place by place. -/
theorem mapM_range'_of_getElem {f : Nat → Except ε β} {start : Nat} {results : List β}
    (h : ∀ place (hplace : place < results.length), f (start + place) = .ok (results.get ⟨place, hplace⟩)) :
    (List.range' start results.length).mapM f = .ok results := by
  induction results generalizing start with
  | nil => rfl
  | cons result results ih =>
    have hfirst : f start = .ok result := h 0 (by simp)
    have hrest : (List.range' (start + 1) results.length).mapM f = .ok results := by
      apply ih
      intro place hplace
      have hnext := h (place + 1) (by simpa using hplace)
      rw [Nat.add_assoc, Nat.add_comm 1]
      exact hnext
    rw [List.length_cons, List.range'_succ, List.mapM_cons, hfirst, ok_bind, hrest]
    rfl

/-- A list of checks is passed by passing each of them. -/
theorem forM_eq_ok {check : α → Except ε PUnit} {list : List α} :
    list.forM check = .ok ⟨⟩ ↔ ∀ x ∈ list, check x = .ok ⟨⟩ := by
  induction list with
  | nil => simp [pure, Except.pure]
  | cons x list ih =>
    have hcons : (x :: list).forM check = (check x >>= fun _ => list.forM check) := rfl
    rw [hcons, bind_eq_ok, List.forall_mem_cons]
    constructor
    · rintro ⟨⟨⟩, hx, hlist⟩
      exact ⟨hx, ih.1 hlist⟩
    · rintro ⟨hx, hlist⟩
      exact ⟨⟨⟩, hx, ih.2 hlist⟩

/-- A sequence that stops does so in its first part or behind it. -/
theorem bind_eq_error (first : Except ε α) (next : α → Except ε β) (error : ε) :
    (first >>= next) = .error error ↔
      first = .error error ∨ ∃ value, first = .ok value ∧ next value = .error error := by
  cases first <;> simp [bind, Except.bind]

theorem rejectIf_eq_error (bad : Prop) [Decidable bad] (error other : ε) :
    rejectIf bad error = .error other ↔ bad ∧ error = other := by
  unfold rejectIf
  split <;> simp_all

/-- An error that no part of a sequence stops with is not how the sequence stops. -/
theorem bind_ne_error {first : Except ε α} {next : α → Except ε β} {error : ε}
    (hfirst : first ≠ .error error) (hnext : ∀ value, next value ≠ .error error) :
    (first >>= next) ≠ .error error := by
  cases first with
  | error other => exact fun heq => hfirst (congrArg Except.error (Except.error.inj heq))
  | ok value => exact hnext value

theorem rejectIf_ne_error {bad : Prop} [Decidable bad] {error other : ε} (hne : error ≠ other) :
    rejectIf bad error ≠ .error other := by
  unfold rejectIf
  split <;> simp [hne]

theorem orThrow_ne_error {value : Option α} {error other : ε} (hne : error ≠ other) :
    orThrow value error ≠ .error other := by
  cases value <;> simp [orThrow, hne]

theorem mapError_ne_error {δ : Type u} {first : Except ε α} {change : ε → δ} {other : δ}
    (hne : ∀ error, change error ≠ other) : first.mapError change ≠ .error other := by
  cases first <;> simp [Except.mapError, hne]

end Outcome
