import Mathlib

/-! # Relations without a cycle

A finite set whose members all point to a member contains a cycle, and a list
that has what each member points to before the member excludes one.
-/

namespace Precedence

universe u

variable {α : Type u} {r : α → α → Prop}

/-- Nothing leads back to itself. -/
def Acyclic (r : α → α → Prop) : Prop := ∀ a, ¬ Relation.TransGen r a a

/-- Some member of a finite set points to no member of it. -/
theorem exists_sink (hacyclic : Acyclic r) {set : Finset α} (hset : set.Nonempty) :
    ∃ a ∈ set, ∀ b ∈ set, ¬ r a b := by
  let below : set → set → Prop := fun b a => Relation.TransGen r a b
  have htrans : IsTrans set below := ⟨fun _ _ _ hfirst hsecond => hsecond.trans hfirst⟩
  have hirrefl : Std.Irrefl below := ⟨fun a => hacyclic a⟩
  have hwellFounded : WellFounded below := Finite.wellFounded_of_trans_of_irrefl below
  obtain ⟨first, hfirst⟩ := hset
  obtain ⟨sink, -, hsink⟩ := hwellFounded.has_min Set.univ ⟨⟨first, hfirst⟩, trivial⟩
  refine ⟨sink, sink.2, fun b hb hpoints => ?_⟩
  exact hsink ⟨b, hb⟩ trivial (.single hpoints)

/-- What a member of the list points to stands before it. -/
def Respects (r : α → α → Prop) (list : List α) : Prop :=
  ∀ before a after, list = before ++ a :: after → ∀ b, r a b → b ∈ before

theorem respects_nil : Respects r [] := by
  intro before a after hsplit
  simp at hsplit

theorem Respects.append_singleton {list : List α} {next : α} (hlist : Respects r list)
    (hnext : ∀ b, r next b → b ∈ list) : Respects r (list ++ [next]) := by
  intro before a after hsplit b hpoints
  rcases List.eq_nil_or_concat after with rfl | ⟨rest, last, rfl⟩
  · obtain ⟨rfl, hlast⟩ := List.append_inj' hsplit rfl
    obtain rfl := List.head_eq_of_cons_eq hlast
    exact hnext b hpoints
  · rw [List.concat_eq_append, ← List.cons_append, ← List.append_assoc] at hsplit
    obtain ⟨rfl, -⟩ := List.append_inj' hsplit rfl
    exact hlist before a rest rfl b hpoints

/-- A list that respects the relation and has everything that points excludes a cycle. -/
theorem acyclic_of_respects [DecidableEq α] {list : List α} (hnodup : list.Nodup)
    (hlist : Respects r list) (hall : ∀ a b, r a b → a ∈ list) : Acyclic r := by
  have hstep : ∀ a b, r a b → list.idxOf b < list.idxOf a := by
    intro a b hpoints
    obtain ⟨before, after, hsplit⟩ := List.append_of_mem (hall a b hpoints)
    have hbefore := hlist before a after hsplit b hpoints
    have hfresh : a ∉ before := by
      rw [hsplit] at hnodup
      intro hmem
      exact (List.nodup_append.mp hnodup).2.2 a hmem a List.mem_cons_self rfl
    rw [hsplit, List.idxOf_append_of_mem hbefore, List.idxOf_append_of_notMem hfresh]
    have hplace := List.idxOf_lt_length_iff.mpr hbefore
    omega
  have hpath : ∀ a b, Relation.TransGen r a b → list.idxOf b < list.idxOf a := by
    intro a b hleads
    induction hleads with
    | single hpoints => exact hstep a _ hpoints
    | tail _ hpoints ih => exact Nat.lt_trans (hstep _ _ hpoints) ih
  exact fun a hcycle => Nat.lt_irrefl _ (hpath a a hcycle)

end Precedence
