import Chat2DB.Agent.Compaction

/-! # Prepared messages are settled

What `ContextManager::prepare` hands on is within the hard limits of the provider, and
preparing it once more leaves it as it is.
-/

namespace Chat2DB.Agent

variable {J : Type} {manager : ContextManager J} {messages result : List (Message J)}

/-- `ContextBudget::new` admits no threshold above the limits themselves. -/
theorem ContextBudget.reached_of_exceeded {budget : ContextBudget} {usage : ContextUsage}
    (hpercent : budget.compactionThresholdPercent ≤ 100) (hexceeded : budget.exceeded usage = true) :
    budget.thresholdReached usage = true := by
  have hscaled : ∀ limit used, limit < used →
      saturatingMul limit budget.compactionThresholdPercent ≤ saturatingMul used 100 := by
    intro limit used hless
    exact min_le_min_right _ (Nat.mul_le_mul hless.le hpercent)
  unfold exceeded at hexceeded
  rw [Bool.or_eq_true] at hexceeded
  rw [thresholdReached, Bool.or_eq_true]
  rcases hexceeded with hbytes | htokens
  · left
    exact decide_eq_true (hscaled _ _ (of_decide_eq_true hbytes))
  · right
    rw [Option.any_eq_true] at htokens
    obtain ⟨limit, hlimit, hless⟩ := htokens
    rw [tokensReached, hlimit, Option.any_some]
    exact decide_eq_true (hscaled _ _ (of_decide_eq_true hless))

/-- The messages fit, and where they reach the threshold no turn can be left out. -/
def ContextManager.Settled (manager : ContextManager J) (messages : List (Message J)) : Prop :=
  ∃ usage, manager.estimate messages = .ok usage ∧ manager.budget.exceeded usage = false ∧
    (manager.budget.thresholdReached usage = true → compactableTurns messages = [])

/-- The loop stops below the threshold or where no turn is left. -/
theorem trim_stops {removedTurns removed : Nat} {counts : Nat × Nat}
    (htrim : trim manager messages removedTurns removed = .ok (result, counts)) :
    ∃ usage, manager.estimate result = .ok usage ∧
      (manager.budget.thresholdReached usage = true → compactableTurns result = []) := by
  induction messages, removedTurns, removed using trim.induct manager with
  | case1 messages removedTurns removed error herror =>
    rw [trim, herror] at htrim
    cases htrim
  | case2 messages removedTurns removed usage husage hreached hnone =>
    rw [trim] at htrim
    simp only [husage, if_pos hreached] at htrim
    split at htrim
    · obtain ⟨rfl, -⟩ := Prod.mk.inj (Except.ok.inj htrim)
      exact ⟨usage, husage, fun _ => List.head?_eq_none_iff.mp hnone⟩
    · rename_i range hrange
      cases hnone.symm.trans hrange
  | case3 messages removedTurns removed usage husage hreached range hrange _ ih =>
    rw [trim] at htrim
    simp only [husage, if_pos hreached] at htrim
    split at htrim
    · rename_i hnone
      cases hnone.symm.trans hrange
    · rename_i other hother
      obtain rfl := Option.some.inj (hrange.symm.trans hother)
      exact ih htrim
  | case4 messages removedTurns removed usage husage hbelow =>
    rw [trim] at htrim
    simp only [husage, if_neg hbelow] at htrim
    obtain ⟨rfl, -⟩ := Prod.mk.inj (Except.ok.inj htrim)
    exact ⟨usage, husage, fun hreached => absurd hreached hbelow⟩

/-- What trimming returns is settled. -/
theorem prepareByTrim_settled {ranges : List (Nat × Nat)} {before : ContextUsage}
    {summaryFailed : Bool} {event : Option CompactionEvent}
    (hprepare : prepareByTrim manager messages ranges before summaryFailed = .ok (result, event)) :
    manager.Settled result := by
  unfold prepareByTrim at hprepare
  split at hprepare
  · cases hprepare
  rename_i trimmed removedTurns removed htrim
  obtain ⟨usage, husage, hstops⟩ := trim_stops htrim
  simp only [husage] at hprepare
  split at hprepare
  · cases hprepare
  · rename_i hfits
    obtain ⟨rfl, -⟩ := Prod.mk.inj (Except.ok.inj hprepare)
    exact ⟨usage, husage, by simpa using hfits, hstops⟩

/-- Whatever a preparation returns is settled. -/
theorem prepare_settled (hpercent : manager.budget.compactionThresholdPercent ≤ 100)
    {event : Option CompactionEvent} (hprepare : prepare manager messages = .ok (result, event)) :
    manager.Settled result := by
  have hfits : ∀ usage, ¬manager.budget.thresholdReached usage = true →
      manager.budget.exceeded usage = false := by
    intro usage hbelow
    rw [← Bool.not_eq_true]
    exact fun hexceeded => hbelow (ContextBudget.reached_of_exceeded hpercent hexceeded)
  unfold prepare at hprepare
  split at hprepare
  · cases hprepare
  rename_i before hbefore
  split at hprepare
  · split at hprepare
    · rename_i hnone
      split at hprepare
      · cases hprepare
      · rename_i hexceeded
        obtain ⟨rfl, -⟩ := Prod.mk.inj (Except.ok.inj hprepare)
        exact ⟨before, hbefore, by simpa using hexceeded, fun _ => hnone⟩
    · dsimp only at hprepare
      split at hprepare
      · exact prepareByTrim_settled hprepare
      · split at hprepare
        · cases hprepare
        · exact prepareByTrim_settled hprepare
        · split at hprepare
          · split at hprepare
            · cases hprepare
            · rename_i after hafter
              split at hprepare
              · exact prepareByTrim_settled hprepare
              · rename_i hbelow
                obtain ⟨rfl, -⟩ := Prod.mk.inj (Except.ok.inj hprepare)
                exact ⟨after, hafter, hfits after hbelow, fun hreached => absurd hreached hbelow⟩
          · exact prepareByTrim_settled hprepare
  · rename_i hbelow
    obtain ⟨rfl, -⟩ := Prod.mk.inj (Except.ok.inj hprepare)
    exact ⟨before, hbefore, hfits before hbelow, fun hreached => absurd hreached hbelow⟩

/-- Nothing is taken out, and nothing is put in place of anything. -/
def CompactionEvent.Empty (event : CompactionEvent) : Prop :=
  event.removedTurns = 0 ∧ event.replacementSummary = none ∧ event.compactedMessageRange = none

/-- Settled messages are prepared as they are. -/
theorem ContextManager.Settled.prepare_eq (hsettled : manager.Settled messages) :
    ∃ event, prepare manager messages = .ok (messages, event) ∧
      ∀ report ∈ event, report.Empty := by
  obtain ⟨usage, husage, hfits, hstops⟩ := hsettled
  by_cases hreached : manager.budget.thresholdReached usage = true
  · have hnothing : prepare manager messages = .ok (messages, some
        { cause := compactionCause manager.budget usage, strategy := .deterministicTrim
          removedTurns := 0, summaryFailed := false, before := usage, after := usage
          replacementSummary := none, compactedMessageRange := none }) := by
      rw [prepare, husage]
      simp only [if_pos hreached, hstops hreached, hfits, Bool.false_eq_true, if_false]
    refine ⟨_, hnothing, fun report hreport => ?_⟩
    obtain rfl := Option.some.inj hreport
    exact ⟨rfl, rfl, rfl⟩
  · refine ⟨none, ?_, by simp⟩
    rw [prepare, husage]
    simp only [if_neg hreached]

/-- Prepared messages fit into the budget, and preparing them again leaves them alone. -/
theorem prepare_settles (manager : ContextManager J)
    (hpercent : manager.budget.compactionThresholdPercent ≤ 100)
    (messages result : List (Message J)) (event : Option CompactionEvent)
    (hprepare : prepare manager messages = .ok (result, event)) :
    (∃ usage, manager.estimate result = .ok usage ∧ manager.budget.exceeded usage = false) ∧
      ∃ again, prepare manager result = .ok (result, again) ∧ ∀ report ∈ again, report.Empty := by
  have hsettled := prepare_settled hpercent hprepare
  obtain ⟨usage, husage, hfits, -⟩ := id hsettled
  exact ⟨⟨usage, husage, hfits⟩, hsettled.prepare_eq⟩

/-- The manager that answers with a summary. -/
theorem askedTwice_settles :
    ∃ again, prepare summarizingManager
        [.system "You are an assistant", summaryMessage "listed the tables",
          { role := .user, blocks := [.text "How many rows?"] }] =
      .ok ([.system "You are an assistant", summaryMessage "listed the tables",
          { role := .user, blocks := [.text "How many rows?"] }], again) ∧
      ∀ report ∈ again, report.Empty :=
  (prepare_settles summarizingManager (by decide) askedTwice _ _ rfl).2

end Chat2DB.Agent
