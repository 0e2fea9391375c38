import Mathlib.Data.List.Forall2

namespace PetriLogic

variable {Failure First Second Item State Value : Type}

/-- A sequence of two computations succeeds when both succeed. -/
theorem bind_ok_iff {first : Except Failure First} {second : First → Except Failure Second}
    {result : Second} :
    (first >>= second) = .ok result ↔ ∃ value, first = .ok value ∧ second value = .ok result := by
  cases first with
  | error failure => simp [bind, Except.bind]
  | ok value => simp [bind, Except.bind]

/-- It fails like the first of the two that fails. -/
theorem bind_error_iff {first : Except Failure First} {second : First → Except Failure Second}
    {failure : Failure} :
    (first >>= second) = .error failure ↔
      first = .error failure ∨ ∃ value, first = .ok value ∧ second value = .error failure := by
  cases first with
  | error other => simp [bind, Except.bind]
  | ok value => simp [bind, Except.bind]

/-- Renaming failures changes no success. -/
theorem mapError_ok_iff {Other : Type} {change : Failure → Other} {first : Except Failure Value}
    {value : Value} : first.mapError change = .ok value ↔ first = .ok value := by
  cases first <;> simp [Except.mapError]

/-- A renamed failure comes from a failure of the original computation. -/
theorem mapError_error_iff {Other : Type} {change : Failure → Other}
    {first : Except Failure Value} {other : Other} :
    first.mapError change = .error other ↔
      ∃ failure, first = .error failure ∧ change failure = other := by
  cases first <;> simp [Except.mapError]

/-- A sequence of steps fails with its first step that fails. -/
theorem foldlM_error_iff {step : State → Item → Except Failure State} {items : List Item}
    {state : State} {failure : Failure} :
    items.foldlM step state = .error failure ↔ ∃ before item after middle,
      items = before ++ item :: after ∧ before.foldlM step state = .ok middle ∧
        step middle item = .error failure := by
  induction items generalizing state with
  | nil => simp [pure, Except.pure]
  | cons first items inductionHypothesis =>
      rw [List.foldlM_cons, bind_error_iff]
      constructor
      · rintro (fails | ⟨next, taken, fails⟩)
        · exact ⟨[], first, items, state, rfl, rfl, fails⟩
        · obtain ⟨before, item, after, middle, rfl, earlier, later⟩ := inductionHypothesis.1 fails
          refine ⟨first :: before, item, after, middle, rfl, ?_, later⟩
          rw [List.foldlM_cons, taken]
          exact earlier
      · rintro ⟨before, item, after, middle, split, earlier, fails⟩
        cases before with
        | nil =>
            cases split
            cases earlier
            exact .inl fails
        | cons other before =>
            cases split
            rw [List.foldlM_cons] at earlier
            obtain ⟨next, taken, rest⟩ := bind_ok_iff.1 earlier
            have later := inductionHypothesis.2 ⟨before, item, after, middle, rfl, rest, fails⟩
            exact .inr ⟨next, taken, later⟩

/-- All items are worked through when each of them has its value. -/
theorem mapM_ok_iff {work : Item → Except Failure Value} {items : List Item}
    {values : List Value} :
    items.mapM work = .ok values ↔
      List.Forall₂ (fun item value => work item = .ok value) items values := by
  induction items generalizing values with
  | nil => simp [pure, Except.pure, eq_comm]
  | cons first items inductionHypothesis =>
      simp only [List.mapM_cons, bind_ok_iff, inductionHypothesis, List.forall₂_cons_left_iff]
      constructor
      · rintro ⟨value, worked, others, later, same⟩
        cases same
        exact ⟨value, others, worked, later, rfl⟩
      · rintro ⟨value, others, worked, later, rfl⟩
        exact ⟨value, worked, others, later, rfl⟩

/-- The first item that fails stops the work. -/
theorem mapM_error_iff {work : Item → Except Failure Value} {items : List Item}
    {failure : Failure} :
    items.mapM work = .error failure ↔ ∃ before item after, items = before ++ item :: after ∧
      (∀ earlier ∈ before, ∃ value, work earlier = .ok value) ∧ work item = .error failure := by
  induction items with
  | nil => simp [pure, Except.pure]
  | cons first items inductionHypothesis =>
      rw [List.mapM_cons, bind_error_iff]
      constructor
      · rintro (fails | ⟨value, worked, fails⟩)
        · exact ⟨[], first, items, rfl, List.forall_mem_nil _, fails⟩
        · rcases bind_error_iff.1 fails with fails | ⟨_, _, never⟩
          · obtain ⟨before, item, after, rfl, earlier, later⟩ := inductionHypothesis.1 fails
            exact ⟨first :: before, item, after, rfl,
              List.forall_mem_cons.2 ⟨⟨value, worked⟩, earlier⟩, later⟩
          · cases never
      · rintro ⟨before, item, after, split, earlier, fails⟩
        cases before with
        | nil =>
            cases split
            exact .inl fails
        | cons other before =>
            cases split
            obtain ⟨⟨value, worked⟩, others⟩ := List.forall_mem_cons.1 earlier
            have later := inductionHypothesis.2 ⟨before, item, after, rfl, others, fails⟩
            exact .inr ⟨value, worked, bind_error_iff.2 (.inl later)⟩

end PetriLogic
