import PetriLogic.Proofs.Formula.Expansion
import PetriLogic.Proofs.Temporal.Alternation

namespace PetriLogic.Formula

variable {set : PathSet} {kind : NodeKind} {handle : Handle}

/-- No formula holds at nodes of the other kind. -/
theorem holds_of_other_kind (unknown : set.net.hasKind kind handle = false)
    (formula : Formula kind) : formula.holds set handle = false := by
  rw [holds.eq_def, unknown, Bool.false_and]

/-- At a node of its kind, the negation of a formula has the opposite value. -/
theorem holds_not (known : set.net.hasKind kind handle = true) (operand : Formula kind) :
    (Formula.not operand).holds set handle = !operand.holds set handle := by
  rw [holds, known, Bool.true_and]

/-- An expansion tests the kinds of nodes, which makes no difference on alternating paths. -/
theorem holds_expand_of_derived (alternates : set.Alternates) {formula : Formula kind}
    (derived : formula.isDerived = true) :
    ∀ handle, set.net.hasKind kind handle = true →
      formula.expand.holds set handle = formula.holds set handle := by
  refine derived_cases ?_ ?_ ?_ ?_ ?_ derived
  · intro later handle known
    have ofKind : ∀ successor ∈ set.successors handle,
        set.net.hasKind .transition successor = true := fun successor follows =>
      alternates.hasKind_successor known follows
    simp only [expand, holds, known, Bool.true_and, PathSet.modal, PathSet.existsNext]
    rw [Bool.eq_iff_iff]
    simp only [List.any_eq_true, Bool.and_eq_true]
    exact exists_congr fun successor => and_congr_right fun follows =>
      and_iff_right (ofKind successor follows)
  · intro kind later handle known
    have same : set.existsNext ((Formula.not later).holds set) handle kind =
        set.existsNext (fun node => !later.holds set node) handle kind :=
      alternates.existsNext_congr known fun node ofKind => holds_not ofKind later
    simp only [expand, holds_not known]
    simp only [holds, known, Bool.true_and, PathSet.forallNext_eq_not_existsNext, ← same]
  · intro kind goal handle known
    simp only [expand, holds, known, Bool.true_and]
    exact alternates.existsUntil_congr known (fun node ofKind => by rw [ofKind]; rfl) fun _ _ => rfl
  · intro kind hold handle known
    have same : set.existsUntil (fun _ => true) ((Formula.not hold).holds set) handle =
        set.existsUntil (fun _ => true) (fun node => !hold.holds set node) handle :=
      alternates.existsUntil_congr known (fun _ _ => rfl) fun node ofKind => holds_not ofKind hold
    simp only [expand, holds_not known]
    simp only [holds, known, Bool.true_and, ← same]
  · intro kind hold handle known
    have same : set.eventually ((Formula.not hold).holds set) handle =
        set.eventually (fun node => !hold.holds set node) handle :=
      alternates.eventually_congr known fun node ofKind => holds_not ofKind hold
    simp only [expand, holds_not known]
    simp only [holds, known, Bool.true_and, ← same]

/-- Over alternating paths a formula has the value of its expansion. -/
theorem holds_expand (alternates : set.Alternates) (formula : Formula kind) :
    formula.expand.holds set = formula.holds set := by
  cases derived : formula.isDerived with
  | false => rw [expand_of_not_derived derived]
  | true =>
      funext handle
      cases known : set.net.hasKind kind handle with
      | false => rw [holds_of_other_kind known, holds_of_other_kind known]
      | true => exact holds_expand_of_derived alternates derived handle known

/-- Expanding one derived operator changes no value over alternating paths. -/
theorem holds_of_unfolds (alternates : set.Alternates) {earlier later : Formula kind}
    (unfolds : earlier.Unfolds later) : later.holds set = earlier.holds set := by
  obtain ⟨inner, context, part, _, rfl, rfl⟩ := unfolds
  exact context.holds_plug_congr (holds_expand alternates part)

/-- Expanding all derived operators changes no value over alternating paths. -/
theorem holds_expandAll (alternates : set.Alternates) (formula : Formula kind) :
    formula.expandAll.holds set = formula.holds set := by
  obtain ⟨steps, _⟩ := formula.steps_expandAll
  generalize formula.expandAll = last at steps
  induction steps with
  | refl => rfl
  | tail _ unfolds inductionHypothesis =>
      rw [holds_of_unfolds alternates unfolds, inductionHypothesis]

/--
The derived operators are those that have an expansion. Expanding them anywhere in a formula
comes to an end, always at the same formula, which has no derived operator.
Over alternating paths, such as the search finds, all these formulas have the same value.
-/
theorem derived_exact :
    (∀ (kind : NodeKind) (formula : Formula kind),
      formula.isDerived = true ↔ formula.expand ≠ formula) ∧
    (∀ kind : NodeKind, WellFounded fun later earlier : Formula kind => earlier.Unfolds later) ∧
    (∀ (kind : NodeKind) (formula : Formula kind),
      Relation.ReflTransGen Unfolds formula formula.expandAll ∧
      formula.expandAll.IsPrimitive ∧
      ∀ last, Relation.ReflTransGen Unfolds formula last → last.IsPrimitive →
        last = formula.expandAll) ∧
    (∀ set : PathSet, set.Alternates →
      ∀ (kind : NodeKind) (formula : Formula kind) (handle : Handle),
        formula.expand.holds set handle = formula.holds set handle ∧
        formula.expandAll.holds set handle = formula.holds set handle) ∧
    ∀ net : Net, net.Built → ∀ start < net.size, ∀ (enumeration : Enumeration) (set : PathSet),
      net.pathSet enumeration start = .ok set → set.Alternates := by
  refine ⟨fun _ _ => isDerived_iff_expand_ne, unfolds_wellFounded, ?_, ?_, ?_⟩
  · intro kind formula
    obtain ⟨steps, primitive⟩ := formula.steps_expandAll
    exact ⟨steps, primitive, fun last => eq_expandAll⟩
  · intro set alternates kind formula handle
    rw [holds_expand alternates, holds_expandAll alternates]
    exact ⟨rfl, rfl⟩
  · intro net built start known enumeration set
    exact built.consistent.alternates known

/-- On the ring it is possible to come to C, and the expansion says so too. -/
theorem ringWithExit_expanded :
    Net.ringWithExit.Built ∧ 0 < Net.ringWithExit.size ∧
      Net.ringWithExit.pathSet ⟨none, .all⟩ 0 = .ok Net.ringWithExit.everyPath ∧
      Net.ringWithExit.everyPath.Alternates ∧
      let formula : Formula .place := .possibly (.existsNext (.test (.id "C")))
      let primitive : Formula .place := .existsUntil .truth (.modal (.modal (.test (.id "C"))))
      formula.expandAll = primitive ∧ primitive.IsPrimitive ∧
        primitive.holds Net.ringWithExit.everyPath 0 =
          formula.holds Net.ringWithExit.everyPath 0 := by
  have found : Net.ringWithExit.pathSet ⟨none, .all⟩ 0 = .ok Net.ringWithExit.everyPath :=
    Net.ringWithExit.allPaths_none
  obtain ⟨_, _, expanded, same, alternate⟩ := derived_exact
  have alternates := alternate _ Net.ringWithExit_built 0 (by decide) _ _ found
  obtain ⟨steps, primitive, unique⟩ := expanded .place (.possibly (.existsNext (.test (.id "C"))))
  have valued := (same _ alternates .place (.possibly (.existsNext (.test (.id "C")))) 0).2
  exact ⟨Net.ringWithExit_built, by decide, found, alternates, (unique _ steps primitive).symm,
    primitive, valued⟩

end PetriLogic.Formula
