import PetriLogic.Proofs.Formula.Context
import Mathlib.Logic.Basic
import Mathlib.Logic.Relation

namespace PetriLogic.Formula

/-- A derived operator counts for more than its expansion. -/
def cost {kind : NodeKind} : Formula kind → Nat
  | .truth | .falsity | .test _ => 1
  | .not operand | .modal operand | .eventually operand => operand.cost + 1
  | .and first second | .or first second => first.cost + second.cost + 1
  | .existsUntil hold goal | .forallUntil hold goal => hold.cost + goal.cost + 1
  | .forallModal later next | .existsModal later next => later.cost + next.cost + 1
  | .existsNext later => later.cost + 3
  | .forallNext later => later.cost + 6
  | .possibly goal => goal.cost + 3
  | .invariantly hold => hold.cost + 6
  | .along hold => hold.cost + 4

/-- At places there are five derived operators, and four of them are derived at transitions too. -/
@[elab_as_elim]
theorem derived_cases {motive : {kind : NodeKind} → Formula kind → Prop}
    (existsNext : ∀ later : Formula .place, motive (.existsNext later))
    (forallNext : ∀ {kind : NodeKind} (later : Formula kind), motive (.forallNext later))
    (possibly : ∀ {kind : NodeKind} (goal : Formula kind), motive (.possibly goal))
    (invariantly : ∀ {kind : NodeKind} (hold : Formula kind), motive (.invariantly hold))
    (along : ∀ {kind : NodeKind} (hold : Formula kind), motive (.along hold))
    {kind : NodeKind} {formula : Formula kind} (derived : formula.isDerived = true) :
    motive formula := by
  cases formula with
  | existsNext later =>
      cases kind with
      | place => exact existsNext later
      | transition => cases derived
  | forallNext later => exact forallNext later
  | possibly goal => exact possibly goal
  | invariantly hold => exact invariantly hold
  | along hold => exact along hold
  | _ => cases kind <;> cases derived

/-- An operator that is not derived is its own expansion. -/
theorem expand_of_not_derived {kind : NodeKind} {formula : Formula kind}
    (primitive : formula.isDerived = false) : formula.expand = formula := by
  cases kind <;> cases formula <;> first | rfl | cases primitive

/-- The expansion of a derived operator costs less. -/
theorem cost_expand {kind : NodeKind} {formula : Formula kind}
    (derived : formula.isDerived = true) : formula.expand.cost < formula.cost := by
  refine derived_cases (fun later => Nat.lt_succ_self (later.cost + 2)) ?_ ?_ ?_ ?_ derived <;>
    intros <;> simp only [expand, cost] <;> omega

/-- A cheaper part makes the whole formula cheaper. -/
theorem Context.cost_plug {inner kind : NodeKind} {first second : Formula inner}
    (cheaper : first.cost < second.cost) (context : Context inner kind) :
    (context.plug first).cost < (context.plug second).cost := by
  induction context with
  | hole => exact cheaper
  | _ =>
    simp only [plug, cost]
    omega

/-- Only derived operators have an expansion of their own. -/
theorem isDerived_iff_expand_ne {kind : NodeKind} {formula : Formula kind} :
    formula.isDerived = true ↔ formula.expand ≠ formula := by
  constructor
  · intro derived same
    have cheaper := cost_expand derived
    rw [same] at cheaper
    exact Nat.lt_irrefl _ cheaper
  · intro changed
    cases derived : formula.isDerived with
    | true => rfl
    | false => exact absurd (expand_of_not_derived derived) changed

/-- In one step a derived operator is expanded somewhere in a formula. -/
def Unfolds {kind : NodeKind} (earlier later : Formula kind) : Prop :=
  ∃ (inner : NodeKind) (context : Context inner kind) (part : Formula inner),
    part.isDerived = true ∧ earlier = context.plug part ∧ later = context.plug part.expand

/-- No part of a primitive formula has a derived operator. -/
def IsPrimitive {kind : NodeKind} (formula : Formula kind) : Prop :=
  ∀ (inner : NodeKind) (context : Context inner kind) (part : Formula inner),
    formula = context.plug part → part.isDerived = false

/-- The derived operators of a formula are expanded until none is left. -/
def expandAll : {kind : NodeKind} → Formula kind → Formula kind
  | _, .truth => .truth
  | _, .falsity => .falsity
  | _, .test predicate => .test predicate
  | _, .not operand => .not operand.expandAll
  | _, .and first second => .and first.expandAll second.expandAll
  | _, .or first second => .or first.expandAll second.expandAll
  | _, .modal next => .modal next.expandAll
  | _, .existsUntil hold goal => .existsUntil hold.expandAll goal.expandAll
  | _, .eventually goal => .eventually goal.expandAll
  | _, .forallUntil hold goal => .forallUntil hold.expandAll goal.expandAll
  | _, .forallModal later next => .forallModal later.expandAll next.expandAll
  | _, .existsModal later next => .existsModal later.expandAll next.expandAll
  | _, .existsNext later => (existsNext later.expandAll).expand
  | _, .forallNext later => .not (existsNext (.not later.expandAll)).expand
  | _, .possibly goal => .existsUntil .truth goal.expandAll
  | _, .invariantly hold => .not (.existsUntil .truth (.not hold.expandAll))
  | _, .along hold => .not (.eventually (.not hold.expandAll))

/-- Expanding the outermost operator first makes no difference. -/
theorem expandAll_expand {kind : NodeKind} (formula : Formula kind) :
    formula.expand.expandAll = formula.expandAll := by
  cases kind <;> cases formula <;> rfl

/-- Parts with the same primitive form give formulas with the same one. -/
theorem Context.expandAll_plug_congr {inner kind : NodeKind} {first second : Formula inner}
    (same : first.expandAll = second.expandAll) (context : Context inner kind) :
    (context.plug first).expandAll = (context.plug second).expandAll := by
  induction context with
  | hole => exact same
  | _ => simp only [plug, expandAll, *]

/-- Expansion somewhere in a formula does not change what it is expanded to at last. -/
theorem Unfolds.expandAll_eq {kind : NodeKind} {earlier later : Formula kind}
    (unfolds : earlier.Unfolds later) : later.expandAll = earlier.expandAll := by
  obtain ⟨inner, context, part, _, rfl, rfl⟩ := unfolds
  exact context.expandAll_plug_congr part.expandAll_expand

/-- Each step of expansion lowers the cost. -/
theorem Unfolds.cost_lt {kind : NodeKind} {earlier later : Formula kind}
    (unfolds : earlier.Unfolds later) : later.cost < earlier.cost := by
  obtain ⟨inner, context, part, derived, rfl, rfl⟩ := unfolds
  exact context.cost_plug (cost_expand derived)

/-- Expansion comes to an end, in whatever order it is done. -/
theorem unfolds_wellFounded (kind : NodeKind) :
    WellFounded fun later earlier : Formula kind => earlier.Unfolds later :=
  Subrelation.wf Unfolds.cost_lt (measure cost).wf

/-- A primitive formula is left as it is. -/
theorem IsPrimitive.expandAll_eq {kind : NodeKind} {formula : Formula kind}
    (primitive : formula.IsPrimitive) : formula.expandAll = formula := by
  -- A context for a part of an operand is extended by the operator to one for the same part.
  induction formula with
  | truth | falsity | test predicate => rfl
  | not operand operandHypothesis =>
      rw [expandAll, operandHypothesis fun _ context part same =>
        primitive _ (.not context) part (same ▸ rfl)]
  | and first second firstHypothesis secondHypothesis =>
      rw [expandAll, firstHypothesis fun _ context part same =>
          primitive _ (.andFirst context second) part (same ▸ rfl),
        secondHypothesis fun _ context part same =>
          primitive _ (.andSecond first context) part (same ▸ rfl)]
  | or first second firstHypothesis secondHypothesis =>
      rw [expandAll, firstHypothesis fun _ context part same =>
          primitive _ (.orFirst context second) part (same ▸ rfl),
        secondHypothesis fun _ context part same =>
          primitive _ (.orSecond first context) part (same ▸ rfl)]
  | modal next nextHypothesis =>
      rw [expandAll, nextHypothesis fun _ context part same =>
        primitive _ (.modal context) part (same ▸ rfl)]
  | existsUntil hold goal holdHypothesis goalHypothesis =>
      rw [expandAll, holdHypothesis fun _ context part same =>
          primitive _ (.existsUntilHold context goal) part (same ▸ rfl),
        goalHypothesis fun _ context part same =>
          primitive _ (.existsUntilGoal hold context) part (same ▸ rfl)]
  | eventually goal goalHypothesis =>
      rw [expandAll, goalHypothesis fun _ context part same =>
        primitive _ (.eventually context) part (same ▸ rfl)]
  | forallUntil hold goal holdHypothesis goalHypothesis =>
      rw [expandAll, holdHypothesis fun _ context part same =>
          primitive _ (.forallUntilHold context goal) part (same ▸ rfl),
        goalHypothesis fun _ context part same =>
          primitive _ (.forallUntilGoal hold context) part (same ▸ rfl)]
  | forallModal later next laterHypothesis nextHypothesis =>
      rw [expandAll, laterHypothesis fun _ context part same =>
          primitive _ (.forallModalLater context next) part (same ▸ rfl),
        nextHypothesis fun _ context part same =>
          primitive _ (.forallModalNext later context) part (same ▸ rfl)]
  | existsModal later next laterHypothesis nextHypothesis =>
      rw [expandAll, laterHypothesis fun _ context part same =>
          primitive _ (.existsModalLater context next) part (same ▸ rfl),
        nextHypothesis fun _ context part same =>
          primitive _ (.existsModalNext later context) part (same ▸ rfl)]
  | @existsNext kind later laterHypothesis =>
      cases kind with
      | place => cases primitive _ .hole _ rfl
      | transition =>
          rw [expandAll, laterHypothesis fun _ context part same =>
            primitive _ (.existsNext context) part (same ▸ rfl)]
          rfl
  | @forallNext kind | @possibly kind | @invariantly kind | @along kind =>
      cases kind <;> cases primitive _ .hole _ rfl

/-- Some primitive formula is reached. -/
theorem exists_primitive {kind : NodeKind} (formula : Formula kind) :
    ∃ last, Relation.ReflTransGen Unfolds formula last ∧ last.IsPrimitive := by
  induction formula using (unfolds_wellFounded kind).induction with
  | _ formula inductionHypothesis =>
      by_cases primitive : formula.IsPrimitive
      · exact ⟨formula, .refl, primitive⟩
      · simp only [IsPrimitive, not_forall, Bool.not_eq_false] at primitive
        obtain ⟨inner, context, part, rfl, derived⟩ := primitive
        have unfolds : (context.plug part).Unfolds (context.plug part.expand) :=
          ⟨inner, context, part, derived, rfl, rfl⟩
        obtain ⟨last, steps, ended⟩ := inductionHypothesis _ unfolds
        exact ⟨last, .head unfolds steps, ended⟩

/-- Steps of expansion do not change the primitive form. -/
theorem expandAll_of_steps {kind : NodeKind} {formula last : Formula kind}
    (steps : Relation.ReflTransGen Unfolds formula last) : last.expandAll = formula.expandAll := by
  induction steps with
  | refl => rfl
  | tail _ unfolds inductionHypothesis => rw [unfolds.expandAll_eq, inductionHypothesis]

/-- However a formula is expanded, the same primitive formula comes out. -/
theorem eq_expandAll {kind : NodeKind} {formula last : Formula kind}
    (steps : Relation.ReflTransGen Unfolds formula last) (primitive : last.IsPrimitive) :
    last = formula.expandAll := by
  rw [← expandAll_of_steps steps, primitive.expandAll_eq]

/-- Steps of expansion lead to the primitive form of every formula. -/
theorem steps_expandAll {kind : NodeKind} (formula : Formula kind) :
    Relation.ReflTransGen Unfolds formula formula.expandAll ∧ formula.expandAll.IsPrimitive := by
  obtain ⟨last, steps, primitive⟩ := formula.exists_primitive
  exact eq_expandAll steps primitive ▸ ⟨steps, primitive⟩

end PetriLogic.Formula
