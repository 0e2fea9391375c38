import PetriLogic.Proofs.Formula.Agreement
import PetriLogic.Proofs.Formula.Context
import PetriLogic.Proofs.Path.Enumeration
import Mathlib.Algebra.Ring.Parity

namespace PetriLogic.Formula

variable {inner kind : NodeKind}

/-- This many negations stand above the hole. -/
def Context.negations {kind : NodeKind} : Context inner kind → Nat
  | .hole => 0
  | .not operand => operand.negations + 1
  | .andFirst part _ | .andSecond _ part | .orFirst part _ | .orSecond _ part | .modal part
  | .existsUntilHold part _ | .existsUntilGoal _ part | .eventually part
  | .forallUntilHold part _ | .forallUntilGoal _ part | .forallModalLater part _
  | .forallModalNext _ part | .existsModalLater part _ | .existsModalNext _ part
  | .existsNext part | .forallNext part | .possibly part | .invariantly part
  | .along part => part.negations

/-- One formula implies the other, and the negations say which one. -/
structure Ordered (set : PathSet) (negations : Nat) (narrow wide : Formula kind) : Prop where
  onward : Even negations → Implies Set.univ set set narrow wide
  back : Odd negations → Implies Set.univ set set wide narrow

namespace Ordered

variable {set : PathSet} {negations : Nat} {narrow wide : Formula inner}

/-- Without negations, the implication goes onward. -/
theorem ofImplies (implied : Implies Set.univ set set narrow wide) : Ordered set 0 narrow wide where
  onward := fun _ => implied
  back := fun odd => absurd odd Nat.not_odd_zero

/-- A monotone operator keeps the order of its operands. -/
theorem lift (ordered : Ordered set negations narrow wide) (operator : Formula inner → Formula kind)
    (monotone : ∀ {narrow wide}, Implies Set.univ set set narrow wide →
      Implies Set.univ set set (operator narrow) (operator wide)) :
    Ordered set negations (operator narrow) (operator wide) where
  onward := fun even => monotone (ordered.onward even)
  back := fun odd => monotone (ordered.back odd)

/-- Negation turns the order round. -/
theorem not (ordered : Ordered set negations narrow wide) :
    Ordered set (negations + 1) (.not narrow) (.not wide) where
  onward := fun even =>
    .not (.refl set) (ordered.back (Nat.not_even_iff_odd.1 (Nat.even_add_one.1 even)))
  back := fun odd =>
    .not (.refl set) (ordered.onward (Nat.not_odd_iff_even.1 (Nat.odd_add_one.1 odd)))

end Ordered

/-- Every operator but negation is monotone in each of its operands. -/
theorem ordered_plug {set : PathSet} {narrow wide : Formula inner}
    (implied : Implies Set.univ set set narrow wide) (context : Context inner kind) :
    Ordered set context.negations (context.plug narrow) (context.plug wide) := by
  have agree := PathSet.Agree.refl set
  have same {kind : NodeKind} (formula : Formula kind) :
      Implies Set.univ set set formula formula := .refl set formula
  induction context with
  | hole => exact .ofImplies implied
  | not _ ordered => exact ordered.not
  | andFirst _ second ordered => exact ordered.lift (.and · second) (.and agree · (same second))
  | andSecond first _ ordered => exact ordered.lift (.and first) (.and agree (same first))
  | orFirst _ second ordered => exact ordered.lift (.or · second) (.or agree · (same second))
  | orSecond first _ ordered => exact ordered.lift (.or first) (.or agree (same first))
  | modal _ ordered => exact ordered.lift .modal (.modal agree)
  | existsUntilHold _ goal ordered =>
      exact ordered.lift (.existsUntil · goal) (.existsUntil agree · (same goal))
  | existsUntilGoal hold _ ordered =>
      exact ordered.lift (.existsUntil hold) (.existsUntil agree (same hold))
  | eventually _ ordered => exact ordered.lift .eventually (.eventually agree)
  | forallUntilHold _ goal ordered =>
      exact ordered.lift (.forallUntil · goal) (.forallUntil agree · (same goal))
  | forallUntilGoal hold _ ordered =>
      exact ordered.lift (.forallUntil hold) (.forallUntil agree (same hold))
  | forallModalLater _ next ordered =>
      exact ordered.lift (.forallModal · next) (.forallModal agree · (same next))
  | forallModalNext later _ ordered =>
      exact ordered.lift (.forallModal later) (.forallModal agree (same later))
  | existsModalLater _ next ordered =>
      exact ordered.lift (.existsModal · next) (.existsModal agree · (same next))
  | existsModalNext later _ ordered =>
      exact ordered.lift (.existsModal later) (.existsModal agree (same later))
  | existsNext _ ordered => exact ordered.lift .existsNext (.existsNext agree)
  | forallNext _ ordered => exact ordered.lift .forallNext (.forallNext agree)
  | possibly _ ordered => exact ordered.lift .possibly (.possibly agree)
  | invariantly _ ordered => exact ordered.lift .invariantly (.invariantly agree)
  | along _ ordered => exact ordered.lift .along (.along agree)

/--
A part that holds more often makes a formula hold more often when an even number of negations
stands above it, and less often when an odd number does.
-/
theorem polarity (set : PathSet) {narrow wide : Formula inner}
    (implied : ∀ handle, narrow.holds set handle = true → wide.holds set handle = true)
    (context : Context inner kind) :
    (Even context.negations → ∀ handle,
      (context.plug narrow).holds set handle = true →
        (context.plug wide).holds set handle = true) ∧
    (Odd context.negations → ∀ handle,
      (context.plug wide).holds set handle = true →
        (context.plug narrow).holds set handle = true) := by
  have ordered : Ordered set context.negations (context.plug narrow) (context.plug wide) :=
    ordered_plug (fun handle _ => implied handle) context
  exact ⟨fun even handle => ordered.onward even handle (Set.mem_univ handle),
    fun odd handle => ordered.back odd handle (Set.mem_univ handle)⟩

/-- Where it is not certain to come to B or C on the ring, it is not certain to come to B. -/
theorem ringWithExit_less_certain :
    let narrow : Formula .place := .test (.id "B")
    let wide : Formula .place := .or (.test (.id "B")) (.test (.id "C"))
    let context : Context .place .place := .not (.forallUntilGoal .truth .hole)
    (∀ handle, narrow.holds Net.ringWithExit.everyPath handle = true →
      wide.holds Net.ringWithExit.everyPath handle = true) ∧
    Odd context.negations ∧
    ∀ handle, (context.plug wide).holds Net.ringWithExit.everyPath handle = true →
      (context.plug narrow).holds Net.ringWithExit.everyPath handle = true := by
  intro narrow wide context
  have implied : ∀ handle, narrow.holds Net.ringWithExit.everyPath handle = true →
      wide.holds Net.ringWithExit.everyPath handle = true := by
    intro handle met
    simp only [narrow, wide, holds, Bool.and_eq_true, Bool.or_eq_true] at met ⊢
    exact ⟨met.1, .inl met⟩
  have odd : Odd context.negations := by decide
  exact ⟨implied, odd, (polarity _ implied context).2 odd⟩

end PetriLogic.Formula
