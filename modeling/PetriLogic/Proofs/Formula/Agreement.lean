import PetriLogic.Formula.Evaluation
import PetriLogic.Proofs.Net.Construction
import PetriLogic.Proofs.Temporal.Agreement
import Mathlib.Tactic.Tauto

namespace PetriLogic

namespace Formula

/-- In a region the second formula holds over the second paths where the first one does. -/
def Implies (region : Set Handle) (first second : PathSet) {kind : NodeKind}
    (narrow wide : Formula kind) : Prop :=
  ImpliesOn region (narrow.holds first) (wide.holds second)

namespace Implies

variable {region : Set Handle} {first second : PathSet} {kind : NodeKind}
  {narrow wide otherNarrow otherWide : Formula kind} {next moreNext : Formula kind.other}

/-- A formula implies itself over one set. -/
theorem refl (set : PathSet) (formula : Formula kind) : Implies region set set formula formula :=
  ImpliesOn.refl region _

section

variable (agree : PathSet.Agree region first second)
include agree

/-- Formulas are tested at nodes of their kind, which are the same nodes for both nets. -/
theorem guard {test moreTest : Handle → Bool} (implied : ImpliesOn region test moreTest)
    (kind : NodeKind) :
    ImpliesOn region (fun handle => first.net.hasKind kind handle && test handle)
      (fun handle => second.net.hasKind kind handle && moreTest handle) :=
  (agree.hasKind kind).and implied

/-- Negation turns an implication round. -/
theorem not (implied : Implies region second first wide narrow) :
    Implies region first second (.not narrow) (.not wide) :=
  guard agree (ImpliesOn.not implied) kind

/-- Implications carry over to conjunctions. -/
theorem and (implied : Implies region first second narrow wide)
    (others : Implies region first second otherNarrow otherWide) :
    Implies region first second (.and narrow otherNarrow) (.and wide otherWide) :=
  guard agree (ImpliesOn.and implied others) kind

/-- Implications carry over to disjunctions. -/
theorem or (implied : Implies region first second narrow wide)
    (others : Implies region first second otherNarrow otherWide) :
    Implies region first second (.or narrow otherNarrow) (.or wide otherWide) :=
  guard agree (ImpliesOn.or implied others) kind

/-- An implication carries over to the modal operator. -/
theorem modal (implied : Implies region first second next moreNext) :
    Implies region first second (.modal next) (.modal moreNext) :=
  guard agree (agree.modal implied kind) kind

/-- Implications of the condition and of the goal carry over to the existential until. -/
theorem existsUntil (held : Implies region first second narrow wide)
    (met : Implies region first second otherNarrow otherWide) :
    Implies region first second (.existsUntil narrow otherNarrow) (.existsUntil wide otherWide) :=
  guard agree (agree.existsUntil held met) kind

/-- An implication of the goal carries over to the eventual goal. -/
theorem eventually (met : Implies region first second narrow wide) :
    Implies region first second (.eventually narrow) (.eventually wide) :=
  guard agree (agree.eventually met) kind

/-- Implications of the condition and of the goal carry over to the universal until. -/
theorem forallUntil (held : Implies region first second narrow wide)
    (met : Implies region first second otherNarrow otherWide) :
    Implies region first second (.forallUntil narrow otherNarrow) (.forallUntil wide otherWide) :=
  guard agree (agree.forallUntil held met) kind

/-- Implications of both operands carry over to the universal modal operator. -/
theorem forallModal (later : Implies region first second narrow wide)
    (implied : Implies region first second next moreNext) :
    Implies region first second (.forallModal narrow next) (.forallModal wide moreNext) :=
  guard agree (agree.forallModal later implied) kind

/-- Implications of both operands carry over to the existential modal operator. -/
theorem existsModal (later : Implies region first second narrow wide)
    (implied : Implies region first second next moreNext) :
    Implies region first second (.existsModal narrow next) (.existsModal wide moreNext) :=
  guard agree (agree.existsModal later implied) kind

/-- An implication carries over to the existential next. -/
theorem existsNext (later : Implies region first second narrow wide) :
    Implies region first second (.existsNext narrow) (.existsNext wide) :=
  guard agree (agree.existsNext later kind) kind

/-- An implication carries over to the universal next. -/
theorem forallNext (later : Implies region first second narrow wide) :
    Implies region first second (.forallNext narrow) (.forallNext wide) :=
  guard agree (agree.forallNext later kind) kind

/-- An implication of the goal carries over to the possible goal. -/
theorem possibly (met : Implies region first second narrow wide) :
    Implies region first second (.possibly narrow) (.possibly wide) :=
  guard agree (agree.existsUntil (.refl region _) met) kind

/-- What holds invariantly fails nowhere, so two negations cancel each other. -/
theorem invariantly (held : Implies region first second narrow wide) :
    Implies region first second (.invariantly narrow) (.invariantly wide) :=
  guard agree (agree.symm.existsUntil (.refl region _) (ImpliesOn.not held)).not kind

/-- An implication of the condition carries over to what holds along some path. -/
theorem along (held : Implies region first second narrow wide) :
    Implies region first second (.along narrow) (.along wide) :=
  guard agree (agree.symm.eventually (ImpliesOn.not held)).not kind

end

end Implies

/-- These are the predicates that a formula asks for. -/
def tests : {kind : NodeKind} → Formula kind → List Predicate
  | _, .truth | _, .falsity => []
  | _, .test predicate => [predicate]
  | _, .not operand | _, .modal operand | _, .eventually operand | _, .existsNext operand
  | _, .forallNext operand | _, .possibly operand | _, .invariantly operand
  | _, .along operand => operand.tests
  | _, .and first second | _, .or first second | _, .existsUntil first second
  | _, .forallUntil first second | _, .forallModal first second
  | _, .existsModal first second => first.tests ++ second.tests

variable {region : Set Handle} {first second : PathSet} {kind : NodeKind}

/-- The tests of a formula have the same answers for both nets. -/
def TestsAgree (region : Set Handle) (first second : PathSet) (formula : Formula kind) : Prop :=
  ∀ predicate ∈ formula.tests, ∀ handle ∈ region,
    predicate.holds first.net handle = predicate.holds second.net handle

/-- The two nets can be exchanged. -/
theorem TestsAgree.symm {formula : Formula kind} (same : TestsAgree region first second formula) :
    TestsAgree region second first formula :=
  fun predicate member handle inside => (same predicate member handle inside).symm

/-- Where sets of paths agree, a formula that holds over one of them holds over the other. -/
theorem implies_of_agree (agree : PathSet.Agree region first second) {formula : Formula kind}
    (same : TestsAgree region first second formula) :
    Implies region first second formula formula := by
  -- Below a negation the two sets change places.
  induction formula generalizing first second with
  | truth | falsity => exact Implies.guard agree (.refl region _) _
  | test predicate =>
      refine Implies.guard agree (fun handle inside met => ?_) _
      rwa [← same predicate List.mem_cons_self handle inside]
  | not operand inductionHypothesis =>
      exact .not agree (inductionHypothesis agree.symm same.symm)
  | modal next inductionHypothesis => exact .modal agree (inductionHypothesis agree same)
  | eventually goal inductionHypothesis => exact .eventually agree (inductionHypothesis agree same)
  | existsNext later inductionHypothesis => exact .existsNext agree (inductionHypothesis agree same)
  | forallNext later inductionHypothesis => exact .forallNext agree (inductionHypothesis agree same)
  | possibly goal inductionHypothesis => exact .possibly agree (inductionHypothesis agree same)
  | invariantly hold inductionHypothesis =>
      exact .invariantly agree (inductionHypothesis agree same)
  | along hold inductionHypothesis => exact .along agree (inductionHypothesis agree same)
  | and one other oneHypothesis otherHypothesis =>
      obtain ⟨sameOne, sameOther⟩ := List.forall_mem_append.1 same
      exact .and agree (oneHypothesis agree sameOne) (otherHypothesis agree sameOther)
  | or one other oneHypothesis otherHypothesis =>
      obtain ⟨sameOne, sameOther⟩ := List.forall_mem_append.1 same
      exact .or agree (oneHypothesis agree sameOne) (otherHypothesis agree sameOther)
  | existsUntil hold goal holdHypothesis goalHypothesis =>
      obtain ⟨sameHold, sameGoal⟩ := List.forall_mem_append.1 same
      exact .existsUntil agree (holdHypothesis agree sameHold) (goalHypothesis agree sameGoal)
  | forallUntil hold goal holdHypothesis goalHypothesis =>
      obtain ⟨sameHold, sameGoal⟩ := List.forall_mem_append.1 same
      exact .forallUntil agree (holdHypothesis agree sameHold) (goalHypothesis agree sameGoal)
  | forallModal later next laterHypothesis nextHypothesis =>
      obtain ⟨sameLater, sameNext⟩ := List.forall_mem_append.1 same
      exact .forallModal agree (laterHypothesis agree sameLater) (nextHypothesis agree sameNext)
  | existsModal later next laterHypothesis nextHypothesis =>
      obtain ⟨sameLater, sameNext⟩ := List.forall_mem_append.1 same
      exact .existsModal agree (laterHypothesis agree sameLater) (nextHypothesis agree sameNext)

/-- A formula with agreeing tests has the same value over sets that agree around the node. -/
theorem holds_of_agree (agree : PathSet.Agree region first second) {formula : Formula kind}
    (same : TestsAgree region first second formula) {handle : Handle} (inside : handle ∈ region) :
    formula.holds first handle = formula.holds second handle :=
  Bool.eq_iff_iff.2
    ⟨implies_of_agree agree same handle inside, implies_of_agree agree.symm same.symm handle inside⟩

/-- The value of a formula depends on which paths there are, not on their order or repetition. -/
theorem holds_by_membership (net : Net) {firstPaths secondPaths : List Path}
    (same : ∀ path, path ∈ firstPaths ↔ path ∈ secondPaths) (formula : Formula kind)
    (handle : Handle) :
    formula.holds ⟨net, firstPaths⟩ handle = formula.holds ⟨net, secondPaths⟩ handle := by
  have agree : PathSet.Agree Set.univ ⟨net, firstPaths⟩ ⟨net, secondPaths⟩ := by
    refine ⟨fun _ _ => rfl, fun handle _ path => ?_, fun _ _ _ _ node _ => Set.mem_univ node⟩
    simp only [PathSet.startingAt, List.mem_filter, same]
  exact holds_of_agree agree (fun _ _ _ _ => rfl) (Set.mem_univ handle)

/-- Two loops that lead to each other's anchors are settled alike in both orders. -/
theorem holds_of_reversed :
    let first : Path := ⟨[0, 3, 1, 4, 1], by simp⟩
    let second : Path := ⟨[1, 4, 0, 5, 0], by simp⟩
    let formula : Formula .place := .forallUntil (.not (.test (.id "C"))) (.test (.id "C"))
    (∀ path, path ∈ [first, second] ↔ path ∈ [second, first, second]) ∧
      formula.holds ⟨Net.ringWithExit, [first, second]⟩ 0 =
        formula.holds ⟨Net.ringWithExit, [second, first, second]⟩ 0 := by
  intro first second formula
  have same : ∀ path, path ∈ [first, second] ↔ path ∈ [second, first, second] := by
    intro path
    simp only [List.mem_cons, List.not_mem_nil, or_false]
    tauto
  exact ⟨same, holds_by_membership Net.ringWithExit same formula 0⟩

end Formula

end PetriLogic
