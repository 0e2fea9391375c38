/-
This file works out where formulas hold and remembers the answers.
Every operand is asked at most once for each node, whatever the operators around it are.
-/

import PetriLogic.Formula.Evaluation

namespace PetriLogic

/-- An answer for each node of a net, which is worked out when it is first needed. -/
structure Extent where
  answers : Array (Thunk Bool)

namespace Extent

/-- The nodes of a kind that meet a test. -/
def ofTest (net : Net) (kind : NodeKind) (test : Handle → Bool) : Extent :=
  ⟨(Array.range net.size).map fun handle =>
    Thunk.mk fun _ => net.hasKind kind handle && test handle⟩

def contains (extent : Extent) (handle : Handle) : Bool :=
  match extent.answers[handle]? with
  | none => false
  | some answer => answer.get

/-- The extent of a test contains the nodes of the kind that pass it. -/
theorem containsOfTest (net : Net) (kind : NodeKind) (test : Handle → Bool) (handle : Handle) :
    (ofTest net kind test).contains handle = (net.hasKind kind handle && test handle) := by
  by_cases inside : handle < net.size
  · simp [ofTest, contains, inside, Thunk.get]
  · have unknown : net.hasKind kind handle = false := by
      have : net.nodes[handle]? = none := Array.getElem?_eq_none (Nat.le_of_not_lt inside)
      simp [Net.hasKind, Net.kind?, Net.get?, this]
    simp [ofTest, contains, inside, unknown]

end Extent

namespace Formula

/-- The nodes where a formula holds. -/
def extent (set : PathSet) {kind : NodeKind} (formula : Formula kind) : Extent :=
  let answer := Extent.ofTest set.net kind
  match formula with
  | .truth => answer fun _ => true
  | .falsity => answer fun _ => false
  | .test predicate => answer (predicate.holds set.net)
  | .not operand =>
      let operand := operand.extent set
      answer fun handle => !operand.contains handle
  | .and first second =>
      let first := first.extent set
      let second := second.extent set
      answer fun handle => first.contains handle && second.contains handle
  | .or first second =>
      let first := first.extent set
      let second := second.extent set
      answer fun handle => first.contains handle || second.contains handle
  | .modal next =>
      let next := next.extent set
      answer fun handle => set.modal next.contains handle kind
  | .existsUntil hold goal =>
      let hold := hold.extent set
      let goal := goal.extent set
      answer (set.existsUntil hold.contains goal.contains)
  | .eventually goal =>
      let goal := goal.extent set
      answer (set.eventually goal.contains)
  | .forallUntil hold goal =>
      let hold := hold.extent set
      let goal := goal.extent set
      answer (set.forallUntil hold.contains goal.contains)
  | .forallModal later next =>
      let later := later.extent set
      let next := next.extent set
      answer (set.forallModal later.contains next.contains)
  | .existsModal later next =>
      let later := later.extent set
      let next := next.extent set
      answer (set.existsModal later.contains next.contains)
  | .existsNext later =>
      let later := later.extent set
      answer fun handle => set.existsNext later.contains handle kind
  | .forallNext later =>
      let later := later.extent set
      answer fun handle => set.forallNext later.contains handle kind
  | .possibly goal =>
      let goal := goal.extent set
      answer (set.existsUntil (fun _ => true) goal.contains)
  | .invariantly hold =>
      let hold := hold.extent set
      answer fun handle =>
        !set.existsUntil (fun _ => true) (fun node => !hold.contains node) handle
  | .along hold =>
      let hold := hold.extent set
      answer fun handle => !set.eventually (fun node => !hold.contains node) handle

/-- Membership in the extent of a formula is its value at the node. -/
theorem extentContains (set : PathSet) {kind : NodeKind} (formula : Formula kind) :
    (formula.extent set).contains = formula.holds set := by
  induction formula <;> funext handle <;> simp only [extent, holds, Extent.containsOfTest, *]

end Formula

def Property.extent (set : PathSet) (property : Property) : Extent := property.formula.extent set

/-- Membership in the extent of a property is its value at the node. -/
theorem Property.extentContains (set : PathSet) (property : Property) :
    (property.extent set).contains = property.holds set := by
  funext handle
  simp only [extent, holds, Formula.extentContains]

end PetriLogic
