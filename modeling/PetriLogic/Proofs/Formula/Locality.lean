import PetriLogic.Proofs.Formula.Agreement
import PetriLogic.Proofs.Net.Operations
import PetriLogic.Proofs.Path.Region

namespace PetriLogic

namespace Predicate

mutual

/-- Some part of the predicate asks whether arcs enter the node. -/
def asksInitial : Predicate → Bool
  | .all operands | .any operands => someAsksInitial operands
  | .not operand => asksInitial operand
  | .initial => true
  | _ => false

def someAsksInitial : List Predicate → Bool
  | [] => false
  | operand :: operands => asksInitial operand || someAsksInitial operands

end

variable {first second : Net} {handle : Handle}

mutual

/-- Such a predicate asks for the node itself and for arcs that leave it. -/
theorem holds_of_same (node : first.get? handle = second.get? handle)
    (terminal : first.successors handle = [] ↔ second.successors handle = [])
    {predicate : Predicate} (silent : predicate.asksInitial = false) :
    predicate.holds first handle = predicate.holds second handle := by
  rw [holds, holds, node]
  cases second.get? handle with
  | none => rfl
  | some value =>
      match predicate with
      | .all operands => exact allHold_of_same node terminal silent
      | .any operands => exact anyHolds_of_same node terminal silent
      | .not operand => exact congrArg (!·) (holds_of_same node terminal silent)
      | .terminal => exact Bool.eq_iff_iff.2 (by simp only [List.isEmpty_iff, terminal])
      | .initial => cases silent
      | .truth | .falsity | .id _ | .tag _ | .reads _ | .writes _ | .erases _ | .kind _ => rfl

/-- Without questions about incoming arcs, a group of all has the same answer in both nets. -/
theorem allHold_of_same (node : first.get? handle = second.get? handle)
    (terminal : first.successors handle = [] ↔ second.successors handle = [])
    {operands : List Predicate} (silent : someAsksInitial operands = false) :
    allHold first handle operands = allHold second handle operands := by
  match operands with
  | [] => rfl
  | operand :: operands =>
      obtain ⟨operandSilent, operandsSilent⟩ := Bool.or_eq_false_iff.1 silent
      rw [allHold, allHold, holds_of_same node terminal operandSilent,
        allHold_of_same node terminal operandsSilent]

/-- Without questions about incoming arcs, a group of any has the same answer in both nets. -/
theorem anyHolds_of_same (node : first.get? handle = second.get? handle)
    (terminal : first.successors handle = [] ↔ second.successors handle = [])
    {operands : List Predicate} (silent : someAsksInitial operands = false) :
    anyHolds first handle operands = anyHolds second handle operands := by
  match operands with
  | [] => rfl
  | operand :: operands =>
      obtain ⟨operandSilent, operandsSilent⟩ := Bool.or_eq_false_iff.1 silent
      rw [anyHolds, anyHolds, holds_of_same node terminal operandSilent,
        anyHolds_of_same node terminal operandsSilent]

end

end Predicate

namespace Net

variable {net : Net} {start : Handle}

/-- Arcs from elsewhere leave the region alone that a node reaches. -/
theorem Consistent.sameWithin_of_extends {larger : Net} (consistent : net.Consistent)
    (known : start < net.size) (extended : net.Extends larger)
    (apart : ∀ source target, larger.HasArc source target → ¬net.HasArc source target →
      ¬net.Reaches start source) :
    SameWithin (net.Reaches start ·) net larger where
  known := fun handle reaches => reaches.known consistent known
  node := by
    intro handle reaches
    have inside := reaches.known consistent known
    have found : net.get? handle = some net.nodes[handle] := Array.getElem?_eq_getElem inside
    rw [found, extended.get? found]
  arc := by
    intro source reaches target
    refine ⟨extended.hasArc, fun arc => ?_⟩
    by_contra isNew
    exact apart source target arc isNew reaches
  closed := fun source reaches target arc => reaches.tail arc

end Net

namespace Formula

/--
The verdict at a node ignores what the node cannot reach. Calls that add arcs elsewhere change no
formula there, unless it asks whether arcs enter a node.
-/
theorem unreached_ignored {net : Net} (reachable : net.Reachable) {start : Handle}
    (known : start < net.size) (operations : List Net.Operation)
    (apart : ∀ source target, (net.afterAll operations).HasArc source target →
      ¬net.HasArc source target → ¬net.Reaches start source) :
    ∃ before after, net.allPaths none = .ok before ∧
      (net.afterAll operations).allPaths none = .ok after ∧
      ∀ (kind : NodeKind) (formula : Formula kind),
        (∀ predicate ∈ formula.tests, predicate.asksInitial = false) →
          formula.holds after start = formula.holds before start := by
  have consistent := reachable.consistent
  have laterConsistent := (reachable.afterAll operations).consistent
  have same := consistent.sameWithin_of_extends known (net.extends_afterAll operations) apart
  refine ⟨net.everyPath, _, net.allPaths_none, Net.allPaths_none _, ?_⟩
  intro kind formula silent
  have tests : TestsAgree (net.Reaches start ·) net.everyPath
      (net.afterAll operations).everyPath formula := by
    intro predicate member handle inside
    exact Predicate.holds_of_same (same.node handle inside)
      (same.successors_eq_nil_iff consistent laterConsistent inside) (silent predicate member)
  exact (holds_of_agree (same.agree consistent laterConsistent) tests .refl).symm

/-- A second way leads from A to C, past t3. -/
def detour : List Net.Operation :=
  [.addTransition ⟨"t4", .idle⟩, .connect "A" "t4", .connect "t4" "C"]

/-- From t3 only C is reached, so the detour changes nothing there. -/
theorem ringWithExit_bypassed :
    Net.ringWithExit.Reachable ∧ 5 < Net.ringWithExit.size ∧
    (∀ source target, (Net.ringWithExit.afterAll detour).HasArc source target →
      ¬Net.ringWithExit.HasArc source target → ¬Net.ringWithExit.Reaches 5 source) ∧
    ∃ before after, Net.ringWithExit.allPaths none = .ok before ∧
      (Net.ringWithExit.afterAll detour).allPaths none = .ok after ∧
      ∀ (kind : NodeKind) (formula : Formula kind),
        (∀ predicate ∈ formula.tests, predicate.asksInitial = false) →
          formula.holds after 5 = formula.holds before 5 := by
  have reachable := Net.ringWithExit_built.reachable
  have known : 5 < Net.ringWithExit.size := by decide
  have reached : ∀ handle, Net.ringWithExit.Reaches 5 handle → handle = 5 ∨ handle = 2 := by
    intro handle reaches
    induction reaches with
    | refl => exact .inl rfl
    | tail _ arc earlier =>
        rcases earlier with rfl | rfl
        · exact .inr (by simpa [Net.HasArc, Net.ringWithExit] using arc)
        · simp [Net.HasArc, Net.ringWithExit] at arc
  have arcs : (Net.ringWithExit.afterAll detour).arcs =
      (Net.ringWithExit.arcs.push ⟨0, 6⟩).push ⟨6, 2⟩ := by decide
  have apart : ∀ source target, (Net.ringWithExit.afterAll detour).HasArc source target →
      ¬Net.ringWithExit.HasArc source target → ¬Net.ringWithExit.Reaches 5 source := by
    intro source target arc isNew reaches
    rw [Net.HasArc, arcs, Array.mem_push, Array.mem_push] at arc
    rcases arc with (old | first) | second
    · exact isNew old
    · cases first
      cases reached 0 reaches <;> contradiction
    · cases second
      cases reached 6 reaches <;> contradiction
  exact ⟨reachable, known, apart, unreached_ignored reachable known detour apart⟩

end Formula

end PetriLogic
