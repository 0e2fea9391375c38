import PetriLogic.Proofs.Formula.Renumbering
import PetriLogic.Proofs.Net.RoundTrip
import PetriLogic.Proofs.Path.Limit
import PetriLogic.Verification.Verifier

namespace PetriLogic

namespace Net

variable {move : Equiv.Perm Handle} {first second : Net}

namespace Renumbers

/-- Looking an id up in the second net gives the renumbered handle. -/
theorem lookup (renumbers : Renumbers move first second) (firstConsistent : first.Consistent)
    (secondConsistent : second.Consistent) (id : String) :
    second.lookup id = (first.lookup id).map move := by
  have same : second.find? id = (first.find? id).map move := by
    apply Option.ext
    intro handle
    obtain ⟨source, rfl⟩ := move.surjective handle
    simp only [secondConsistent.indexExact, Option.map_eq_some_iff, move.injective.eq_iff,
      exists_eq_right, firstConsistent.indexExact, renumbers.node]
  rw [Net.lookup, Net.lookup, same]
  cases first.find? id <;> rfl

/-- Renumbered nets with renumbered paths have renumbered sets of paths. -/
theorem pathSet (renumbers : Renumbers move first second) (firstConsistent : first.Consistent)
    (secondConsistent : second.Consistent) {firstPaths secondPaths : List Path}
    (paths : (firstPaths.map (Path.renumber move)).Perm secondPaths) :
    PathSet.Renumbers move ⟨first, firstPaths⟩ ⟨second, secondPaths⟩ where
  node := renumbers.node
  terminal := renumbers.successors_eq_nil_iff firstConsistent secondConsistent
  initial := renumbers.predecessors_eq_nil_iff firstConsistent secondConsistent
  path := fun path => by
    rw [← paths.mem_iff, List.mem_map_of_injective (Path.renumber_injective move)]

end Renumbers

/-- A net is read back from its text with the same graph. -/
theorem Built.exists_ofJson {net : Net} (built : net.Built) :
    ∃ back, Net.ofJson net.toJson = .ok back ∧ net.SameGraph back := by
  obtain ⟨back, rebuilt, same⟩ := built.exists_rebuilt
  exact ⟨back, ofJson_toJson rebuilt, same⟩

end Net

namespace Verifier

/-- Both fail with one fault, or they look at as many paths and check all properties alike. -/
inductive Agree : Except Fault Verifier → Except Fault Verifier → Prop where
  | refused (fault : Fault) : Agree (.error fault) (.error fault)
  | ready {first second : Verifier}
      (count : first.paths.paths.length = second.paths.paths.length)
      (verdicts : ∀ property, first.check property = second.check property) :
      Agree (.ok first) (.ok second)

/-- A lookup hands out nodes of the net. -/
theorem lt_size_of_lookup {net : Net} (consistent : net.Consistent) {id : String} {handle : Handle}
    (found : net.lookup id = .ok handle) : handle < net.size :=
  consistent.lt_size_of_find? (Net.lookup_ok_iff.1 found)

/-- The verdicts on a net depend on its nodes and on the ids that its arcs join. -/
theorem agree_of_sameGraph {first second : Net} (firstBuilt : first.Built)
    (secondBuilt : second.Built) (same : first.SameGraph second) (start : String)
    (enumeration : Enumeration) :
    Agree (ofNet first start enumeration) (ofNet second start enumeration) := by
  have firstConsistent := firstBuilt.consistent
  have secondConsistent := secondBuilt.consistent
  obtain ⟨move, renumbers⟩ := same.exists_renumbering firstConsistent secondConsistent
  rw [ofNet, ofNet, renumbers.lookup firstConsistent secondConsistent]
  cases found : first.lookup start with
  | error fault => exact .refused fault
  | ok handle =>
      have known := lt_size_of_lookup firstConsistent found
      have covered := renumbers.covered_perm firstConsistent secondConsistent handle
        enumeration.scope
      have count : (first.covered handle enumeration.scope).length =
          (second.covered (move handle) enumeration.scope).length := by
        rw [← covered.length_eq, List.length_map]
      -- Both nets have equally many paths, so the limit refuses both sets or none.
      simp only [Except.map, bind, Except.bind, Net.pathSet_eq known,
        Net.pathSet_eq (renumbers.lt_size_iff.2 known), Net.limited, count]
      cases enumeration.maxPaths.filter
          (· < (second.covered (move handle) enumeration.scope).length) with
      | some most => exact .refused _
      | none =>
          refine .ready count fun property => ?_
          have sets := renumbers.pathSet firstConsistent secondConsistent covered
          rw [checkIffHolds, checkIffHolds]
          exact (Formula.holds_renumber sets property.formula handle).symm

/--
The verdicts on a net depend on its graph alone, whatever the order in which the net was built.
This holds for nets from texts as well, and for a net that is written and read back.
-/
theorem verdicts_by_graph :
    (∀ {first second : Net}, first.Built → second.Built → first.SameGraph second →
      ∀ (start : String) (enumeration : Enumeration),
        Agree (ofNet first start enumeration) (ofNet second start enumeration)) ∧
    (∀ {source : String} {net : Net}, Net.ofJson source = .ok net → net.Built) ∧
    ∀ {net : Net}, net.Built → ∃ back, Net.ofJson net.toJson = .ok back ∧
      ∀ (start : String) (enumeration : Enumeration),
        Agree (ofNet net start enumeration) (ofNet back start enumeration) := by
  refine ⟨agree_of_sameGraph, Net.Built.ofJson, ?_⟩
  intro net built
  obtain ⟨back, read, same⟩ := built.exists_ofJson
  exact ⟨back, read, agree_of_sameGraph built (.ofJson read) same⟩

/-- This is the ring with its nodes and arcs in another order. -/
def ringTurned : Net where
  id := "ring"
  nodes := #[.place ⟨"C", .empty⟩, .place ⟨"B", .empty⟩, .place ⟨"A", .empty⟩,
    .transition ⟨"t3", .idle⟩, .transition ⟨"t2", .idle⟩, .transition ⟨"t1", .idle⟩]
  arcs := #[⟨3, 0⟩, ⟨1, 3⟩, ⟨4, 2⟩, ⟨1, 4⟩, ⟨5, 1⟩, ⟨2, 5⟩]
  index := [("t1", 5), ("t2", 4), ("t3", 3), ("A", 2), ("B", 1), ("C", 0)]
  outgoing := #[[], [3, 4], [5], [0], [2], [1]]
  incoming := #[[3], [5], [4], [1], [1], [2]]

/-- Both orders lead to the same verdicts. -/
theorem ringWithExit_turned : Net.ringWithExit.Built ∧ ringTurned.Built ∧
    Net.ringWithExit.SameGraph ringTurned ∧
    Agree (ofNet Net.ringWithExit "A" ⟨none, .all⟩) (ofNet ringTurned "A" ⟨none, .all⟩) := by
  have turnedBuilt : ringTurned.Built :=
    .ofDescription (show Net.ofDescription ringTurned.description = .ok ringTurned by rfl)
  have same : Net.ringWithExit.SameGraph ringTurned := by
    have nodes : Net.ringWithExit.nodes.toList.Perm ringTurned.nodes.toList := by decide
    have arcs : Net.ringWithExit.description.arcs.Perm ringTurned.description.arcs := by decide
    refine ⟨fun node => ?_, fun source target => ?_⟩
    · rw [← Array.mem_toList_iff, nodes.mem_iff, Array.mem_toList_iff]
    · rw [← Net.mem_description_arcs, arcs.mem_iff, Net.mem_description_arcs]
  exact ⟨Net.ringWithExit_built, turnedBuilt, same,
    verdicts_by_graph.1 Net.ringWithExit_built turnedBuilt same "A" ⟨none, .all⟩⟩

end Verifier

end PetriLogic
