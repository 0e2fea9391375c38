import PetriLogic.Proofs.Net.Consistency
import Mathlib.Data.List.Nodup
import Mathlib.Data.List.Perm.Subperm
import Mathlib.Logic.Equiv.Defs

namespace PetriLogic.Net

/-- Some arc leads from a node with the first id to a node with the second one. -/
def Links (net : Net) (source target : String) : Prop :=
  ∃ arc ∈ net.arcs, net.idOf arc.source = source ∧ net.idOf arc.target = target

/-- Two nets have the same nodes, and arcs between the same ids, in whatever order. -/
structure SameGraph (first second : Net) : Prop where
  nodes : ∀ node, node ∈ first.nodes ↔ node ∈ second.nodes
  links : ∀ source target, first.Links source target ↔ second.Links source target

/-- A node is known by its id. -/
theorem Consistent.handle_eq {net : Net} (consistent : net.Consistent) {first second : Handle}
    {node other : Node} (found : net.get? first = some node)
    (foundToo : net.get? second = some other) (sameId : node.id = other.id) : first = second := by
  have isFirst := (consistent.indexExact node.id first).2 ⟨node, found, rfl⟩
  have isSecond := (consistent.indexExact node.id second).2 ⟨other, foundToo, sameId.symm⟩
  exact Option.some.inj (isFirst.symm.trans isSecond)

/-- An arc joins two nodes exactly when their ids are linked. -/
theorem Consistent.hasArc_iff_links {net : Net} (consistent : net.Consistent)
    {source target : Handle} :
    net.HasArc source target ↔ ∃ first second, net.get? source = some first ∧
      net.get? target = some second ∧ net.Links first.id second.id := by
  constructor
  · intro arc
    obtain ⟨kind, sourceKind, targetKind⟩ := consistent.arcsAlternate _ arc
    obtain ⟨first, found, _⟩ := Option.map_eq_some_iff.1 sourceKind
    obtain ⟨second, foundToo, _⟩ := Option.map_eq_some_iff.1 targetKind
    exact ⟨first, second, found, foundToo, _, arc, by simp [idOf, found], by simp [idOf, foundToo]⟩
  · intro linked
    obtain ⟨first, second, found, foundToo, ⟨start, finish⟩, arc, sourceId, targetId⟩ := linked
    obtain ⟨kind, sourceKind, targetKind⟩ := consistent.arcsAlternate _ arc
    obtain ⟨node, isStart, _⟩ := Option.map_eq_some_iff.1 sourceKind
    obtain ⟨other, isFinish, _⟩ := Option.map_eq_some_iff.1 targetKind
    simp only [idOf, isStart, isFinish, Option.map_some, Option.getD_some] at sourceId targetId
    rw [← consistent.handle_eq isStart found sourceId,
      ← consistent.handle_eq isFinish foundToo targetId]
    exact arc

/-- The position that the node at a handle has in another list of the same nodes. -/
def relocate (first second : List Node) (handle : Handle) : Handle :=
  match first[handle]? with
  | some node => second.idxOf node
  | none => handle

/-- The other list has the node at the new position. -/
theorem getElem?_relocate {first second : List Node} (same : first.Perm second) (handle : Handle) :
    second[relocate first second handle]? = first[handle]? := by
  rw [relocate]
  cases found : first[handle]? with
  | some node =>
      have member : node ∈ second := same.mem_iff.1 (List.mem_of_getElem? found)
      exact List.getElem?_idxOf member
  | none =>
      rw [List.getElem?_eq_none_iff, same.length_eq] at found
      exact List.getElem?_eq_none found

/-- The way there and back leads to the same position. -/
theorem relocate_relocate {first second : List Node} (same : first.Perm second)
    (fresh : first.Nodup) (handle : Handle) :
    relocate second first (relocate first second handle) = handle := by
  rw [relocate, getElem?_relocate same]
  cases found : first[handle]? with
  | some node =>
      obtain ⟨inside, rfl⟩ := List.getElem?_eq_some_iff.1 found
      exact fresh.idxOf_getElem handle inside
  | none => simp [relocate, found]

/-- Handles beyond the nodes keep their numbers. -/
def renumbering (first second : List Node) (same : first.Perm second) (fresh : first.Nodup) :
    Equiv.Perm Handle where
  toFun := relocate first second
  invFun := relocate second first
  left_inv := relocate_relocate same fresh
  right_inv := relocate_relocate same.symm (same.nodup_iff.1 fresh)

/-- The handles of one net are those of another one after a renumbering. -/
structure Renumbers (move : Equiv.Perm Handle) (first second : Net) : Prop where
  node : ∀ handle, second.get? (move handle) = first.get? handle
  arc : ∀ source target, second.HasArc (move source) (move target) ↔ first.HasArc source target

/-- A consistent net lists no node twice. -/
theorem Consistent.nodes_nodup {net : Net} (consistent : net.Consistent) : net.nodes.toList.Nodup :=
  consistent.idsDiffer.of_map _

/-- Nets with the same graph differ in their numbering only. -/
theorem SameGraph.exists_renumbering {first second : Net} (same : first.SameGraph second)
    (firstConsistent : first.Consistent) (secondConsistent : second.Consistent) :
    ∃ move, Renumbers move first second := by
  have fresh := firstConsistent.nodes_nodup
  have shuffled : first.nodes.toList.Perm second.nodes.toList :=
    (List.perm_ext_iff_of_nodup fresh secondConsistent.nodes_nodup).2 fun node => by
      simpa using same.nodes node
  have node (handle : Handle) :
      second.get? (renumbering _ _ shuffled fresh handle) = first.get? handle := by
    have moved := getElem?_relocate shuffled handle
    rwa [Array.getElem?_toList, Array.getElem?_toList] at moved
  refine ⟨renumbering _ _ shuffled fresh, node, ?_⟩
  intro source target
  rw [secondConsistent.hasArc_iff_links, firstConsistent.hasArc_iff_links]
  simp only [node, same.links]

end PetriLogic.Net
