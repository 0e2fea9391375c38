import PetriLogic.Proofs.Net.SameGraph
import PetriLogic.Proofs.Path.DepthFirst
import PetriLogic.Proofs.Path.Limit

namespace PetriLogic

variable {move : Equiv.Perm Handle}

/-- The nodes of a path get other numbers. -/
def Path.renumber (move : Equiv.Perm Handle) (path : Path) : Path :=
  ⟨path.nodes.map move, by simpa using path.nonempty⟩

namespace Path

@[simp] theorem renumber_nodes (path : Path) : (path.renumber move).nodes = path.nodes.map move :=
  rfl

@[simp] theorem renumber_first (path : Path) : (path.renumber move).first = move path.first := by
  have begins := (path.renumber move).head?_nodes
  rw [renumber_nodes, List.head?_map, head?_nodes] at begins
  exact (Option.some.inj begins).symm

/-- A path that is renumbered there and back is the same. -/
theorem renumber_symm_renumber (move : Equiv.Perm Handle) (path : Path) :
    (path.renumber move.symm).renumber move = path := by
  apply eq_of_nodes
  simp

/-- Different paths stay different when they are renumbered. -/
theorem renumber_injective (move : Equiv.Perm Handle) : Function.Injective (renumber move) := by
  intro first second same
  have nodes := congrArg Path.nodes same
  exact eq_of_nodes (move.injective.list_map nodes)

/-- Every path comes from one that is renumbered. -/
theorem renumber_surjective (move : Equiv.Perm Handle) : Function.Surjective (renumber move) :=
  fun path => ⟨_, path.renumber_symm_renumber move⟩

end Path

namespace Net

variable {first second : Net}

/-- No trace of a node is listed twice. -/
theorem traces_nodup {net : Net} (consistent : net.Consistent) (start : Handle) :
    (net.traces start).Nodup :=
  (Path.completions_ordered consistent _).imp Precedes.ne

namespace Renumbers

/-- A renumbered node has no successors exactly when the node has none. -/
theorem successors_eq_nil_iff (renumbers : Renumbers move first second)
    (firstConsistent : first.Consistent) (secondConsistent : second.Consistent) (handle : Handle) :
    second.successors (move handle) = [] ↔ first.successors handle = [] := by
  rw [firstConsistent.successors_eq_nil_iff, secondConsistent.successors_eq_nil_iff,
    ← move.forall_congr_right]
  simp only [renumbers.arc]

/-- A renumbered node has no predecessors exactly when the node has none. -/
theorem predecessors_eq_nil_iff (renumbers : Renumbers move first second)
    (firstConsistent : first.Consistent) (secondConsistent : second.Consistent) (handle : Handle) :
    second.predecessors (move handle) = [] ↔ first.predecessors handle = [] := by
  rw [firstConsistent.predecessors_eq_nil_iff, secondConsistent.predecessors_eq_nil_iff,
    ← move.forall_congr_right]
  simp only [renumbers.arc]

/-- Renumbered nodes are a trace of the second net exactly when the nodes are one of the first. -/
theorem isTrace_iff (renumbers : Renumbers move first second)
    (firstConsistent : first.Consistent) (secondConsistent : second.Consistent) {start : Handle}
    {nodes : List Handle} :
    second.IsTrace (move start) (nodes.map move) ↔ first.IsTrace start nodes := by
  have begins : (nodes.map move).head? = some (move start) ↔ nodes.head? = some start := by
    simp [List.head?_map]
  have follows : (nodes.map move).IsChain second.HasArc ↔ nodes.IsChain first.HasArc := by
    simp only [List.isChain_map, renumbers.arc]
  have fresh : (nodes.map move).dropLast.Nodup ↔ nodes.dropLast.Nodup := by
    rw [← List.map_dropLast, List.nodup_map_iff move.injective]
  have stops : (∀ finish ∈ (nodes.map move).getLast?, finish ∈ (nodes.map move).dropLast ∨
        second.successors finish = []) ↔
      ∀ finish ∈ nodes.getLast?, finish ∈ nodes.dropLast ∨ first.successors finish = [] := by
    have before (handle : Handle) :
        move handle ∈ (nodes.map move).dropLast ↔ handle ∈ nodes.dropLast := by
      rw [← List.map_dropLast, List.mem_map_of_injective move.injective]
    rw [← move.forall_congr_right]
    simp only [before, List.getLast?_map, Option.mem_def, Option.map_eq_some_iff,
      move.injective.eq_iff, exists_eq_right,
      renumbers.successors_eq_nil_iff firstConsistent secondConsistent]
  constructor
  · intro trace
    exact ⟨begins.1 trace.begins, follows.1 trace.follows, fresh.1 trace.fresh,
      stops.1 trace.stops⟩
  · intro trace
    exact ⟨begins.2 trace.begins, follows.2 trace.follows, fresh.2 trace.fresh,
      stops.2 trace.stops⟩

/-- The search finds the renumbered paths, in an order of its own. -/
theorem traces_perm (renumbers : Renumbers move first second)
    (firstConsistent : first.Consistent) (secondConsistent : second.Consistent) (start : Handle) :
    ((first.traces start).map (Path.renumber move)).Perm (second.traces (move start)) := by
  have fresh := (traces_nodup firstConsistent start).map (Path.renumber_injective move)
  refine (List.perm_ext_iff_of_nodup fresh (traces_nodup secondConsistent _)).2 fun path => ?_
  rw [mem_traces_iff secondConsistent, List.mem_map]
  constructor
  · intro listed
    obtain ⟨source, member, rfl⟩ := listed
    rw [Path.renumber_nodes, renumbers.isTrace_iff firstConsistent secondConsistent]
    exact (mem_traces_iff firstConsistent).1 member
  · intro trace
    rw [← path.renumber_symm_renumber move, Path.renumber_nodes,
      renumbers.isTrace_iff firstConsistent secondConsistent] at trace
    exact ⟨_, (mem_traces_iff firstConsistent).2 trace, path.renumber_symm_renumber move⟩

/-- A renumbering keeps the known handles apart from the others. -/
theorem lt_size_iff (renumbers : Renumbers move first second) {handle : Handle} :
    move handle < second.size ↔ handle < first.size := by
  rw [← kind?_isSome_iff, ← kind?_isSome_iff, kind?, kind?, renumbers.node]

/-- The handles of a renumbered net are the renumbered handles, in some order. -/
theorem handles_perm (renumbers : Renumbers move first second) :
    (first.handles.map move).Perm second.handles := by
  refine (List.perm_ext_iff_of_nodup (List.nodup_range.map move.injective)
    List.nodup_range).2 fun handle => ?_
  obtain ⟨source, rfl⟩ := move.surjective handle
  simp only [List.mem_map_of_injective move.injective, List.mem_range,
    renumbers.lt_size_iff]

/-- The limit counts as many paths in one net as in the other. -/
theorem covered_perm (renumbers : Renumbers move first second)
    (firstConsistent : first.Consistent) (secondConsistent : second.Consistent) (start : Handle)
    (scope : Scope) :
    ((first.covered start scope).map (Path.renumber move)).Perm
      (second.covered (move start) scope) := by
  have each := renumbers.traces_perm firstConsistent secondConsistent
  cases scope with
  | fromStart => exact each start
  | all =>
      simp only [covered, List.map_flatMap]
      refine .trans ?_ (renumbers.handles_perm.flatMap_right second.traces)
      rw [List.flatMap_map]
      exact List.Perm.flatMap_left _ fun origin _ => each origin

end Renumbers

end Net

end PetriLogic
