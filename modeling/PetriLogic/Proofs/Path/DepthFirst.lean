import PetriLogic.Proofs.Path.Enumeration

namespace PetriLogic

namespace Net

/-- Where two paths part, the first one takes the arc that is listed earlier. -/
def Precedes (net : Net) (first second : Path) : Prop :=
  ∃ shared previous earlier later firstRest secondRest,
    first.nodes = shared ++ previous :: earlier :: firstRest ∧
    second.nodes = shared ++ previous :: later :: secondRest ∧
    earlier ∈ net.successors previous ∧ later ∈ net.successors previous ∧
    (net.successors previous).idxOf earlier < (net.successors previous).idxOf later

/-- A path does not part from itself. -/
theorem Precedes.ne {net : Net} {first second : Path} (precedes : net.Precedes first second) :
    first ≠ second := by
  intro alike
  subst alike
  obtain ⟨shared, previous, earlier, later, _, _, whole, wholeToo, _, _, ordered⟩ := precedes
  have same := whole.symm.trans wholeToo
  simp only [List.append_cancel_left_eq, List.cons.injEq] at same
  rw [same.2.1] at ordered
  exact Nat.lt_irrefl _ ordered

/-- Different nodes stand in a list in the order of their positions. -/
theorem pairwise_idxOf {handles : List Handle} (distinct : handles.Nodup) :
    handles.Pairwise fun earlier later =>
      earlier ∈ handles ∧ later ∈ handles ∧ handles.idxOf earlier < handles.idxOf later := by
  rw [List.pairwise_iff_getElem]
  intro first second firstInside secondInside ordered
  refine ⟨List.getElem_mem _, List.getElem_mem _, ?_⟩
  rwa [distinct.idxOf_getElem, distinct.idxOf_getElem]

end Net

namespace Path

/-- A path begins each of its completions. -/
theorem part_of_mem_completions {net : Net} {path longer : Path}
    (member : longer ∈ path.completions net) : path.nodes <+: longer.nodes := by
  induction path using completions_induction net with
  | maximal path maximal =>
      rw [completions_of_maximal maximal, List.mem_singleton] at member
      exact member ▸ List.prefix_rfl
  | extensible path extensible inductionHypothesis =>
      rw [completions_of_extensible extensible] at member
      obtain ⟨extension, inExtensions, inCompletions⟩ := List.mem_flatMap.1 member
      obtain ⟨next, _, rfl⟩ := List.mem_map.1 inExtensions
      exact (List.prefix_append _ _).trans (inductionHypothesis _ inExtensions inCompletions)

/-- Paths that go on to different successors are ordered as these are. -/
theorem precedes_of_push {net : Net} {path first second : Path} {earlier later : Handle}
    (firstMember : first ∈ (path.push earlier).completions net)
    (secondMember : second ∈ (path.push later).completions net)
    (ordered : earlier ∈ net.successors path.last ∧ later ∈ net.successors path.last ∧
      (net.successors path.last).idxOf earlier < (net.successors path.last).idxOf later) :
    net.Precedes first second := by
  obtain ⟨firstRest, firstWhole⟩ := part_of_mem_completions firstMember
  obtain ⟨secondRest, secondWhole⟩ := part_of_mem_completions secondMember
  refine ⟨path.beginning, path.last, earlier, later, firstRest, secondRest, ?_, ?_, ordered⟩
  · rw [← firstWhole, push_nodes, ← path.nodesSplit]
    simp
  · rw [← secondWhole, push_nodes, ← path.nodesSplit]
    simp

/-- The maximal paths come in depth-first order. -/
theorem completions_ordered {net : Net} (consistent : net.Consistent) (path : Path) :
    (path.completions net).Pairwise net.Precedes := by
  induction path using completions_induction net with
  | maximal path maximal =>
      rw [completions_of_maximal maximal]
      exact List.pairwise_singleton _ _
  | extensible path extensible inductionHypothesis =>
      rw [completions_of_extensible extensible, List.pairwise_flatMap]
      refine ⟨inductionHypothesis, ?_⟩
      rw [extensions, List.pairwise_map]
      apply (Net.pairwise_idxOf (consistent.successors_nodup path.last)).imp
      intro earlier later ordered first firstMember second secondMember
      exact precedes_of_push firstMember secondMember ordered

end Path

namespace Net

/--
Without a limit the search from a node lists each trace from it once, in depth-first order.
The search from all nodes lists these paths one node after the other.
-/
theorem enumeration_exact {net : Net} (built : net.Built) :
    ∃ pathsOf : Handle → List Path,
      (∀ start < net.size,
        net.pathsFrom none start = .ok ⟨net, pathsOf start⟩ ∧
        (pathsOf start).Nodup ∧
        (∀ nodes, (∃ path ∈ pathsOf start, path.nodes = nodes) ↔ net.IsTrace start nodes) ∧
        (pathsOf start).Pairwise net.Precedes) ∧
      net.allPaths none = .ok ⟨net, net.handles.flatMap pathsOf⟩ ∧
      ∀ start < net.size,
        PathSet.startingAt ⟨net, net.handles.flatMap pathsOf⟩ start = pathsOf start := by
  have consistent := built.consistent
  refine ⟨net.traces, fun start known => ?_, net.allPaths_none,
    fun start known => startingAt_everyPath consistent known⟩
  have ordered : (net.traces start).Pairwise net.Precedes := Path.completions_ordered consistent _
  refine ⟨pathsFrom_none known, ordered.imp Precedes.ne, fun nodes => ?_, ordered⟩
  constructor
  · intro listed
    obtain ⟨path, member, rfl⟩ := listed
    exact (mem_traces_iff consistent).1 member
  · intro trace
    have nonempty : nodes ≠ [] := List.ne_nil_of_mem (List.mem_of_mem_head? trace.begins)
    exact ⟨⟨nodes, nonempty⟩, (mem_traces_iff consistent).2 trace, rfl⟩

/-- The search finds the round of a ring. -/
theorem ringWithExit_round_found : ringWithExit.Built ∧
    ∃ paths, ringWithExit.pathsFrom none 0 = .ok ⟨ringWithExit, paths⟩ ∧
      ∃ path ∈ paths, path.nodes = [0, 3, 1, 4, 0] := by
  refine ⟨ringWithExit_built, ?_⟩
  obtain ⟨pathsOf, each, _⟩ := enumeration_exact ringWithExit_built
  obtain ⟨searched, _, traces, _⟩ := each 0 (by decide)
  exact ⟨pathsOf 0, searched, (traces _).2 ⟨rfl, by decide, by decide, by decide⟩⟩

end Net

end PetriLogic
