import PetriLogic.Path.Enumeration
import PetriLogic.Proofs.Net.Walks
import PetriLogic.Proofs.Path.Loops

namespace PetriLogic

namespace Path

/-- A path is determined by its nodes. -/
theorem eq_of_nodes {first second : Path} (same : first.nodes = second.nodes) :
    first = second := by
  cases first
  cases second
  simpa using same

@[simp] theorem single_nodes (handle : Handle) : (single handle).nodes = [handle] := rfl

@[simp] theorem push_nodes (path : Path) (handle : Handle) :
    (path.push handle).nodes = path.nodes ++ [handle] := rfl

@[simp] theorem push_beginning (path : Path) (handle : Handle) :
    (path.push handle).beginning = path.nodes := by
  simp [beginning]

/-- The nodes of a path end in its last node. -/
theorem getLast?_nodes (path : Path) : path.nodes.getLast? = some path.last :=
  List.getLast?_eq_some_getLast path.nonempty

/-- The nodes of a path begin with its first node. -/
theorem head?_nodes (path : Path) : path.nodes.head? = some path.first :=
  List.head?_eq_some_head path.nonempty

/-- A path goes on when its last node is new and has successors. -/
theorem isMaximal_eq_false_iff {net : Net} {path : Path} :
    path.isMaximal net = false ↔ net.successors path.last ≠ [] ∧ path.last ∉ path.beginning := by
  simp [isMaximal]

/-- A path that can be extended repeats no node. -/
theorem nodes_nodup {net : Net} {path : Path} (fresh : path.beginning.Nodup)
    (extensible : path.isMaximal net = false) : path.nodes.Nodup := by
  rw [← nodesSplit]
  have isNew := (isMaximal_eq_false_iff.1 extensible).2
  exact List.concat_eq_append ▸ fresh.concat isNew

/-- These are the maximal paths that a path begins, in the order of the search. -/
def completions (net : Net) (path : Path) : List Path :=
  if _maximal : path.isMaximal net then [path]
  else (path.extensions net).attach.flatMap fun longer => longer.1.completions net
termination_by (path.unvisited net).length
decreasing_by exact unvisitedExtension (Bool.eq_false_iff.2 _maximal) longer.2

/-- A maximal path is its only completion. -/
theorem completions_of_maximal {net : Net} {path : Path} (maximal : path.isMaximal net = true) :
    path.completions net = [path] := by
  rw [completions, dif_pos maximal]

/-- The completions of other paths are those of their extensions. -/
theorem completions_of_extensible {net : Net} {path : Path}
    (extensible : path.isMaximal net = false) :
    path.completions net = (path.extensions net).flatMap (completions net) := by
  rw [completions, dif_neg (Bool.eq_false_iff.1 extensible)]
  simp

/-- A property of the maximal paths holds of every path whose extensions all have it. -/
theorem completions_induction (net : Net) {property : Path → Prop}
    (maximal : ∀ path, path.isMaximal net = true → property path)
    (extensible : ∀ path, path.isMaximal net = false →
      (∀ longer ∈ path.extensions net, property longer) → property path)
    (path : Path) : property path := by
  cases ended : path.isMaximal net with
  | true => exact maximal path ended
  | false =>
      exact extensible path ended fun longer member =>
        completions_induction net maximal extensible longer
termination_by (path.unvisited net).length
decreasing_by exact unvisitedExtension ended member

/-- Every path begins at least one maximal path. -/
theorem completions_ne_nil {net : Net} (path : Path) : path.completions net ≠ [] := by
  induction path using completions_induction net with
  | maximal path maximal => simp [completions_of_maximal maximal]
  | extensible path extensible inductionHypothesis =>
      rw [completions_of_extensible extensible]
      obtain ⟨leadsOn, _⟩ := isMaximal_eq_false_iff.1 extensible
      obtain ⟨successor, member⟩ := List.exists_mem_of_ne_nil _ leadsOn
      have inExtensions : path.push successor ∈ path.extensions net :=
        List.mem_map.2 ⟨successor, member, rfl⟩
      intro empty
      exact inductionHypothesis _ inExtensions (List.flatMap_eq_nil_iff.1 empty _ inExtensions)

/-- The walk of a longer path leaves the last node by an arc. -/
theorem arc_of_append {net : Net} {path : Path} {next : Handle} {rest : List Handle}
    (follows : (path.nodes ++ next :: rest).IsChain net.HasArc) : net.HasArc path.last next :=
  (List.isChain_append.1 follows).2.2 _ path.getLast?_nodes _ rfl

/-- A path that follows the arcs can be continued along one more. -/
theorem push_follows {net : Net} {path : Path} {next : Handle}
    (follows : path.nodes.IsChain net.HasArc) (arc : net.HasArc path.last next) :
    (path.push next).nodes.IsChain net.HasArc := by
  apply follows.append (.singleton next)
  intro last isLast first isFirst
  rw [getLast?_nodes] at isLast
  cases isLast
  cases isFirst
  exact arc

/-- A path with an end is no proper beginning of a path that repeats only its last node. -/
theorem eq_of_maximal {net : Net} (consistent : net.Consistent) {path longer : Path}
    (maximal : path.isMaximal net = true) (isPart : path.nodes <+: longer.nodes)
    (follows : longer.nodes.IsChain net.HasArc) (fresh : longer.beginning.Nodup) :
    longer = path := by
  obtain ⟨rest, whole⟩ := isPart
  cases rest with
  | nil => exact eq_of_nodes (by simpa using whole.symm)
  | cons next rest =>
      exfalso
      have arc : net.HasArc path.last next := arc_of_append (whole ▸ follows)
      have leadsOn : net.successors path.last ≠ [] :=
        List.ne_nil_of_mem (consistent.mem_successors_iff.2 arc)
      have isBeginning : path.nodes <+: longer.beginning := by
        rw [beginning, ← whole, List.dropLast_append_of_ne_nil (List.cons_ne_nil _ _)]
        exact List.prefix_append _ _
      have nodesFresh := fresh.sublist isBeginning.sublist
      rw [← path.nodesSplit] at nodesFresh
      have isNew : path.last ∉ path.beginning := fun earlier =>
        List.disjoint_of_nodup_append nodesFresh earlier List.mem_cons_self
      rw [isMaximal_eq_false_iff.2 ⟨leadsOn, isNew⟩] at maximal
      cases maximal

/-- The maximal paths that a path begins are its longer walks that end where they have to. -/
theorem mem_completions_iff {net : Net} (consistent : net.Consistent) {path longer : Path}
    (follows : path.nodes.IsChain net.HasArc) (fresh : path.beginning.Nodup) :
    longer ∈ path.completions net ↔
      path.nodes <+: longer.nodes ∧ longer.nodes.IsChain net.HasArc ∧
        longer.beginning.Nodup ∧ longer.isMaximal net = true := by
  induction path using completions_induction net with
  | maximal path maximal =>
      rw [completions_of_maximal maximal, List.mem_singleton]
      constructor
      · intro same
        rw [same]
        exact ⟨List.prefix_rfl, follows, fresh, maximal⟩
      · intro described
        obtain ⟨isPart, longerFollows, longerFresh, _⟩ := described
        exact eq_of_maximal consistent maximal isPart longerFollows longerFresh
  | extensible path extensible inductionHypothesis =>
      rw [completions_of_extensible extensible, List.mem_flatMap]
      have step {next : Handle} (arc : net.HasArc path.last next) :=
        inductionHypothesis (path.push next)
          (List.mem_map.2 ⟨next, consistent.mem_successors_iff.2 arc, rfl⟩)
          (push_follows follows arc) (by simpa using nodes_nodup fresh extensible)
      constructor
      · intro found
        obtain ⟨extension, inExtensions, inCompletions⟩ := found
        obtain ⟨next, member, rfl⟩ := List.mem_map.1 inExtensions
        obtain ⟨isPart, rest⟩ := (step (consistent.mem_successors_iff.1 member)).1 inCompletions
        exact ⟨(List.prefix_append _ _).trans isPart, rest⟩
      · intro described
        obtain ⟨⟨rest, whole⟩, longerFollows, longerFresh, longerMaximal⟩ := described
        cases rest with
        | nil =>
            have same : path = longer := eq_of_nodes (by simpa using whole)
            rw [same, longerMaximal] at extensible
            cases extensible
        | cons next rest =>
            -- The node behind the path tells which extension the longer path begins with.
            have arc : net.HasArc path.last next := arc_of_append (whole ▸ longerFollows)
            have member := consistent.mem_successors_iff.2 arc
            refine ⟨path.push next, List.mem_map.2 ⟨next, member, rfl⟩, (step arc).2 ?_⟩
            exact ⟨⟨rest, by simp [whole]⟩, longerFollows, longerFresh, longerMaximal⟩

end Path

end PetriLogic
