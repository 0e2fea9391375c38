import PetriLogic.Proofs.Net.SameGraph

namespace PetriLogic.Net

/-- A description lists the places of the net before its transitions, both in their order. -/
theorem description_nodes (net : Net) : net.description.nodes =
    net.nodes.toList.filter (·.kind = .place) ++ net.nodes.toList.filter (·.kind = .transition) := by
  have places (nodes : List Node) :
      (nodes.filterMap Node.asPlace?).map .place = nodes.filter (·.kind = .place) := by
    induction nodes with
    | nil => rfl
    | cons node nodes inductionHypothesis =>
        cases node with
        | place value => exact congrArg (.place value :: ·) inductionHypothesis
        | transition value => exact inductionHypothesis
  have transitions (nodes : List Node) :
      (nodes.filterMap Node.asTransition?).map .transition =
        nodes.filter (·.kind = .transition) := by
    induction nodes with
    | nil => rfl
    | cons node nodes inductionHypothesis =>
        cases node with
        | place value => exact inductionHypothesis
        | transition value => exact congrArg (.transition value :: ·) inductionHypothesis
  rw [Description.nodes, description, places, transitions]

/-- Every node is a place or a transition. -/
theorem isTransition_eq (node : Node) :
    decide (node.kind = .transition) = !decide (node.kind = .place) := by
  cases node <;> rfl

/-- Places and transitions together are the nodes of the net. -/
theorem description_nodes_perm (net : Net) : net.description.nodes.Perm net.nodes.toList := by
  simp only [description_nodes, isTransition_eq]
  exact List.filter_append_perm _ _

/-- Nodes with new ids are added one after the other. -/
theorem exists_addNodes {net : Net} (consistent : net.Consistent) {nodes : List Node}
    (differ : ((net.nodes.toList ++ nodes).map Node.id).Nodup) :
    ∃ next, net.addNodes nodes = .ok next ∧ next.nodes.toList = net.nodes.toList ++ nodes ∧
      next.id = net.id ∧ next.arcs = net.arcs := by
  induction nodes generalizing net with
  | nil => exact ⟨net, rfl, by simp, rfl, rfl⟩
  | cons node nodes inductionHypothesis =>
      have fresh : net.find? node.id = none := by
        rw [consistent.find?_eq_none_iff]
        intro member
        rw [List.map_append, List.nodup_append] at differ
        exact differ.2.2 _ member _ List.mem_cons_self rfl
      have nodesOfNext : (net.withNode node).nodes.toList = net.nodes.toList ++ [node] := by
        simp [withNode]
      have laterDiffer : (((net.withNode node).nodes.toList ++ nodes).map Node.id).Nodup := by
        simpa [nodesOfNext] using differ
      obtain ⟨next, added, nodesAdded, idKept, arcsKept⟩ :=
        inductionHypothesis (consistent.withNode fresh) laterDiffer
      refine ⟨next, ?_, by simp [nodesAdded, nodesOfNext], idKept, arcsKept⟩
      rw [addNodes, List.foldlM_cons, addNode_ok_iff.2 ⟨fresh, rfl⟩]
      exact added

/-- The id of a handle is that of its node. -/
theorem idOf_of_get? {net : Net} {handle : Handle} {node : Node}
    (found : net.get? handle = some node) : net.idOf handle = node.id := by
  rw [idOf, found]
  rfl

/-- A node of the net is found by its id. -/
theorem Consistent.find?_idOf {net : Net} (consistent : net.Consistent) {handle : Handle}
    {kind : NodeKind} (known : net.kind? handle = some kind) :
    net.find? (net.idOf handle) = some handle := by
  obtain ⟨node, isNode, _⟩ := Option.map_eq_some_iff.1 known
  rw [idOf_of_get? isNode]
  exact (consistent.indexExact _ _).2 ⟨node, isNode, rfl⟩

/-- Known nodes are told apart by their ids. -/
theorem Consistent.eq_of_idOf {net : Net} (consistent : net.Consistent) {first second : Handle}
    (known : first < net.size) (knownToo : second < net.size)
    (sameId : net.idOf first = net.idOf second) : first = second := by
  have found : net.get? first = some net.nodes[first] := Array.getElem?_eq_getElem known
  have foundToo : net.get? second = some net.nodes[second] := Array.getElem?_eq_getElem knownToo
  rw [idOf_of_get? found, idOf_of_get? foundToo] at sameId
  exact consistent.handle_eq found foundToo sameId

/-- The arcs of a consistent net lie between nodes of the net. -/
theorem Consistent.arc_known {net : Net} (consistent : net.Consistent) {arc : Arc}
    (member : arc ∈ net.arcs.toList) : arc.source < net.size ∧ arc.target < net.size := by
  obtain ⟨kind, sourceKind, targetKind⟩ :=
    consistent.arcsAlternate arc (Array.mem_toList_iff.1 member)
  exact ⟨kindInRange sourceKind, kindInRange targetKind⟩

/-- An arc is described once. -/
theorem Consistent.description_arcs_nodup {net : Net} (consistent : net.Consistent) :
    net.description.arcs.Nodup := by
  refine List.Nodup.map_on ?_ consistent.arcsDiffer
  intro first inArcs second inArcsToo same
  obtain ⟨sourceKnown, targetKnown⟩ := consistent.arc_known inArcs
  obtain ⟨sourceKnownToo, targetKnownToo⟩ := consistent.arc_known inArcsToo
  obtain ⟨sameSource, sameTarget⟩ := ArcDescription.mk.injEq .. ▸ same
  cases first
  cases second
  rw [Arc.mk.injEq]
  exact ⟨consistent.eq_of_idOf sourceKnown sourceKnownToo sameSource,
    consistent.eq_of_idOf targetKnown targetKnownToo sameTarget⟩

/-- The described arcs are the links of the net. -/
theorem mem_description_arcs {net : Net} {first second : String} :
    ⟨first, second⟩ ∈ net.description.arcs ↔ net.Links first second := by
  simp [description, Links]

/-- A list without duplicates loses nothing. -/
theorem eraseDups_of_nodup {arcs : List ArcDescription} (differ : arcs.Nodup) :
    arcs.eraseDups = arcs := by
  induction arcs with
  | nil => rfl
  | cons arc arcs inductionHypothesis =>
      obtain ⟨isNew, others⟩ := List.nodup_cons.1 differ
      have kept : arcs.filter (fun other => !other == arc) = arcs :=
        List.filter_eq_self.2 fun other member => by
          simpa using fun same : other = arc => isNew (same ▸ member)
      rw [List.eraseDups_cons, kept, inductionHypothesis others]

/-- The arc joins two of the nodes, which are of different kinds. -/
def ArcDescription.Fits (arc : ArcDescription) (nodes : List Node) : Prop :=
  ∃ source ∈ nodes, ∃ target ∈ nodes, source.kind ≠ target.kind ∧ arc = ⟨source.id, target.id⟩

/-- An arc that fits is taken, and it changes nothing when it repeats an earlier one. -/
theorem exists_connect {net : Net} (consistent : net.Consistent) {arc : ArcDescription}
    (fits : arc.Fits net.nodes.toList) :
    ∃ next, net.connect arc.source arc.target = .ok next ∧ next.id = net.id ∧
      next.nodes = net.nodes ∧
      next.description.arcs = (net.description.arcs ++ [arc]).eraseDups := by
  obtain ⟨source, sourceIn, target, targetIn, apart, rfl⟩ := fits
  obtain ⟨start, foundStart⟩ := mem_nodes_iff.1 (Array.mem_toList_iff.1 sourceIn)
  obtain ⟨finish, foundFinish⟩ := mem_nodes_iff.1 (Array.mem_toList_iff.1 targetIn)
  have lookup {handle : Handle} {node : Node} (found : net.get? handle = some node) :
      net.lookup node.id = .ok handle := by
    rw [Net.lookup, (consistent.indexExact _ _).2 ⟨node, found, rfl⟩]
  have connected : net.connect source.id target.id =
      .ok (if finish ∈ net.successors start then net else net.withArc start finish) := by
    rw [connect_eq, lookup foundStart, lookup foundFinish]
    exact addArc_ok_iff.2 ⟨source, target, foundStart, foundFinish, apart, rfl⟩
  have described : ⟨source.id, target.id⟩ ∈ net.description.arcs ↔
      finish ∈ net.successors start := by
    rw [mem_description_arcs, consistent.mem_successors_iff, consistent.hasArc_iff_links]
    simp [foundStart, foundFinish]
  rw [List.eraseDups_append, eraseDups_of_nodup consistent.description_arcs_nodup]
  by_cases known : finish ∈ net.successors start
  · rw [if_pos known] at connected
    exact ⟨net, connected, rfl, rfl, by simp [List.removeAll, described.2 known]⟩
  · rw [if_neg known] at connected
    have added : (net.withArc start finish).description.arcs =
        net.description.arcs ++ [⟨net.idOf start, net.idOf finish⟩] := by
      rw [description, withArc, Array.toList_push, List.map_append]
      rfl
    refine ⟨net.withArc start finish, connected, rfl, rfl, ?_⟩
    rw [added, idOf_of_get? foundStart, idOf_of_get? foundFinish]
    simp [List.removeAll, described.not.2 known, List.eraseDups_cons]

/-- Arcs that fit are all taken, each of them once. -/
theorem exists_connectAll {net : Net} (built : net.Built) {arcs : List ArcDescription}
    (fit : ∀ arc ∈ arcs, arc.Fits net.nodes.toList) :
    ∃ next, net.connectAll arcs = .ok next ∧ next.id = net.id ∧ next.nodes = net.nodes ∧
      next.description.arcs = (net.description.arcs ++ arcs).eraseDups := by
  induction arcs generalizing net with
  | nil =>
      have differ := built.consistent.description_arcs_nodup
      exact ⟨net, rfl, rfl, rfl, by rw [List.append_nil, eraseDups_of_nodup differ]⟩
  | cons arc arcs inductionHypothesis =>
      obtain ⟨fits, othersFit⟩ := List.forall_mem_cons.1 fit
      obtain ⟨next, connected, sameId, sameNodes, described⟩ :=
        exists_connect built.consistent fits
      have nextBuilt := built.connect connected
      obtain ⟨last, rest, lastId, lastNodes, lastDescribed⟩ :=
        inductionHypothesis nextBuilt (sameNodes ▸ othersFit)
      refine ⟨last, ?_, lastId.trans sameId, lastNodes.trans sameNodes, ?_⟩
      · rw [connectAll, List.foldlM_cons, connected]
        exact rest
      · have others : arcs.removeAll next.description.arcs =
            arcs.removeAll (net.description.arcs ++ [arc]) := by
          simp only [List.removeAll, List.elem_eq_mem, described, List.mem_eraseDups]
        rw [lastDescribed, List.eraseDups_append, others,
          eraseDups_of_nodup nextBuilt.consistent.description_arcs_nodup, described,
          ← List.eraseDups_append, List.append_assoc, List.singleton_append]

/-- The ids are different, and every arc fits the nodes. -/
structure Description.WellFormed (description : Description) : Prop where
  idsDiffer : (description.nodes.map Node.id).Nodup
  arcsFit : ∀ arc ∈ description.arcs, arc.Fits description.nodes

/-- A well-formed description is read as the net with its nodes and arcs in their order. -/
theorem Description.WellFormed.exists_net {description : Description}
    (wellFormed : description.WellFormed) :
    ∃ net, ofDescription description = .ok net ∧ net.id = description.id ∧
      net.nodes.toList = description.nodes ∧
      net.description.arcs = description.arcs.eraseDups := by
  have differ : (((Net.empty description.id).nodes.toList ++ description.nodes).map
      Node.id).Nodup := wellFormed.idsDiffer
  obtain ⟨placed, added, nodesPlaced, placedId, noArcs⟩ :=
    exists_addNodes (.empty description.id) differ
  have placedBuilt : placed.Built := foldlM_keeps (fun earlier added => .node _ earlier added)
    (.empty description.id) added
  have samePlaced : placed.nodes.toList = description.nodes := nodesPlaced
  obtain ⟨net, connected, netId, netNodes, described⟩ :=
    exists_connectAll placedBuilt (samePlaced ▸ wellFormed.arcsFit)
  have undescribed : placed.description.arcs = [] := by
    rw [Net.description, noArcs]
    rfl
  refine ⟨net, bind_ok_iff.2 ⟨placed, added, connected⟩, netId.trans placedId, ?_, ?_⟩
  · rw [netNodes, samePlaced]
  · rw [described, undescribed, List.nil_append]

/-- A consistent net has a well-formed description. -/
theorem Consistent.description_wellFormed {net : Net} (consistent : net.Consistent) :
    net.description.WellFormed where
  idsDiffer := (net.description_nodes_perm.map Node.id).nodup_iff.2 consistent.idsDiffer
  arcsFit := by
    have described {handle : Handle} {node : Node} (found : net.get? handle = some node) :
        node ∈ net.description.nodes :=
      net.description_nodes_perm.mem_iff.2
        (Array.mem_toList_iff.2 (mem_nodes_iff.2 ⟨handle, found⟩))
    intro arc member
    obtain ⟨⟨start, finish⟩, inArcs, rfl⟩ := List.mem_map.1 member
    obtain ⟨kind, startKind, finishKind⟩ :=
      consistent.arcsAlternate _ (Array.mem_toList_iff.1 inArcs)
    obtain ⟨source, foundStart, rfl⟩ := Option.map_eq_some_iff.1 startKind
    obtain ⟨target, foundFinish, targetKind⟩ := Option.map_eq_some_iff.1 finishKind
    refine ⟨source, described foundStart, target, described foundFinish, ?_, ?_⟩
    · rw [targetKind]
      cases source.kind <;> decide
    · rw [idOf_of_get? foundStart, idOf_of_get? foundFinish]

/-- A net is read back from its description with its places first and its arcs in their order. -/
theorem Consistent.exists_readBack {net : Net} (consistent : net.Consistent) :
    ∃ back, ofDescription net.description = .ok back ∧ back.id = net.id ∧
      back.nodes.toList = net.description.nodes ∧
      back.description.arcs = net.description.arcs := by
  obtain ⟨back, read, sameId, nodes, arcs⟩ := consistent.description_wellFormed.exists_net
  rw [eraseDups_of_nodup consistent.description_arcs_nodup] at arcs
  exact ⟨back, read, sameId, nodes, arcs⟩

/-- The description of a net gives its graph back. -/
theorem Built.exists_rebuilt {net : Net} (built : net.Built) :
    ∃ back, Net.ofDescription net.description = .ok back ∧ net.SameGraph back := by
  obtain ⟨back, read, _, nodes, arcs⟩ := built.consistent.exists_readBack
  refine ⟨back, read, fun node => ?_, fun source target => ?_⟩
  · rw [← Array.mem_toList_iff, ← Array.mem_toList_iff, nodes, net.description_nodes_perm.mem_iff]
  · rw [← mem_description_arcs, ← mem_description_arcs, arcs]

end PetriLogic.Net
