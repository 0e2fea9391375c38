import PetriLogic.Proofs.Json.Codec
import PetriLogic.Proofs.Net.Operations
import PetriLogic.Proofs.Net.Rebuilding

namespace PetriLogic.Net

/-- A text is loaded when it describes a net that can be loaded. -/
theorem ofJson_ok_iff {source : String} {net : Net} :
    Net.ofJson source = .ok net ↔ ∃ description,
      Json.Reader.run Description.reader source = .ok description ∧
        ofDescription description = .ok net := by
  rw [← Json.run_refine_ok_iff Fault.message, ofJson, reader]
  cases Json.Reader.run _ source <;> simp [Except.mapError]

/-- A net that is loaded from a text is built. -/
theorem Built.ofJson {source : String} {net : Net} (read : Net.ofJson source = .ok net) :
    net.Built := by
  obtain ⟨description, _, built⟩ := ofJson_ok_iff.1 read
  exact .ofDescription built

/-- What the description of a net is read as is read from its text as well. -/
theorem ofJson_toJson {net back : Net} (read : ofDescription net.description = .ok back) :
    Net.ofJson net.toJson = .ok back :=
  ofJson_ok_iff.2 ⟨_, net.description.read_pretty, read⟩

/-- The index lists the ids of the nodes with their handles, the latest of them first. -/
theorem Built.index_eq {net : Net} (built : net.Built) :
    net.index = (net.nodes.toList.map Node.id).zipIdx.reverse := by
  induction built with
  | empty id => rfl
  | @node net _ node _ added inductionHypothesis =>
      obtain ⟨_, rfl⟩ := addNode_ok_iff.1 added
      simp [withNode, inductionHypothesis, List.zipIdx_append, size]
  | @arc net _ source target _ added inductionHypothesis =>
      obtain ⟨_, _, _, _, _, rfl⟩ := addArc_ok_iff.1 added
      split
      · exact inductionHypothesis
      · exact inductionHypothesis

/-- The handles of an arc are found by the ids that describe it. -/
theorem Consistent.arcs_eq {net : Net} (consistent : net.Consistent) :
    net.arcs.toList = net.description.arcs.map fun arc =>
      ⟨(net.find? arc.source).getD 0, (net.find? arc.target).getD 0⟩ := by
  rw [description, List.map_map]
  refine (List.map_id _).symm.trans (List.map_congr_left fun arc member => ?_)
  obtain ⟨kind, sourceKind, targetKind⟩ :=
    consistent.arcsAlternate arc (Array.mem_toList_iff.1 member)
  simp [consistent.find?_idOf sourceKind, consistent.find?_idOf targetKind]

/-- Tables of neighbours are equal if they have the same size and show the same lists. -/
theorem eq_of_neighbours {first second : Array (List Handle)} (sizes : first.size = second.size)
    (same : ∀ handle : Handle, first[handle]?.getD [] = second[handle]?.getD []) :
    first = second := by
  refine Array.ext sizes fun handle inside insideToo => ?_
  simpa [inside, insideToo] using same handle

/-- Nets that were built with the same nodes and arcs in the same order are the same. -/
theorem Built.eq_of_same {first second : Net} (firstBuilt : first.Built)
    (secondBuilt : second.Built) (sameId : first.id = second.id)
    (sameNodes : first.nodes = second.nodes)
    (sameArcs : first.description.arcs = second.description.arcs) : first = second := by
  have firstConsistent := firstBuilt.consistent
  have secondConsistent := secondBuilt.consistent
  have index : first.index = second.index := by
    rw [firstBuilt.index_eq, secondBuilt.index_eq, sameNodes]
  have found (id : String) : first.find? id = second.find? id := by rw [find?, find?, index]
  have arcs : first.arcs = second.arcs := by
    apply Array.toList_inj.1
    rw [firstConsistent.arcs_eq, secondConsistent.arcs_eq, sameArcs]
    simp only [found]
  have size : first.size = second.size := by rw [Net.size, Net.size, sameNodes]
  have outgoing : first.outgoing = second.outgoing := by
    apply eq_of_neighbours
    · rw [firstConsistent.outgoingSize, secondConsistent.outgoingSize, size]
    · show ∀ handle, first.successors handle = second.successors handle
      intro handle
      rw [firstConsistent.successorsExact, secondConsistent.successorsExact, arcsFrom, arcsFrom,
        arcs]
  have incoming : first.incoming = second.incoming := by
    apply eq_of_neighbours
    · rw [firstConsistent.incomingSize, secondConsistent.incomingSize, size]
    · show ∀ handle, first.predecessors handle = second.predecessors handle
      intro handle
      rw [firstConsistent.predecessorsExact, secondConsistent.predecessorsExact, arcsTo, arcsTo,
        arcs]
  cases first
  cases second
  simp_all

/-- In a consistent net, one handle has the id. -/
theorem Consistent.idOf_eq_iff {net : Net} (consistent : net.Consistent) {id : String}
    {handle other : Handle} (found : net.find? id = some handle) (known : other < net.size) :
    net.idOf other = id ↔ other = handle := by
  have inside := consistent.lt_size_of_find? found
  obtain ⟨node, isNode, rfl⟩ := (consistent.indexExact _ _).1 found
  rw [← idOf_of_get? isNode]
  exact ⟨consistent.eq_of_idOf known inside, fun same => same ▸ rfl⟩

/-- The arcs with an end at a node are those with its id at that end. -/
theorem Consistent.filter_idOf {net : Net} (consistent : net.Consistent) {id : String}
    {handle : Handle} (found : net.find? id = some handle) {near : Arc → Handle}
    (known : ∀ arc ∈ net.arcs.toList, near arc < net.size) :
    net.arcs.toList.filter (fun arc => net.idOf (near arc) = id) =
      net.arcs.toList.filter (fun arc => near arc = handle) := by
  refine List.filter_congr fun arc member => ?_
  rw [decide_eq_decide, consistent.idOf_eq_iff found (known arc member)]

/-- The ids of the successors are the targets of the described arcs. -/
theorem Consistent.successors_idOf {net : Net} (consistent : net.Consistent) {id : String}
    {handle : Handle} (found : net.find? id = some handle) :
    (net.successors handle).map net.idOf =
      (net.description.arcs.filter (·.source = id)).map ArcDescription.target := by
  have same := consistent.filter_idOf found fun _ member => (consistent.arc_known member).1
  rw [consistent.successorsExact, arcsFrom, ← same, description, List.filter_map, List.map_map,
    List.map_map]
  rfl

/-- The ids of the predecessors are the sources of the described arcs. -/
theorem Consistent.predecessors_idOf {net : Net} (consistent : net.Consistent) {id : String}
    {handle : Handle} (found : net.find? id = some handle) :
    (net.predecessors handle).map net.idOf =
      (net.description.arcs.filter (·.target = id)).map ArcDescription.source := by
  have same := consistent.filter_idOf found fun _ member => (consistent.arc_known member).2
  rw [consistent.predecessorsExact, arcsTo, ← same, description, List.filter_map, List.map_map,
    List.map_map]
  rfl

/-- No transition has a smaller handle than a place. -/
def PlacesFirst (net : Net) : Prop :=
  ∀ place transition, net.hasKind .place place = true →
    net.hasKind .transition transition = true → ¬transition < place

/-- The fields of both nets are the same, and both indices find the same handles by the same ids. -/
structure SameFields (first second : Net) : Prop where
  id : first.id = second.id
  nodes : first.nodes = second.nodes
  arcs : first.arcs = second.arcs
  index : ∀ id, first.find? id = second.find? id
  outgoing : first.outgoing = second.outgoing
  incoming : first.incoming = second.incoming

/-- Sorting by kind changes nothing exactly when no place stands behind a transition. -/
theorem filter_kinds_iff (nodes : List Node) :
    nodes.filter (·.kind = .place) ++ nodes.filter (·.kind = .transition) = nodes ↔
      nodes.Pairwise fun earlier later => later.kind = .place → earlier.kind = .place := by
  constructor
  · intro sorted
    rw [← sorted, List.pairwise_append]
    refine ⟨List.pairwise_of_forall_mem_list ?_, List.pairwise_of_forall_mem_list ?_, ?_⟩
    · intro earlier isPlace _ _ _
      exact of_decide_eq_true (List.mem_filter.1 isPlace).2
    · intro _ _ later isTransition isPlace
      rw [of_decide_eq_true (List.mem_filter.1 isTransition).2] at isPlace
      cases isPlace
    · intro earlier isPlace _ _ _
      exact of_decide_eq_true (List.mem_filter.1 isPlace).2
  · intro ordered
    induction ordered with
    | nil => rfl
    | @cons node others first _ inductionHypothesis =>
        cases node with
        | place value => exact congrArg (Node.place value :: ·) inductionHypothesis
        | transition value =>
            -- No place stands behind this transition, so both filters are decided.
            have transitions : ∀ other ∈ others, other.kind = .transition := by
              intro other member
              cases other with
              | place _ => cases first _ member rfl
              | transition _ => rfl
            have noPlaces : others.filter (·.kind = .place) = [] :=
              List.filter_eq_nil_iff.2 fun other member => by simp [transitions other member]
            have all : others.filter (·.kind = .transition) = others :=
              List.filter_eq_self.2 fun other member => by simp [transitions other member]
            rw [List.filter_cons_of_neg (by simp [Node.kind]), noPlaces,
              List.filter_cons_of_pos (by simp [Node.kind]), all, List.nil_append]

/-- A handle passes the test for a kind when the node listed there has this kind. -/
theorem hasKind_iff {net : Net} {kind : NodeKind} {handle : Handle} :
    net.hasKind kind handle = true ↔
      ∃ inside : handle < net.nodes.toList.length, (net.nodes.toList[handle]).kind = kind := by
  rw [Net.hasKind, decide_eq_true_eq, kind?, get?, Option.map_eq_some_iff]
  simp [Array.getElem?_eq_some_iff]

/-- A description keeps the order of the nodes when the places come first. -/
theorem placesFirst_iff {net : Net} :
    net.PlacesFirst ↔ net.description.nodes = net.nodes.toList := by
  rw [description_nodes, filter_kinds_iff, List.pairwise_iff_getElem]
  constructor
  · intro placesFirst earlier later inside insideToo ordered isPlace
    by_contra other
    have isTransition : (net.nodes.toList[earlier]).kind = .transition :=
      NodeKind.eq_other_of_ne (Ne.symm other)
    exact placesFirst later earlier (hasKind_iff.2 ⟨insideToo, isPlace⟩)
      (hasKind_iff.2 ⟨inside, isTransition⟩) ordered
  · intro ordered place transition isPlace isTransition before
    obtain ⟨inside, placeKind⟩ := hasKind_iff.1 isPlace
    obtain ⟨insideToo, transitionKind⟩ := hasKind_iff.1 isTransition
    rw [ordered transition place insideToo inside before placeKind] at transitionKind
    cases transitionKind

/--
A net is read back from its description and from its text. Its places come first then, and
otherwise nodes, arcs and neighbours keep their order. It is the same net exactly when no place
stands behind a transition.
-/
theorem Reachable.readBack_exact {net : Net} (reachable : net.Reachable) :
    ∃ back, ofDescription net.description = .ok back ∧ Net.ofJson net.toJson = .ok back ∧
      back.id = net.id ∧
      back.nodes.toList = net.nodes.toList.filter (·.kind = .place) ++
        net.nodes.toList.filter (·.kind = .transition) ∧
      (back.arcs.toList.map fun arc => (back.idOf arc.source, back.idOf arc.target)) =
        (net.arcs.toList.map fun arc => (net.idOf arc.source, net.idOf arc.target)) ∧
      (∀ id handle, net.find? id = some handle → ∃ other, back.find? id = some other ∧
        (back.successors other).map back.idOf = (net.successors handle).map net.idOf ∧
        (back.predecessors other).map back.idOf = (net.predecessors handle).map net.idOf) ∧
      (back.SameFields net ↔ net.PlacesFirst) ∧ (back = net ↔ net.PlacesFirst) := by
  have consistent := reachable.consistent
  obtain ⟨back, read, sameId, nodes, arcs⟩ := consistent.exists_readBack
  have backBuilt := Built.ofDescription read
  have sameNodes : back.nodes = net.nodes ↔ net.PlacesFirst := by
    rw [placesFirst_iff, ← nodes, Array.toList_inj]
  have same (placesFirst : net.PlacesFirst) : back = net :=
    backBuilt.eq_of_same reachable.built sameId (sameNodes.2 placesFirst) arcs
  refine ⟨back, read, ofJson_toJson read, sameId, nodes.trans net.description_nodes,
    ?_, ?_, ?_, ?_⟩
  · have pairs := congrArg (List.map fun arc => (arc.source, arc.target)) arcs
    rwa [description, description, List.map_map, List.map_map] at pairs
  · intro id handle found
    have known : id ∈ back.nodes.toList.map Node.id := by
      rw [nodes, (net.description_nodes_perm.map Node.id).mem_iff]
      by_contra unknown
      rw [consistent.find?_eq_none_iff.2 unknown] at found
      cases found
    obtain ⟨other, foundBack⟩ := Option.ne_none_iff_exists'.1
      (backBuilt.consistent.find?_eq_none_iff.not.2 (not_not.2 known))
    refine ⟨other, foundBack, ?_, ?_⟩
    · rw [backBuilt.consistent.successors_idOf foundBack, consistent.successors_idOf found, arcs]
    · rw [backBuilt.consistent.predecessors_idOf foundBack, consistent.predecessors_idOf found,
        arcs]
  · constructor
    · exact fun fields => sameNodes.1 fields.nodes
    · intro placesFirst
      rw [same placesFirst]
      exact ⟨rfl, rfl, rfl, fun _ => rfl, rfl, rfl⟩
  · exact ⟨fun whole => sameNodes.1 (whole ▸ rfl), same⟩

/-- The ring gets one more place, which stands behind its transitions. -/
def ringWithPlace : Net :=
  ringWithExit.afterAll [.addPlace ⟨"D", .empty⟩, .connect "t3" "D"]

/-- The new place is read back in front of the transitions. -/
theorem ringWithPlace_sorted : ringWithPlace.Reachable ∧
    ∃ back, ofDescription ringWithPlace.description = .ok back ∧
      back.nodes.toList.map Node.id = ["A", "B", "C", "D", "t1", "t2", "t3"] ∧
      back ≠ ringWithPlace := by
  have reachable : ringWithPlace.Reachable := ringWithExit_built.reachable.afterAll _
  obtain ⟨back, read, _, _, nodes, _, _, _, whole⟩ := reachable.readBack_exact
  refine ⟨reachable, back, read, ?_, ?_⟩
  · rw [nodes]
    decide
  · intro same
    exact whole.1 same 6 3 (by decide) (by decide) (by decide)

end PetriLogic.Net
