import PetriLogic.Proofs.Net.Updates

namespace PetriLogic.Net

/-- A consistent net refuses a node only because of its id. -/
theorem addNode_error_iff {net : Net} (consistent : net.Consistent) {node : Node} {fault : Fault} :
    net.addNode node = .error fault ↔
      node.id ∈ net.nodes.toList.map Node.id ∧ fault = .duplicateNode node.id := by
  rw [← not_not (a := node.id ∈ _), ← consistent.find?_eq_none_iff, addNode,
    Edit.attempt_error_iff, Edit.fault?_addNode]
  cases net.find? node.id <;> simp [eq_comm]

/-- Added nodes come behind those that were there before. -/
theorem nodes_of_addNodes {net next : Net} {nodes : List Node}
    (added : net.addNodes nodes = .ok next) :
    next.nodes.toList = net.nodes.toList ++ nodes := by
  induction nodes generalizing net with
  | nil =>
      cases added
      exact (List.append_nil _).symm
  | cons node nodes inductionHypothesis =>
      rw [addNodes, List.foldlM_cons] at added
      obtain ⟨middle, taken, rest⟩ := bind_ok_iff.1 added
      obtain ⟨_, rfl⟩ := addNode_ok_iff.1 taken
      rw [inductionHypothesis rest]
      simp [withNode]

/-- Any further nodes keep a net built. -/
theorem Built.addNodes {net next : Net} {nodes : List Node} (built : net.Built)
    (added : net.addNodes nodes = .ok next) : next.Built :=
  foldlM_keeps (fun earlier added => .node _ earlier added) built added

/-- Nodes are refused for the first id that is there already. -/
theorem addNodes_error_iff {id : String} {nodes : List Node} {fault : Fault} :
    (Net.empty id).addNodes nodes = .error fault ↔ ∃ before node after,
      nodes = before ++ node :: after ∧ (before.map Node.id).Nodup ∧
        node.id ∈ before.map Node.id ∧ fault = .duplicateNode node.id := by
  have started : (Net.empty id).Built := .empty id
  rw [Net.addNodes, foldlM_error_iff]
  constructor
  · rintro ⟨before, node, after, middle, split, added, fails⟩
    have consistent := (started.addNodes added).consistent
    have nodesOfMiddle : middle.nodes.toList = before := nodes_of_addNodes added
    obtain ⟨known, same⟩ := (addNode_error_iff consistent).1 fails
    rw [nodesOfMiddle] at known
    exact ⟨before, node, after, split, nodesOfMiddle ▸ consistent.idsDiffer, known, same⟩
  · rintro ⟨before, node, after, split, differ, known, same⟩
    obtain ⟨middle, added, nodesOfMiddle, _⟩ := exists_addNodes started.consistent differ
    have consistent := (started.addNodes added).consistent
    rw [show (Net.empty id).nodes.toList ++ before = before from rfl] at nodesOfMiddle
    rw [← nodesOfMiddle] at known
    exact ⟨before, node, after, middle, split, added,
      (addNode_error_iff consistent).2 ⟨known, same⟩⟩

/-- An arc that does not fit is refused for its source first, then for its target. -/
inductive ArcDescription.Refused (arc : ArcDescription) (nodes : List Node) : Fault → Prop where
  | source (unknown : arc.source ∉ nodes.map Node.id) : arc.Refused nodes (.unknownNode arc.source)
  | target (known : arc.source ∈ nodes.map Node.id) (unknown : arc.target ∉ nodes.map Node.id) :
      arc.Refused nodes (.unknownNode arc.target)
  | alike {source target : Node} (isSource : source ∈ nodes) (isTarget : target ∈ nodes)
      (sourceId : source.id = arc.source) (targetId : target.id = arc.target)
      (alike : source.kind = target.kind) :
      arc.Refused nodes (.sameKind arc.source arc.target)

/-- The node at a handle is listed. -/
theorem mem_toList_of_get? {net : Net} {handle : Handle} {node : Node}
    (found : net.get? handle = some node) : node ∈ net.nodes.toList :=
  Array.mem_toList_iff.2 (mem_nodes_iff.2 ⟨handle, found⟩)

/-- An arc that cannot be added is refused for the fault that is reported. -/
theorem refused_of_connect {net : Net} (consistent : net.Consistent) {arc : ArcDescription}
    {fault : Fault} (fails : net.connect arc.source arc.target = .error fault) :
    arc.Refused net.nodes.toList fault := by
  rw [connect_eq] at fails
  rcases bind_error_iff.1 fails with missed | ⟨first, found, fails⟩
  · obtain ⟨unknown, rfl⟩ := lookup_error_iff.1 missed
    exact .source (consistent.find?_eq_none_iff.1 unknown)
  · obtain ⟨source, isSource, sourceId⟩ := (consistent.indexExact _ _).1 (lookup_ok_iff.1 found)
    have sourceIn := mem_toList_of_get? isSource
    rcases bind_error_iff.1 fails with missed | ⟨second, foundToo, fails⟩
    · obtain ⟨unknown, rfl⟩ := lookup_error_iff.1 missed
      exact .target (sourceId ▸ List.mem_map_of_mem sourceIn)
        (consistent.find?_eq_none_iff.1 unknown)
    · obtain ⟨target, isTarget, targetId⟩ :=
        (consistent.indexExact _ _).1 (lookup_ok_iff.1 foundToo)
      rw [addArc, Edit.attempt_error_iff, Edit.fault?_addArc, isSource, isTarget] at fails
      obtain ⟨alike, same⟩ := Option.ite_none_right_eq_some.1 fails
      rw [← Option.some.inj same, sourceId, targetId]
      exact .alike sourceIn (mem_toList_of_get? isTarget) sourceId targetId alike

/-- An arc that is to be refused cannot be added. -/
theorem ArcDescription.Refused.connect {net : Net} (consistent : net.Consistent)
    {arc : ArcDescription} {fault : Fault} (refused : arc.Refused net.nodes.toList fault) :
    net.connect arc.source arc.target = .error fault := by
  rw [connect_eq]
  cases refused with
  | source unknown =>
      exact bind_error_iff.2 (.inl (lookup_error_iff.2
        ⟨consistent.find?_eq_none_iff.2 unknown, rfl⟩))
  | target known unknown =>
      obtain ⟨first, found⟩ := Option.ne_none_iff_exists'.1
        (consistent.find?_eq_none_iff.not.2 (not_not.2 known))
      exact bind_error_iff.2 (.inr ⟨first, lookup_ok_iff.2 found, bind_error_iff.2
        (.inl (lookup_error_iff.2 ⟨consistent.find?_eq_none_iff.2 unknown, rfl⟩))⟩)
  | @alike source target sourceIn targetIn sourceId targetId alike =>
      obtain ⟨first, isSource⟩ := mem_nodes_iff.1 (Array.mem_toList_iff.1 sourceIn)
      obtain ⟨second, isTarget⟩ := mem_nodes_iff.1 (Array.mem_toList_iff.1 targetIn)
      have found := (consistent.indexExact _ _).2 ⟨source, isSource, sourceId⟩
      have foundToo := (consistent.indexExact _ _).2 ⟨target, isTarget, targetId⟩
      refine bind_error_iff.2 (.inr ⟨first, lookup_ok_iff.2 found, bind_error_iff.2
        (.inr ⟨second, lookup_ok_iff.2 foundToo, ?_⟩)⟩)
      rw [addArc, Edit.attempt_error_iff, Edit.fault?_addArc, isSource, isTarget]
      simp only [if_pos alike, sourceId, targetId]

/-- An arc that is taken joins two nodes of different kinds, and it leaves the nodes alone. -/
theorem fits_of_connect {net next : Net} (consistent : net.Consistent) {arc : ArcDescription}
    (connected : net.connect arc.source arc.target = .ok next) :
    arc.Fits net.nodes.toList ∧ next.nodes = net.nodes := by
  rw [connect_eq] at connected
  obtain ⟨first, found, rest⟩ := bind_ok_iff.1 connected
  obtain ⟨second, foundToo, added⟩ := bind_ok_iff.1 rest
  obtain ⟨source, target, isSource, isTarget, different, rfl⟩ := addArc_ok_iff.1 added
  have sourceId := consistent.id_of_find? (lookup_ok_iff.1 found) isSource
  have targetId := consistent.id_of_find? (lookup_ok_iff.1 foundToo) isTarget
  constructor
  · refine ⟨source, mem_toList_of_get? isSource, target, mem_toList_of_get? isTarget, different, ?_⟩
    rw [sourceId, targetId]
  · split <;> rfl

/-- Arcs that are all taken fit, and they leave the nodes alone. -/
theorem fit_of_connectAll {net next : Net} (built : net.Built) {arcs : List ArcDescription}
    (connected : net.connectAll arcs = .ok next) :
    (∀ arc ∈ arcs, arc.Fits net.nodes.toList) ∧ next.nodes = net.nodes := by
  induction arcs generalizing net with
  | nil =>
      cases connected
      exact ⟨List.forall_mem_nil _, rfl⟩
  | cons arc arcs inductionHypothesis =>
      rw [connectAll, List.foldlM_cons] at connected
      obtain ⟨middle, taken, rest⟩ := bind_ok_iff.1 connected
      obtain ⟨fits, sameNodes⟩ := fits_of_connect built.consistent taken
      obtain ⟨othersFit, sameToo⟩ := inductionHypothesis (built.connect taken) rest
      rw [sameNodes] at othersFit sameToo
      exact ⟨List.forall_mem_cons.2 ⟨fits, othersFit⟩, sameToo⟩

/-- Connecting arcs fails at the first one that is refused. -/
theorem connectAll_error_iff {net : Net} (built : net.Built) {arcs : List ArcDescription}
    {fault : Fault} :
    net.connectAll arcs = .error fault ↔ ∃ before arc after, arcs = before ++ arc :: after ∧
      (∀ earlier ∈ before, earlier.Fits net.nodes.toList) ∧
        arc.Refused net.nodes.toList fault := by
  rw [connectAll, foldlM_error_iff]
  constructor
  · rintro ⟨before, arc, after, middle, split, connected, fails⟩
    obtain ⟨fit, sameNodes⟩ := fit_of_connectAll built connected
    have middleBuilt : middle.Built :=
      foldlM_keeps (fun earlier added => earlier.connect added) built connected
    have refused := refused_of_connect middleBuilt.consistent fails
    rw [sameNodes] at refused
    exact ⟨before, arc, after, split, fit, refused⟩
  · rintro ⟨before, arc, after, split, fit, refused⟩
    obtain ⟨middle, connected, _, sameNodes, _⟩ := exists_connectAll built fit
    have middleBuilt : middle.Built :=
      foldlM_keeps (fun earlier added => earlier.connect added) built connected
    rw [← sameNodes] at refused
    exact ⟨before, arc, after, middle, split, connected, refused.connect middleBuilt.consistent⟩

namespace Description

/-- The first node that repeats an id is refused, or else the first arc that does not fit. -/
inductive Refused (description : Description) : Fault → Prop where
  | node {before after : List Node} {node : Node}
      (split : description.nodes = before ++ node :: after)
      (differ : (before.map Node.id).Nodup) (repeated : node.id ∈ before.map Node.id) :
      description.Refused (.duplicateNode node.id)
  | arc {before after : List ArcDescription} {arc : ArcDescription} {fault : Fault}
      (differ : (description.nodes.map Node.id).Nodup)
      (split : description.arcs = before ++ arc :: after)
      (fit : ∀ earlier ∈ before, earlier.Fits description.nodes)
      (refused : arc.Refused description.nodes fault) : description.Refused fault

end Description

/-- Loading a description fails exactly with the fault for which it is refused. -/
theorem ofDescription_error_iff {description : Description} {fault : Fault} :
    ofDescription description = .error fault ↔ description.Refused fault := by
  rw [ofDescription, bind_error_iff, addNodes_error_iff]
  constructor
  · rintro (⟨before, node, after, split, differ, repeated, rfl⟩ | ⟨placed, added, fails⟩)
    · exact .node split differ repeated
    · have built := Built.addNodes (.empty description.id) added
      have nodes : placed.nodes.toList = description.nodes := nodes_of_addNodes added
      obtain ⟨before, arc, after, split, fit, refused⟩ := (connectAll_error_iff built).1 fails
      rw [nodes] at fit refused
      exact .arc (nodes ▸ built.consistent.idsDiffer) split fit refused
  · intro refused
    cases refused with
    | node split differ repeated => exact .inl ⟨_, _, _, split, differ, repeated, rfl⟩
    | arc differ split fit refused =>
        have started : (Net.empty description.id).Built := .empty description.id
        obtain ⟨placed, added, nodes, _⟩ := exists_addNodes started.consistent differ
        have nodes : placed.nodes.toList = description.nodes := nodes
        rw [← nodes] at fit refused
        exact .inr ⟨placed, added, (connectAll_error_iff (started.addNodes added)).2
          ⟨_, _, _, split, fit, refused⟩⟩

/-- Only well-formed descriptions are loaded. -/
theorem wellFormed_of_ofDescription {description : Description} {net : Net}
    (read : ofDescription description = .ok net) : description.WellFormed := by
  obtain ⟨placed, added, connected⟩ := bind_ok_iff.1 read
  have built := Built.addNodes (.empty description.id) added
  have nodes : placed.nodes.toList = description.nodes := nodes_of_addNodes added
  obtain ⟨fit, _⟩ := fit_of_connectAll built connected
  rw [nodes] at fit
  exact ⟨nodes ▸ built.consistent.idsDiffer, fit⟩

/-- Apart from its arcs, a net is described by its id and its nodes. -/
theorem description_eq_of_nodes {net : Net} {description : Description}
    (sameId : net.id = description.id) (nodes : net.nodes.toList = description.nodes) :
    net.description = { description with arcs := net.description.arcs } := by
  have places : description.nodes.filterMap Node.asPlace? = description.places := by
    simp [Description.nodes, List.filterMap_map, Function.comp_def, Node.asPlace?]
  have transitions : description.nodes.filterMap Node.asTransition? = description.transitions := by
    simp [Description.nodes, List.filterMap_map, Function.comp_def, Node.asTransition?]
  rw [Net.description, nodes, places, transitions, sameId]

/--
A description is read exactly when its ids are different and its arcs fit. Otherwise the first
element that does not fit is reported, where the nodes come before the arcs. The net that was
read is described as before, without the arcs that repeat an earlier one.
-/
theorem loading_exact (description : Description) :
    ((∃ net, ofDescription description = .ok net) ↔ description.WellFormed) ∧
    (∀ fault, ofDescription description = .error fault ↔ description.Refused fault) ∧
    ∀ net, ofDescription description = .ok net →
      net.description = { description with arcs := description.arcs.eraseDups } := by
  refine ⟨⟨?_, ?_⟩, fun fault => ofDescription_error_iff, ?_⟩
  · rintro ⟨net, read⟩
    exact wellFormed_of_ofDescription read
  · intro wellFormed
    obtain ⟨net, read, _⟩ := wellFormed.exists_net
    exact ⟨net, read⟩
  · intro net read
    obtain ⟨same, readToo, sameId, nodes, arcs⟩ := (wellFormed_of_ofDescription read).exists_net
    cases read.symm.trans readToo
    rw [description_eq_of_nodes sameId nodes, arcs]

/-- The ring with its first arc once more at the end. -/
def ringDoubled : Description :=
  { ringWithExit.description with arcs := ringWithExit.description.arcs ++ [⟨"A", "t1"⟩] }

/-- The ring with two arcs that do not fit, of which the first one is not known at both ends. -/
def ringMistaken : Description :=
  { ringWithExit.description with
    arcs := ringWithExit.description.arcs ++ [⟨"t4", "D"⟩, ⟨"A", "B"⟩] }

/-- The repeated arc of the ring is loaded once, and the net is described without it. -/
theorem ringDoubled_loaded : ofDescription ringDoubled = .ok ringWithExit ∧
    ringDoubled.WellFormed ∧
    ringWithExit.description = { ringDoubled with arcs := ringDoubled.arcs.eraseDups } ∧
    ringMistaken.Refused (.unknownNode "t4") := by
  have read : ofDescription ringDoubled = .ok ringWithExit := rfl
  have mistaken : ofDescription ringMistaken = .error (.unknownNode "t4") := rfl
  obtain ⟨accepted, _, described⟩ := loading_exact ringDoubled
  exact ⟨read, accepted.1 ⟨_, read⟩, described _ read,
    ((loading_exact ringMistaken).2.1 _).1 mistaken⟩

end PetriLogic.Net
