import PetriLogic.Proofs.Net.Construction
import Mathlib.Data.List.Nodup

namespace PetriLogic

/-- There are two kinds only. -/
theorem NodeKind.eq_other_of_ne {first second : NodeKind} (different : first ≠ second) :
    second = first.other := by
  cases first <;> cases second <;> simp_all [NodeKind.other]

namespace Net

/-- The separate lists of a net agree with each other. -/
structure Consistent (net : Net) : Prop where
  idsDiffer : (net.nodes.toList.map Node.id).Nodup
  indexExact : ∀ id handle, net.find? id = some handle ↔
    ∃ node, net.get? handle = some node ∧ node.id = id
  outgoingSize : net.outgoing.size = net.size
  incomingSize : net.incoming.size = net.size
  arcsDiffer : net.arcs.toList.Nodup
  arcsAlternate : ∀ arc ∈ net.arcs, ∃ kind,
    net.kind? arc.source = some kind ∧ net.kind? arc.target = some kind.other
  successorsExact : ∀ handle, net.successors handle = (net.arcsFrom handle).map Arc.target
  predecessorsExact : ∀ handle, net.predecessors handle = (net.arcsTo handle).map Arc.source

/-- The nodes of a net are the handles below its size. -/
theorem kind?_isSome_iff {net : Net} {handle : Handle} :
    (net.kind? handle).isSome ↔ handle < net.size := by
  simp [kind?, get?, size]

/-- A handle with a kind is one of the net. -/
theorem kindInRange {net : Net} {handle : Handle} {kind : NodeKind}
    (known : net.kind? handle = some kind) : handle < net.size :=
  kind?_isSome_iff.1 (Option.isSome_of_eq_some known)

/-- A handle that passes the test for a kind is one of the net. -/
theorem known_of_hasKind {net : Net} {kind : NodeKind} {handle : Handle}
    (ofKind : net.hasKind kind handle = true) : handle < net.size :=
  kindInRange (of_decide_eq_true ofKind)

/-- A new node leaves the kinds of the earlier ones. -/
theorem kind?_withNode {net : Net} {node : Node} {handle : Handle} (inRange : handle < net.size) :
    (net.withNode node).kind? handle = net.kind? handle := by
  have different : handle ≠ net.nodes.size := Nat.ne_of_lt inRange
  simp [kind?, get?, withNode, Array.getElem?_push, different]

/-- A new node has no neighbours yet. -/
theorem successors_withNode (net : Net) (node : Node) (handle : Handle) :
    (net.withNode node).successors handle = net.successors handle := by
  simp only [successors, withNode, Array.getElem?_push]
  split
  · rename_i last
    simp [last]
  · rfl

/-- A new node has no predecessors and becomes nobody's predecessor. -/
theorem predecessors_withNode (net : Net) (node : Node) (handle : Handle) :
    (net.withNode node).predecessors handle = net.predecessors handle := by
  simp only [predecessors, withNode, Array.getElem?_push]
  split
  · rename_i last
    simp [last]
  · rfl

/-- A new arc puts its target last among the successors of its source. -/
theorem successors_withArc {net : Net} {source : Handle} (target : Handle)
    (inRange : source < net.outgoing.size) (handle : Handle) :
    (net.withArc source target).successors handle =
      net.successors handle ++ if source = handle then [target] else [] := by
  simp only [successors, withArc, Array.getElem?_modify]
  split
  · rename_i same
    subst same
    simp [inRange]
  · simp

/-- A new arc puts its source last among the predecessors of its target. -/
theorem predecessors_withArc {net : Net} (source : Handle) {target : Handle}
    (inRange : target < net.incoming.size) (handle : Handle) :
    (net.withArc source target).predecessors handle =
      net.predecessors handle ++ if target = handle then [source] else [] := by
  simp only [predecessors, withArc, Array.getElem?_modify]
  split
  · rename_i same
    subst same
    simp [inRange]
  · simp

/-- A new arc comes last among the arcs from its source. -/
theorem arcsFrom_withArc (net : Net) (source target handle : Handle) :
    (net.withArc source target).arcsFrom handle =
      net.arcsFrom handle ++ if source = handle then [⟨source, target⟩] else [] := by
  by_cases same : source = handle <;> simp [arcsFrom, withArc, same]

/-- A new arc comes last among the arcs to its target. -/
theorem arcsTo_withArc (net : Net) (source target handle : Handle) :
    (net.withArc source target).arcsTo handle =
      net.arcsTo handle ++ if target = handle then [⟨source, target⟩] else [] := by
  by_cases same : target = handle <;> simp [arcsTo, withArc, same]

/-- Every node of a net has a handle. -/
theorem mem_nodes_iff {net : Net} {node : Node} :
    node ∈ net.nodes ↔ ∃ handle, net.get? handle = some node := by
  rw [Array.mem_iff_getElem?]
  rfl

/-- A new node takes the next handle. -/
theorem get?_withNode (net : Net) (node : Node) (handle : Handle) :
    (net.withNode node).get? handle = if handle = net.size then some node else net.get? handle := by
  simp only [get?, withNode, size, Array.getElem?_push]
  rfl

/-- The index finds a new node under its id and every other one as before. -/
theorem find?_withNode (net : Net) (node : Node) (id : String) :
    (net.withNode node).find? id = if id = node.id then some net.size else net.find? id := by
  simp only [find?, withNode, List.lookup_cons]
  by_cases same : id = node.id
  · simp [same]
  · rw [if_neg same, beq_false_of_ne same]

/-- The index of a consistent net misses the ids that no node has. -/
theorem Consistent.find?_eq_none_iff {net : Net} (consistent : net.Consistent) {id : String} :
    net.find? id = none ↔ id ∉ net.nodes.toList.map Node.id := by
  rw [Option.eq_none_iff_forall_ne_some]
  simp only [ne_eq, consistent.indexExact, List.mem_map, Array.mem_toList_iff, mem_nodes_iff]
  constructor
  · rintro unused ⟨node, ⟨handle, found⟩, sameId⟩
    exact unused handle ⟨node, found, sameId⟩
  · rintro unused handle ⟨node, found, sameId⟩
    exact unused ⟨node, ⟨handle, found⟩, sameId⟩

/-- A lookup succeeds with what the index shows. -/
theorem lookup_ok_iff {net : Net} {id : String} {handle : Handle} :
    net.lookup id = .ok handle ↔ net.find? id = some handle := by
  rw [lookup]
  cases net.find? id <;> simp

/-- A lookup fails on a missing id only, and names it. -/
theorem lookup_error_iff {net : Net} {id : String} {fault : Fault} :
    net.lookup id = .error fault ↔ net.find? id = none ∧ fault = .unknownNode id := by
  rw [lookup]
  cases net.find? id <;> simp [eq_comm]

/-- The index leads to nodes of the net. -/
theorem Consistent.lt_size_of_find? {net : Net} (consistent : net.Consistent) {id : String}
    {handle : Handle} (found : net.find? id = some handle) : handle < net.size := by
  obtain ⟨node, stored, _⟩ := (consistent.indexExact _ _).1 found
  exact (Array.getElem?_eq_some_iff.1 stored).1

/-- The index of a consistent net leads to the node with the id. -/
theorem Consistent.id_of_find? {net : Net} (consistent : net.Consistent) {id : String}
    {handle : Handle} {node : Node} (found : net.find? id = some handle)
    (isNode : net.get? handle = some node) : node.id = id := by
  obtain ⟨stored, isStored, sameId⟩ := (consistent.indexExact _ _).1 found
  cases isNode.symm.trans isStored
  exact sameId

/-- A net without nodes and arcs is consistent. -/
theorem Consistent.empty (id : String) : (Net.empty id).Consistent where
  idsDiffer := .nil
  indexExact := by simp [Net.empty, find?, get?]
  outgoingSize := rfl
  incomingSize := rfl
  arcsDiffer := .nil
  arcsAlternate := by simp [Net.empty]
  successorsExact := by simp [Net.empty, successors, arcsFrom]
  predecessorsExact := by simp [Net.empty, predecessors, arcsTo]

/--
A node whose id is not in the index keeps the net consistent.
It takes the handle after all others, which no arc uses yet.
-/
theorem Consistent.withNode {net : Net} (consistent : net.Consistent) {node : Node}
    (fresh : net.find? node.id = none) : (net.withNode node).Consistent where
  idsDiffer := by
    have unused := consistent.find?_eq_none_iff.1 fresh
    simp only [Net.withNode, Array.toList_push, List.map_append, List.map_cons, List.map_nil]
    exact List.nodup_append.2 ⟨consistent.idsDiffer, List.nodup_singleton _, by
      intro id known other single same
      rw [List.mem_singleton.1 single] at same
      exact unused (same ▸ known)⟩
  indexExact := by
    intro id handle
    rw [find?_withNode, get?_withNode]
    by_cases last : handle = net.size
    · -- No node stood at the new handle before.
      subst last
      have unknown : net.find? id ≠ some net.size := by
        simp [consistent.indexExact, get?, size]
      by_cases same : id = node.id
      · simp [same]
      · simp [same, Ne.symm same, unknown]
    · rw [if_neg last, ← consistent.indexExact]
      by_cases same : id = node.id
      · subst same
        simp [fresh, Ne.symm last]
      · rw [if_neg same]
  outgoingSize := by simp [Net.withNode, size, consistent.outgoingSize]
  incomingSize := by simp [Net.withNode, size, consistent.incomingSize]
  arcsDiffer := consistent.arcsDiffer
  arcsAlternate := by
    intro arc member
    obtain ⟨kind, source, target⟩ := consistent.arcsAlternate arc member
    refine ⟨kind, ?_, ?_⟩
    · rw [kind?_withNode (kindInRange source), source]
    · rw [kind?_withNode (kindInRange target), target]
  successorsExact := by
    intro handle
    rw [successors_withNode, consistent.successorsExact]
    rfl
  predecessorsExact := by
    intro handle
    rw [predecessors_withNode, consistent.predecessorsExact]
    rfl

/-- An arc of the net leads from one node to the other. -/
def HasArc (net : Net) (source target : Handle) : Prop := ⟨source, target⟩ ∈ net.arcs

instance (net : Net) (source target : Handle) : Decidable (net.HasArc source target) :=
  decidable_of_iff (⟨source, target⟩ ∈ net.arcs.toList) Array.mem_toList_iff

/-- The successors of a consistent net are the targets of its arcs. -/
theorem Consistent.mem_successors_iff {net : Net} (consistent : net.Consistent)
    {source target : Handle} : target ∈ net.successors source ↔ net.HasArc source target := by
  rw [consistent.successorsExact]
  constructor
  · intro member
    obtain ⟨arc, inArcs, rfl⟩ := List.mem_map.1 member
    obtain ⟨inNet, leaves⟩ := List.mem_filter.1 inArcs
    have same : arc.source = source := of_decide_eq_true leaves
    exact same ▸ Array.mem_toList_iff.1 inNet
  · intro member
    exact List.mem_map.2 ⟨⟨source, target⟩,
      List.mem_filter.2 ⟨Array.mem_toList_iff.2 member, by simp⟩, rfl⟩

/--
A new arc between nodes of different kinds keeps the net consistent.
Both lists of neighbours show it behind the earlier arcs, as the list of all arcs does.
-/
theorem Consistent.withArc {net : Net} (consistent : net.Consistent) {source target : Handle}
    {kind : NodeKind} (sourceKind : net.kind? source = some kind)
    (targetKind : net.kind? target = some kind.other) (fresh : target ∉ net.successors source) :
    (net.withArc source target).Consistent where
  idsDiffer := consistent.idsDiffer
  indexExact := consistent.indexExact
  outgoingSize := by simpa [Net.withArc, size] using consistent.outgoingSize
  incomingSize := by simpa [Net.withArc, size] using consistent.incomingSize
  arcsDiffer := by
    have isNew : ⟨source, target⟩ ∉ net.arcs := fun member =>
      fresh (consistent.mem_successors_iff.2 member)
    simp only [Net.withArc, Array.toList_push]
    exact List.nodup_append.2 ⟨consistent.arcsDiffer, List.nodup_singleton _, by
      intro arc known other single same
      rw [List.mem_singleton.1 single] at same
      exact isNew (same ▸ Array.mem_toList_iff.1 known)⟩
  arcsAlternate := by
    intro arc member
    rcases Array.mem_push.1 member with earlier | rfl
    · exact consistent.arcsAlternate arc earlier
    · exact ⟨kind, sourceKind, targetKind⟩
  successorsExact := by
    intro handle
    have inRange := consistent.outgoingSize ▸ kindInRange sourceKind
    rw [successors_withArc target inRange, arcsFrom_withArc, consistent.successorsExact]
    split <;> simp
  predecessorsExact := by
    intro handle
    have inRange := consistent.incomingSize ▸ kindInRange targetKind
    rw [predecessors_withArc source inRange, arcsTo_withArc, consistent.predecessorsExact]
    split <;> simp

/-- An arc leads to a node of the other kind. -/
theorem HasArc.hasKind {net : Net} {source target : Handle} (arc : net.HasArc source target)
    (consistent : net.Consistent) (kind : NodeKind) :
    net.hasKind kind target = !net.hasKind kind source := by
  obtain ⟨first, sourceKind, targetKind⟩ := consistent.arcsAlternate _ arc
  simp only [Net.hasKind, sourceKind, targetKind]
  cases first <;> cases kind <;> rfl

/-- A consistent net lists no successor twice. -/
theorem Consistent.successors_nodup {net : Net} (consistent : net.Consistent) (handle : Handle) :
    (net.successors handle).Nodup := by
  rw [consistent.successorsExact]
  refine List.Nodup.map_on ?_ (consistent.arcsDiffer.filter _)
  intro first inFirst second inSecond same
  have firstLeaves : first.source = handle := of_decide_eq_true (List.mem_filter.1 inFirst).2
  have secondLeaves : second.source = handle := of_decide_eq_true (List.mem_filter.1 inSecond).2
  cases first
  cases second
  simp_all

/-- A node of a consistent net has no successors exactly when no arc leaves it. -/
theorem Consistent.successors_eq_nil_iff {net : Net} (consistent : net.Consistent)
    {handle : Handle} : net.successors handle = [] ↔ ∀ target, ¬net.HasArc handle target := by
  simp only [List.eq_nil_iff_forall_not_mem, consistent.mem_successors_iff]

/-- The predecessors of a consistent net are the sources of its arcs. -/
theorem Consistent.mem_predecessors_iff {net : Net} (consistent : net.Consistent)
    {source target : Handle} : source ∈ net.predecessors target ↔ net.HasArc source target := by
  rw [consistent.predecessorsExact]
  constructor
  · intro member
    obtain ⟨arc, inArcs, rfl⟩ := List.mem_map.1 member
    obtain ⟨inNet, enters⟩ := List.mem_filter.1 inArcs
    have same : arc.target = target := of_decide_eq_true enters
    exact same ▸ Array.mem_toList_iff.1 inNet
  · intro member
    exact List.mem_map.2 ⟨⟨source, target⟩,
      List.mem_filter.2 ⟨Array.mem_toList_iff.2 member, by simp⟩, rfl⟩

/-- A node of a consistent net has no predecessors exactly when no arc enters it. -/
theorem Consistent.predecessors_eq_nil_iff {net : Net} (consistent : net.Consistent)
    {handle : Handle} : net.predecessors handle = [] ↔ ∀ source, ¬net.HasArc source handle := by
  simp only [List.eq_nil_iff_forall_not_mem, consistent.mem_predecessors_iff]

/-- Every operation keeps the lists of a net in agreement. -/
theorem Built.consistent {net : Net} (built : net.Built) : net.Consistent := by
  induction built with
  | empty id => exact .empty id
  | node node _ added consistent =>
      obtain ⟨fresh, rfl⟩ := addNode_ok_iff.1 added
      exact consistent.withNode fresh
  | @arc net _ source target _ added consistent =>
      obtain ⟨first, second, found, foundToo, different, rfl⟩ := addArc_ok_iff.1 added
      split
      · exact consistent
      · rename_i fresh
        have sourceKind : net.kind? source = some first.kind := by simp [kind?, found]
        have targetKind : net.kind? target = some first.kind.other := by
          simp [kind?, foundToo, NodeKind.eq_other_of_ne different]
        exact consistent.withArc sourceKind targetKind fresh

end Net

end PetriLogic
