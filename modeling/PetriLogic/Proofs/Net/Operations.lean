import PetriLogic.Proofs.Net.Consistency

namespace PetriLogic.Net

/-- These are the calls that change a net. -/
inductive Operation where
  | addPlace (place : Place)
  | addTransition (transition : Transition)
  | addNode (node : Node)
  | addArc (source target : Handle)
  | connect (source target : String)

/-- This is the net that a call leaves behind, whether the call succeeds or fails. -/
def after (net : Net) : Operation → Net
  | .addPlace place => ((Edit.addPlace place).apply net).2
  | .addTransition transition => ((Edit.addTransition transition).apply net).2
  | .addNode node => ((Edit.addNode node).apply net).2
  | .addArc source target => ((Edit.addArc source target).apply net).2
  | .connect source target => ((Edit.connect source target).apply net).2

/-- Calls follow each other, and a failure does not stop them. -/
def afterAll (net : Net) (operations : List Operation) : Net := operations.foldl after net

/-- These nets come from an empty net, or from one that was read, by any calls. -/
inductive Reachable : Net → Prop where
  | empty (id : String) : Reachable (.empty id)
  | read {net : Net} (description : Description) (found : ofDescription description = .ok net) :
      Reachable net
  | after {net : Net} (operation : Operation) (earlier : Reachable net) :
      Reachable (net.after operation)

/-- What successful calls build is reached by them. -/
theorem Built.reachable {net : Net} (built : net.Built) : net.Reachable := by
  induction built with
  | empty id => exact .empty id
  | node node _ added earlier =>
      rw [← Edit.attempt_eq_ok added]
      exact .after (.addNode node) earlier
  | arc source target _ added earlier =>
      rw [← Edit.attempt_eq_ok added]
      exact .after (.addArc source target) earlier

/-- A call changes nothing, or it adds one node or one arc that the net can take. -/
inductive Grows (net : Net) : Net → Prop where
  | same : net.Grows net
  | node {node : Node} (fresh : net.find? node.id = none) : net.Grows (net.withNode node)
  | arc {source target : Handle} {kind : NodeKind} (sourceKind : net.kind? source = some kind)
      (targetKind : net.kind? target = some kind.other)
      (fresh : target ∉ net.successors source) : net.Grows (net.withArc source target)

/-- Adding a node changes nothing, or the net takes this node. -/
theorem grows_addNode (net : Net) (node : Node) :
    net.Grows ((Edit.addNode node).apply net).2 := by
  rw [Edit.apply_addNode]
  cases fresh : net.find? node.id with
  | some handle => exact .same
  | none => exact .node fresh

/-- Adding an arc changes nothing, or the net takes this arc. -/
theorem grows_addArc (net : Net) (source target : Handle) :
    net.Grows ((Edit.addArc source target).apply net).2 := by
  rw [Edit.apply_addArc]
  cases found : net.get? source with
  | none => exact .same
  | some first =>
      cases foundToo : net.get? target with
      | none => exact .same
      | some second =>
          by_cases alike : first.kind = second.kind
          · simp only [alike, if_true]
            exact .same
          · by_cases known : target ∈ net.successors source
            · simp only [alike, known, if_true, if_false]
              exact .same
            · simp only [alike, known, if_false]
              have sourceKind : net.kind? source = some first.kind := by simp [kind?, found]
              have targetKind : net.kind? target = some first.kind.other := by
                simp [kind?, foundToo, NodeKind.eq_other_of_ne alike]
              exact .arc sourceKind targetKind known

/-- Every call changes nothing, or the net takes one node or one arc. -/
theorem grows_after (net : Net) (operation : Operation) : net.Grows (net.after operation) := by
  cases operation with
  | addPlace place => exact net.grows_addNode (.place place)
  | addTransition transition => exact net.grows_addNode (.transition transition)
  | addNode node => exact net.grows_addNode node
  | addArc source target => exact net.grows_addArc source target
  | connect source target =>
      rw [after, Edit.apply_connect]
      cases net.lookup source with
      | error fault => exact .same
      | ok first =>
          cases net.lookup target with
          | error fault => exact .same
          | ok second => exact net.grows_addArc first second

/-- What a call leaves behind can be built by calls that succeed. -/
theorem Grows.built {net next : Net} (grows : net.Grows next) (built : net.Built) :
    next.Built := by
  cases grows with
  | same => exact built
  | @node node fresh => exact .node node built (addNode_ok_iff.2 ⟨fresh, rfl⟩)
  | @arc source target kind sourceKind targetKind fresh =>
      obtain ⟨first, found, rfl⟩ := Option.map_eq_some_iff.1 sourceKind
      obtain ⟨second, foundToo, otherKind⟩ := Option.map_eq_some_iff.1 targetKind
      refine .arc source target built (addArc_ok_iff.2 ⟨first, second, found, foundToo, ?_, ?_⟩)
      · rw [otherKind]
        cases first.kind <;> decide
      · rw [if_neg fresh]

/-- A new arc comes behind the arcs that were there before. -/
theorem Grows.arcs_eq {net next : Net} (grows : net.Grows next) :
    next.arcs = net.arcs ∨ ∃ arc, next.arcs = net.arcs.push arc := by
  cases grows with
  | same => exact .inl rfl
  | node _ => exact .inl rfl
  | @arc source target => exact .inr ⟨⟨source, target⟩, rfl⟩

/-- The nodes and arcs of the first net come first in the second one. -/
structure Extends (first second : Net) : Prop where
  nodes : first.nodes.toList <+: second.nodes.toList
  arcs : first.arcs.toList <+: second.arcs.toList

namespace Extends

variable {first second third : Net}

/-- A net extends itself. -/
theorem refl (net : Net) : net.Extends net := ⟨List.prefix_refl _, List.prefix_refl _⟩

/-- Extensions of nets compose. -/
theorem trans (earlier : first.Extends second) (later : second.Extends third) :
    first.Extends third :=
  ⟨earlier.nodes.trans later.nodes, earlier.arcs.trans later.arcs⟩

/-- A handle goes on to mean the same node. -/
theorem get? (larger : first.Extends second) {handle : Handle} {node : Node}
    (found : first.get? handle = some node) : second.get? handle = some node := by
  rw [Net.get?, ← Array.getElem?_toList] at found ⊢
  obtain ⟨rest, whole⟩ := larger.nodes
  rw [← whole, List.getElem?_append_left (List.getElem?_eq_some_iff.1 found).1, found]

/-- A larger net keeps the arcs. -/
theorem hasArc (larger : first.Extends second) {source target : Handle}
    (arc : first.HasArc source target) : second.HasArc source target :=
  Array.mem_toList_iff.1 (larger.arcs.subset (Array.mem_toList_iff.2 arc))

end Extends

/-- A net that grows is extended. -/
theorem Grows.extends {net next : Net} (grows : net.Grows next) : net.Extends next := by
  cases grows with
  | same => exact .refl net
  | node _ => exact ⟨by simp [withNode], List.prefix_refl _⟩
  | arc _ _ _ => exact ⟨List.prefix_refl _, by simp [withArc]⟩

/-- A net is extended by any calls. -/
theorem extends_afterAll (net : Net) (operations : List Operation) :
    net.Extends (net.afterAll operations) := by
  induction operations generalizing net with
  | nil => exact .refl net
  | cons operation operations inductionHypothesis =>
      exact (net.grows_after operation).extends.trans (inductionHypothesis (net.after operation))

/-- Every net that some calls lead to is built. -/
theorem Reachable.built {net : Net} (reachable : net.Reachable) : net.Built := by
  induction reachable with
  | empty id => exact .empty id
  | read description found => exact .ofDescription found
  | @after net operation _ built => exact (net.grows_after operation).built built

/-- Every net that some calls lead to is consistent. -/
theorem Reachable.consistent {net : Net} (reachable : net.Reachable) : net.Consistent :=
  reachable.built.consistent

/-- Further calls lead from a reachable net to a reachable one. -/
theorem Reachable.afterAll {net : Net} (reachable : net.Reachable) (operations : List Operation) :
    (net.afterAll operations).Reachable := by
  induction operations generalizing net with
  | nil => exact reachable
  | cons operation operations inductionHypothesis =>
      exact inductionHypothesis (.after operation reachable)

/--
The lists of a net agree with each other after any calls, failed ones included. Ids are different
and the index finds them, arcs are different and join known nodes of different kinds, and the
neighbours of a node are those that the arcs give it, in the order in which arcs were added.
-/
theorem Reachable.representation {net : Net} (reachable : net.Reachable) :
    (net.nodes.toList.map Node.id).Nodup ∧
    (∀ id handle, net.find? id = some handle ↔
      ∃ node, net.get? handle = some node ∧ node.id = id) ∧
    (net.outgoing.size = net.size ∧ net.incoming.size = net.size) ∧
    net.arcs.toList.Nodup ∧
    (∀ arc ∈ net.arcs, ∃ source target, net.get? arc.source = some source ∧
      net.get? arc.target = some target ∧ source.kind ≠ target.kind) ∧
    (∀ handle, net.successors handle = (net.arcsFrom handle).map Arc.target ∧
      net.predecessors handle = (net.arcsTo handle).map Arc.source) ∧
    ∀ operation, (net.after operation).arcs = net.arcs ∨
      ∃ arc, (net.after operation).arcs = net.arcs.push arc := by
  have consistent := reachable.consistent
  refine ⟨consistent.idsDiffer, consistent.indexExact,
    ⟨consistent.outgoingSize, consistent.incomingSize⟩, consistent.arcsDiffer, ?_, ?_, ?_⟩
  · intro arc member
    obtain ⟨kind, sourceKind, targetKind⟩ := consistent.arcsAlternate arc member
    obtain ⟨source, found, rfl⟩ := Option.map_eq_some_iff.1 sourceKind
    obtain ⟨target, foundToo, otherKind⟩ := Option.map_eq_some_iff.1 targetKind
    refine ⟨source, target, found, foundToo, ?_⟩
    rw [otherKind]
    cases source.kind <;> decide
  · intro handle
    exact ⟨consistent.successorsExact handle, consistent.predecessorsExact handle⟩
  · intro operation
    exact (net.grows_after operation).arcs_eq

/-- Only the last two of these calls change the ring, and the first four are refused. -/
def ringCalls : List Operation :=
  [.addPlace ⟨"A", .empty⟩, .addArc 0 1, .addArc 0 9, .connect "A" "D", .connect "A" "t1",
    .addTransition ⟨"t4", .idle⟩, .connect "C" "t4"]

/-- The new transition behind C is found, and the arc to it is shown. -/
theorem ringWithExit_continued :
    (ringWithExit.afterAll ringCalls).Reachable ∧
    (ringWithExit.afterAll ringCalls).arcs = ringWithExit.arcs.push ⟨2, 6⟩ ∧
    (ringWithExit.afterAll ringCalls).find? "t4" = some 6 ∧
    (ringWithExit.afterAll ringCalls).successors 2 =
      ((ringWithExit.afterAll ringCalls).arcsFrom 2).map Arc.target := by
  have reachable : (ringWithExit.afterAll ringCalls).Reachable :=
    ringWithExit_built.reachable.afterAll ringCalls
  obtain ⟨_, _, _, _, _, neighbours, _⟩ := reachable.representation
  exact ⟨reachable, by decide, by decide, (neighbours 2).1⟩

end PetriLogic.Net
