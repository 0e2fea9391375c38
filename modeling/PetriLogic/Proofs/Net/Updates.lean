import PetriLogic.Proofs.Net.Operations
import PetriLogic.Proofs.Net.Rebuilding
import PetriLogic.Proofs.Net.Walks

namespace PetriLogic.Net

namespace Edit

/-- This is the fault that an edit ends with, if it fails. -/
def fault? {Result : Type} (edit : Edit Result) (net : Net) : Option Fault :=
  match (edit.apply net).1 with
  | .ok _ => none
  | .error fault => some fault

/-- An attempt fails with the fault of its edit. -/
theorem attempt_error_iff {Result : Type} {edit : Edit Result} {net : Net} {fault : Fault} :
    edit.attempt net = .error fault ↔ edit.fault? net = some fault := by
  rw [attempt, fault?]
  split <;> simp [*]

/-- An edit that fails leaves the net as it was. -/
def Atomic {Result : Type} (edit : Edit Result) : Prop :=
  ∀ net, (edit.fault? net).isSome → (edit.apply net).2 = net

/-- A node is refused exactly when its id is taken. -/
theorem fault?_addNode (net : Net) (node : Node) :
    (addNode node).fault? net = (net.find? node.id).map fun _ => .duplicateNode node.id := by
  rw [fault?, apply_addNode]
  cases net.find? node.id <;> rfl

/-- An arc is refused for an unknown handle, the source first, or for equal kinds at its ends. -/
theorem fault?_addArc (net : Net) (source target : Handle) :
    (addArc source target).fault? net =
      match net.get? source, net.get? target with
      | none, _ => some (.unknownHandle source)
      | some _, none => some (.unknownHandle target)
      | some first, some second =>
          if first.kind = second.kind then some (.sameKind first.id second.id) else none := by
  rw [fault?, apply_addArc]
  cases net.get? source with
  | none => rfl
  | some first =>
      cases net.get? target with
      | none => rfl
      | some second => by_cases alike : first.kind = second.kind <;> simp [alike]

/-- Connecting two ids is refused for an unknown id, the source first, or like the arc. -/
theorem fault?_connect (net : Net) (source target : String) :
    (connect source target).fault? net =
      match net.find? source, net.find? target with
      | none, _ => some (.unknownNode source)
      | some _, none => some (.unknownNode target)
      | some first, some second => (addArc first second).fault? net := by
  rw [fault?, apply_connect, lookup, lookup]
  cases net.find? source with
  | none => rfl
  | some first => cases net.find? target <;> rfl

/-- Refusing a node changes nothing. -/
theorem atomic_addNode (node : Node) : (addNode node).Atomic := by
  intro net fails
  rw [fault?_addNode] at fails
  rw [apply_addNode]
  cases known : net.find? node.id with
  | none => simp [known] at fails
  | some handle => rfl

/-- Refusing an arc changes nothing. -/
theorem atomic_addArc (source target : Handle) : (addArc source target).Atomic := by
  intro net fails
  rw [fault?_addArc] at fails
  rw [apply_addArc]
  cases found : net.get? source with
  | none => rfl
  | some first =>
      cases foundToo : net.get? target with
      | none => rfl
      | some second =>
          by_cases alike : first.kind = second.kind
          · simp [alike]
          · simp [found, foundToo, alike] at fails

/-- Refusing to connect two ids changes nothing. -/
theorem atomic_connect (source target : String) : (connect source target).Atomic := by
  intro net fails
  rw [fault?_connect] at fails
  rw [apply_connect, lookup, lookup]
  cases found : net.find? source with
  | none => rfl
  | some first =>
      cases foundToo : net.find? target with
      | none => rfl
      | some second =>
          simp only [found, foundToo] at fails
          exact atomic_addArc first second net fails

end Edit

/-- This is the fault that a call ends with, if it fails. -/
def fault? (net : Net) : Operation → Option Fault
  | .addPlace place => (Edit.addPlace place).fault? net
  | .addTransition transition => (Edit.addTransition transition).fault? net
  | .addNode node => (Edit.addNode node).fault? net
  | .addArc source target => (Edit.addArc source target).fault? net
  | .connect source target => (Edit.connect source target).fault? net

/-- A call that fails leaves the net as it was. -/
theorem after_of_fails {net : Net} {operation : Operation}
    (fails : (net.fault? operation).isSome) : net.after operation = net := by
  cases operation with
  | addPlace place => exact Edit.atomic_addNode (.place place) net fails
  | addTransition transition => exact Edit.atomic_addNode (.transition transition) net fails
  | addNode node => exact Edit.atomic_addNode node net fails
  | addArc source target => exact Edit.atomic_addArc source target net fails
  | connect source target => exact Edit.atomic_connect source target net fails

/-- An arc is refused when an end is unknown or both ends have the same kind. -/
theorem addArc_fails_iff {net : Net} {source target : Handle} :
    (net.fault? (.addArc source target)).isSome ↔
      net.size ≤ source ∨ net.size ≤ target ∨ net.kind? source = net.kind? target := by
  have unknown {handle : Handle} : net.get? handle = none ↔ net.size ≤ handle :=
    Array.getElem?_eq_none_iff
  rw [← unknown, ← unknown, fault?, Edit.fault?_addArc, kind?, kind?]
  cases net.get? source with
  | none => simp
  | some first =>
      cases net.get? target with
      | none => simp
      | some second => by_cases alike : first.kind = second.kind <;> simp [alike]

/-- A consistent net refuses the nodes whose id one of its own nodes has. -/
theorem addNode_fails_iff {net : Net} (consistent : net.Consistent) {node : Node} :
    (net.fault? (.addNode node)).isSome ↔ node.id ∈ net.nodes.toList.map Node.id := by
  rw [fault?, Edit.fault?_addNode, Option.isSome_map, Option.isSome_iff_ne_none, ne_eq,
    consistent.find?_eq_none_iff, not_not]

/-- Two ids cannot be connected when one is unknown or both belong to nodes of the same kind. -/
theorem connect_fails_iff {net : Net} (consistent : net.Consistent) {source target : String} :
    (net.fault? (.connect source target)).isSome ↔
      net.find? source = none ∨ net.find? target = none ∨
        ∃ first second, net.find? source = some first ∧ net.find? target = some second ∧
          net.kind? first = net.kind? second := by
  rw [fault?, Edit.fault?_connect]
  cases found : net.find? source with
  | none => simp
  | some first =>
      cases foundToo : net.find? target with
      | none => simp
      | some second =>
          have inside := consistent.lt_size_of_find? found
          have insideToo := consistent.lt_size_of_find? foundToo
          have fails := @addArc_fails_iff net first second
          rw [fault?] at fails
          simpa [Nat.not_le.2 inside, Nat.not_le.2 insideToo] using fails

/-- An arc that is there already is taken again, and it changes nothing. -/
theorem Consistent.apply_addArc_of_hasArc {net : Net} (consistent : net.Consistent)
    {source target : Handle} (arc : net.HasArc source target) :
    (Edit.addArc source target).apply net = (.ok (), net) := by
  obtain ⟨kind, sourceKind, targetKind⟩ := consistent.arcsAlternate _ arc
  obtain ⟨first, found, rfl⟩ := Option.map_eq_some_iff.1 sourceKind
  obtain ⟨second, foundToo, otherKind⟩ := Option.map_eq_some_iff.1 targetKind
  have different : first.kind ≠ second.kind := by
    rw [otherKind]
    cases first.kind <;> decide
  have known := consistent.mem_successors_iff.2 arc
  simp [Edit.apply_addArc, found, foundToo, different, known]

/-- The same arc can be given by the ids of its nodes. -/
theorem Consistent.apply_connect_of_hasArc {net : Net} (consistent : net.Consistent)
    {source target : Handle} (arc : net.HasArc source target) :
    (Edit.connect (net.idOf source) (net.idOf target)).apply net = (.ok (), net) := by
  obtain ⟨kind, sourceKind, targetKind⟩ := consistent.arcsAlternate _ arc
  rw [Edit.apply_connect, lookup, lookup, consistent.find?_idOf sourceKind,
    consistent.find?_idOf targetKind]
  exact consistent.apply_addArc_of_hasArc arc

/-- All that is known about the first net stays true of the second one. -/
structure Continues (first second : Net) : Prop extends first.Extends second where
  id : second.id = first.id
  successors : ∀ handle, first.successors handle <+: second.successors handle
  predecessors : ∀ handle, first.predecessors handle <+: second.predecessors handle
  node : ∀ handle node, first.get? handle = some node → second.get? handle = some node
  index : ∀ id handle, first.find? id = some handle → second.find? id = some handle
  walk : ∀ start finish nodes, first.IsWalk start finish nodes → second.IsWalk start finish nodes

/-- A consistent extension with the same id continues a consistent net. -/
theorem Extends.continues {first second : Net} (larger : first.Extends second)
    (firstConsistent : first.Consistent) (secondConsistent : second.Consistent)
    (sameId : second.id = first.id) : first.Continues second where
  toExtends := larger
  id := sameId
  successors := by
    intro handle
    rw [firstConsistent.successorsExact, secondConsistent.successorsExact]
    exact (larger.arcs.filter _).map _
  predecessors := by
    intro handle
    rw [firstConsistent.predecessorsExact, secondConsistent.predecessorsExact]
    exact (larger.arcs.filter _).map _
  node := fun _ _ found => larger.get? found
  index := by
    intro id handle known
    obtain ⟨node, found, sameNode⟩ := (firstConsistent.indexExact _ _).1 known
    exact (secondConsistent.indexExact _ _).2 ⟨node, larger.get? found, sameNode⟩
  walk := fun _ _ _ walk => ⟨walk.begins, walk.ends, walk.follows.imp fun _ _ => larger.hasArc⟩

/-- A call keeps the id of the net. -/
theorem Grows.id_eq {net next : Net} (grows : net.Grows next) : next.id = net.id := by
  cases grows <;> rfl

/-- Any calls keep the id of the net. -/
theorem id_afterAll (net : Net) (operations : List Operation) :
    (net.afterAll operations).id = net.id := by
  induction operations generalizing net with
  | nil => rfl
  | cons operation operations inductionHypothesis =>
      exact (inductionHypothesis (net.after operation)).trans (net.grows_after operation).id_eq

/--
A call that fails changes nothing, and neither does an arc that is there already. After any calls
the earlier nodes, arcs and neighbours come first, in their order, so that handles, ids and walks
keep their meaning. The calls fail for a known id, an unknown node or nodes of one kind, and for
nothing else.
-/
theorem Reachable.updates_exact {net : Net} (reachable : net.Reachable) :
    (∀ operation, (net.fault? operation).isSome → net.after operation = net) ∧
    (∀ source target, net.HasArc source target →
      (Edit.addArc source target).apply net = (.ok (), net) ∧
      (Edit.connect (net.idOf source) (net.idOf target)).apply net = (.ok (), net)) ∧
    (∀ operations, net.Continues (net.afterAll operations)) ∧
    (∀ node, (net.fault? (.addNode node)).isSome ↔ node.id ∈ net.nodes.toList.map Node.id) ∧
    (∀ source target, (net.fault? (.addArc source target)).isSome ↔
      net.size ≤ source ∨ net.size ≤ target ∨ net.kind? source = net.kind? target) ∧
    ∀ source target, (net.fault? (.connect source target)).isSome ↔
      net.find? source = none ∨ net.find? target = none ∨
        ∃ first second, net.find? source = some first ∧ net.find? target = some second ∧
          net.kind? first = net.kind? second := by
  have consistent := reachable.consistent
  refine ⟨fun _ => after_of_fails, fun source target arc => ?_, fun operations => ?_,
    fun _ => addNode_fails_iff consistent, fun _ _ => addArc_fails_iff,
    fun _ _ => connect_fails_iff consistent⟩
  · exact ⟨consistent.apply_addArc_of_hasArc arc, consistent.apply_connect_of_hasArc arc⟩
  · exact (net.extends_afterAll operations).continues consistent
      (reachable.afterAll operations).consistent (net.id_afterAll operations)

/-- A call that is refused and an arc that is there leave the ring as it was. -/
theorem ringWithExit_kept : ringWithExit.Reachable ∧
    (ringWithExit.fault? (.addArc 0 1)).isSome ∧ ringWithExit.after (.addArc 0 1) = ringWithExit ∧
    ringWithExit.HasArc 0 3 ∧
    (Edit.connect "A" "t1").apply ringWithExit = (.ok (), ringWithExit) ∧
    ringWithExit.IsWalk 0 0 [0, 3, 1, 4, 0] ∧
    (ringWithExit.afterAll ringCalls).IsWalk 0 0 [0, 3, 1, 4, 0] := by
  have reachable := ringWithExit_built.reachable
  have walk : ringWithExit.IsWalk 0 0 [0, 3, 1, 4, 0] := ⟨rfl, rfl, by decide⟩
  have arc : ringWithExit.HasArc 0 3 := by decide
  obtain ⟨refused, known, continues, _, fails, _⟩ := reachable.updates_exact
  have alike := (fails 0 1).2 (by decide)
  exact ⟨reachable, alike, refused _ alike, arc, (known 0 3 arc).2, walk,
    (continues ringCalls).walk _ _ _ walk⟩

end PetriLogic.Net
