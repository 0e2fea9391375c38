import PetriLogic.Net.Description
import PetriLogic.Proofs.Failure

namespace PetriLogic.Net

/-- This is the net after a node with a new id is added. -/
def withNode (net : Net) (node : Node) : Net :=
  { net with
    index := (node.id, net.size) :: net.index
    nodes := net.nodes.push node
    outgoing := net.outgoing.push []
    incoming := net.incoming.push [] }

/-- This is the net after a new arc between two nodes of different kinds is added. -/
def withArc (net : Net) (source target : Handle) : Net :=
  { net with
    arcs := net.arcs.push ⟨source, target⟩
    outgoing := net.outgoing.modify source (· ++ [target])
    incoming := net.incoming.modify target (· ++ [source]) }

namespace Edit

/-- A node with a known id is refused before anything changes. -/
theorem apply_addNode (net : Net) (node : Node) :
    (addNode node).apply net =
      match net.find? node.id with
      | some _ => (.error (.duplicateNode node.id), net)
      | none => (.ok net.size, net.withNode node) := by
  rw [addNode, apply_get_bind]
  cases net.find? node.id with
  | none => simp only [apply_modify_bind, apply_pure, withNode]
  | some handle => rw [apply_throw]

/-- An arc that does not fit is refused before anything changes. -/
theorem apply_addArc (net : Net) (source target : Handle) :
    (addArc source target).apply net =
      match net.get? source, net.get? target with
      | none, _ => (.error (.unknownHandle source), net)
      | some _, none => (.error (.unknownHandle target), net)
      | some first, some second =>
          if first.kind = second.kind then (.error (.sameKind first.id second.id), net)
          else (.ok (),
            if target ∈ net.successors source then net else net.withArc source target) := by
  rw [addArc, apply_get_bind]
  cases net.get? source with
  | none => rfl
  | some first =>
      cases net.get? target with
      | none => rfl
      | some second =>
          by_cases alike : first.kind = second.kind
          · simp [alike]
          · by_cases known : target ∈ net.successors source
            · simp [alike, known]
            · simp [alike, known, withArc]

/-- Ids are looked up before an arc is added between their nodes. -/
theorem apply_connect (net : Net) (source target : String) :
    (connect source target).apply net =
      match net.lookup source, net.lookup target with
      | .error fault, _ => (.error fault, net)
      | .ok _, .error fault => (.error fault, net)
      | .ok first, .ok second => (addArc first second).apply net := by
  rw [connect, apply_get_bind]
  cases net.lookup source with
  | error fault => rw [apply_fault_bind]
  | ok first =>
      rw [apply_answer_bind]
      cases net.lookup target with
      | error fault => rw [apply_fault_bind]
      | ok second => rw [apply_answer_bind]

end Edit

/-- A node is added exactly when its id is new. -/
theorem addNode_ok_iff {net next : Net} {node : Node} :
    net.addNode node = .ok next ↔ net.find? node.id = none ∧ next = net.withNode node := by
  rw [addNode, Edit.attempt, Edit.apply_addNode]
  cases net.find? node.id with
  | none => simp [eq_comm]
  | some handle => simp

/-- An arc is added or already there, and it joins nodes of different kinds. -/
theorem addArc_ok_iff {net next : Net} {source target : Handle} :
    net.addArc source target = .ok next ↔
      ∃ first second, net.get? source = some first ∧ net.get? target = some second ∧
        first.kind ≠ second.kind ∧
        next = if target ∈ net.successors source then net else net.withArc source target := by
  rw [addArc, Edit.attempt, Edit.apply_addArc]
  cases net.get? source with
  | none => simp
  | some first =>
      cases net.get? target with
      | none => simp
      | some second =>
          by_cases alike : first.kind = second.kind
          · simp [alike]
          · simp [alike, eq_comm]

/-- Connecting two ids looks both of them up, the source first, and adds an arc between them. -/
theorem connect_eq (net : Net) (source target : String) :
    net.connect source target = (do
      let first ← net.lookup source
      let second ← net.lookup target
      net.addArc first second) := by
  rw [connect, Edit.attempt, Edit.apply_connect]
  cases net.lookup source with
  | error fault => rfl
  | ok first => cases net.lookup target <;> rfl

/-- These are the nets that the operations build. A failed operation builds nothing. -/
inductive Built : Net → Prop where
  | empty (id : String) : Built (.empty id)
  | node {net next : Net} (node : Node) (earlier : Built net)
      (added : net.addNode node = .ok next) : Built next
  | arc {net next : Net} (source target : Handle) (earlier : Built net)
      (added : net.addArc source target = .ok next) : Built next

/-- Connecting nodes by their ids adds an arc. -/
theorem Built.connect {net next : Net} {source target : String} (built : net.Built)
    (connected : net.connect source target = .ok next) : next.Built := by
  rw [connect_eq] at connected
  obtain ⟨first, _, rest⟩ := bind_ok_iff.1 connected
  obtain ⟨second, _, added⟩ := bind_ok_iff.1 rest
  exact .arc first second built added

/-- Steps that keep a property of nets keep it in every sequence of them. -/
theorem foldlM_keeps {Item : Type} {property : Net → Prop} {step : Net → Item → Except Fault Net}
    (keeps : ∀ {net next item}, property net → step net item = .ok next → property next)
    {items : List Item} {net final : Net} (initially : property net)
    (folded : items.foldlM step net = .ok final) : property final := by
  induction items generalizing net with
  | nil =>
      cases folded
      exact initially
  | cons item items inductionHypothesis =>
      rw [List.foldlM_cons] at folded
      obtain ⟨next, taken, rest⟩ := bind_ok_iff.1 folded
      exact inductionHypothesis (keeps initially taken) rest

/-- Reading a description uses the same operations. -/
theorem Built.ofDescription {description : Description} {net : Net}
    (read : Net.ofDescription description = .ok net) : net.Built := by
  obtain ⟨placed, nodesAdded, connected⟩ := bind_ok_iff.1 read
  have placedBuilt : placed.Built := foldlM_keeps (fun earlier added => .node _ earlier added)
    (.empty description.id) nodesAdded
  exact foldlM_keeps (fun earlier added => earlier.connect added) placedBuilt connected

/-- The arcs A → t1 → B → t2 → A form a ring, and the arcs B → t3 → C leave it. -/
def ringWithExit : Net where
  id := "ring"
  nodes := #[.place ⟨"A", .empty⟩, .place ⟨"B", .empty⟩, .place ⟨"C", .empty⟩,
    .transition ⟨"t1", .idle⟩, .transition ⟨"t2", .idle⟩, .transition ⟨"t3", .idle⟩]
  arcs := #[⟨0, 3⟩, ⟨3, 1⟩, ⟨1, 4⟩, ⟨4, 0⟩, ⟨1, 5⟩, ⟨5, 2⟩]
  index := [("t3", 5), ("t2", 4), ("t1", 3), ("C", 2), ("B", 1), ("A", 0)]
  outgoing := #[[3], [4, 5], [], [1], [0], [2]]
  incoming := #[[4], [3], [5], [0], [1], [1]]

/-- The net is what its own description loads. -/
theorem ringWithExit_built : ringWithExit.Built :=
  Built.ofDescription (show Net.ofDescription ringWithExit.description = .ok ringWithExit by rfl)

end PetriLogic.Net
