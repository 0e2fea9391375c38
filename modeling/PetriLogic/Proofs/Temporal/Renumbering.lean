import PetriLogic.Proofs.Path.Renumbering
import PetriLogic.Proofs.Temporal.Inspection
import PetriLogic.Temporal.Next

namespace PetriLogic

variable {move : Equiv.Perm Handle}

/-- A renumbered node stands where the node stands. -/
theorem idxOf_map (move : Equiv.Perm Handle) (nodes : List Handle) (handle : Handle) :
    (nodes.map move).idxOf (move handle) = nodes.idxOf handle := by
  induction nodes with
  | nil => rfl
  | cons first rest inductionHypothesis =>
      rw [List.map_cons, List.idxOf_cons, List.idxOf_cons, inductionHypothesis]
      simp only [beq_eq_decide, move.injective.eq_iff]

/-- Every other node can be taken before or after the nodes are renumbered. -/
theorem everyOther_map (move : Equiv.Perm Handle) (nodes : List Handle) :
    everyOther (nodes.map move) = (everyOther nodes).map move := by
  fun_induction everyOther nodes with
  | case1 => rfl
  | case2 handle => rfl
  | case3 handle skipped rest inductionHypothesis =>
      simp only [List.map_cons, everyOther, inductionHypothesis]

/-- A renumbered walk reaches the goal when the walk reaches it at the renumbered nodes. -/
theorem reaches_map (hold goal : Handle → Bool) (nodes : List Handle) :
    reaches hold goal (nodes.map move) =
      reaches (fun node => hold (move node)) (fun node => goal (move node)) nodes := by
  induction nodes with
  | nil => rfl
  | cons handle rest inductionHypothesis =>
      simp only [List.map_cons, reaches, inductionHypothesis]

/-- A renumbered walk has the outcome of the walk with renumbered tests. -/
theorem Outcome.ofWalk_map (hold goal : Handle → Bool) (nodes : List Handle) :
    ofWalk hold goal (nodes.map move) =
      ofWalk (fun node => hold (move node)) (fun node => goal (move node)) nodes := by
  induction nodes with
  | nil => rfl
  | cons handle rest inductionHypothesis =>
      simp only [List.map_cons, ofWalk, inductionHypothesis]

namespace Path

variable (move : Equiv.Perm Handle) (path : Path)

/-- The loop of a renumbered path is at the same positions. -/
theorem loopFrom_map (nodes : List Handle) (position : Nat) (rest : List Handle) :
    loopFrom (nodes.map move) position (rest.map move) = loopFrom nodes position rest := by
  induction rest generalizing position with
  | nil => rfl
  | cons handle rest inductionHypothesis =>
      simp only [List.map_cons, loopFrom, idxOf_map, inductionHypothesis]

/-- Loops are found by the positions of equal nodes, whatever their numbers are. -/
@[simp] theorem loop?_renumber : (path.renumber move).loop? = path.loop? :=
  loopFrom_map move path.nodes 0 path.nodes

/-- A renumbered path has the same length. -/
@[simp] theorem length_renumber : (path.renumber move).length = path.length := by
  simp [length]

/-- The walk along a renumbered path stops at the same position. -/
@[simp] theorem walkEnd_renumber : (path.renumber move).walkEnd = path.walkEnd := by
  simp only [walkEnd, loop?_renumber, length_renumber]

/-- The first round of a renumbered path stops at the same position. -/
@[simp] theorem firstRoundEnd_renumber :
    (path.renumber move).firstRoundEnd = path.firstRoundEnd := by
  simp only [firstRoundEnd, loop?_renumber, length_renumber]

/-- The nodes of the kind of the start are renumbered with the path. -/
@[simp] theorem sameKind_renumber (stop : Nat) :
    (path.renumber move).sameKind stop = (path.sameKind stop).map move := by
  rw [sameKind, renumber_nodes, ← List.map_take, everyOther_map, sameKind]

/-- A renumbered path shows the renumbered node at each position. -/
@[simp] theorem get?_renumber (position : Nat) :
    (path.renumber move).get? position = (path.get? position).map move := by
  simp [get?]

/-- The last node of the kind of the start is renumbered with the path. -/
@[simp] theorem lastSameKind_renumber :
    (path.renumber move).lastSameKind = move path.lastSameKind := by
  simp [lastSameKind, lastEven]

/-- The anchor is renumbered with the path. -/
@[simp] theorem anchor?_renumber : (path.renumber move).anchor? = path.anchor?.map move := by
  simp only [anchor?, loop?_renumber, get?_renumber]
  cases path.loop? <;> rfl

end Path

namespace Obligation

/-- A deferred obligation waits for the renumbered anchor. -/
def renumber (move : Equiv.Perm Handle) : Obligation → Obligation
  | .met => .met
  | .broken => .broken
  | .deferred anchor => .deferred (move anchor)

/-- Different obligations stay different when they are renumbered. -/
theorem renumber_injective : Function.Injective (renumber move) := by
  intro first second same
  cases first <;> cases second <;> simp_all [renumber]

/-- A renumbered path has the renumbered obligation of the path with renumbered tests. -/
theorem ofPath_renumber (hold goal : Handle → Bool) (path : Path) :
    ofPath hold goal (path.renumber move) =
      (ofPath (fun node => hold (move node)) (fun node => goal (move node)) path).renumber
        move := by
  simp only [ofPath, Path.walkEnd_renumber, Path.sameKind_renumber, ← List.map_drop,
    Outcome.ofWalk_map, Path.anchor?_renumber, Path.lastSameKind_renumber]
  cases Outcome.ofWalk (fun node => hold (move node)) (fun node => goal (move node))
      ((path.sameKind path.walkEnd).drop 1) with
  | satisfied => rfl
  | violated => rfl
  | unresolved =>
      cases path.anchor? with
      | some anchor => rfl
      | none => by_cases met : goal (move path.lastSameKind) = true <;> simp [met, renumber]

end Obligation

/-- A test of all items is a test of all their images. -/
theorem any_eq_any {Item Image : Type} {image : Item → Image} (onto : image.Surjective)
    {items : List Item} {images : List Image}
    (same : ∀ item, image item ∈ images ↔ item ∈ items) (test : Image → Bool) :
    images.any test = items.any fun item => test (image item) := by
  rw [Bool.eq_iff_iff, List.any_eq_true, List.any_eq_true, onto.exists]
  simp only [same]

/-- All images pass a test when all items pass it by their images. -/
theorem all_eq_all {Item Image : Type} {image : Item → Image} (onto : image.Surjective)
    {items : List Item} {images : List Image}
    (same : ∀ item, image item ∈ images ↔ item ∈ items) (test : Image → Bool) :
    images.all test = items.all fun item => test (image item) := by
  rw [Bool.eq_iff_iff, List.all_eq_true, List.all_eq_true, onto.forall]
  simp only [same]

namespace PathSet

/-- The paths of two sets correspond, and so does what their nets say about each node. -/
structure Renumbers (move : Equiv.Perm Handle) (first second : PathSet) : Prop where
  node : ∀ handle, second.net.get? (move handle) = first.net.get? handle
  terminal : ∀ handle, second.net.successors (move handle) = [] ↔ first.net.successors handle = []
  initial : ∀ handle,
    second.net.predecessors (move handle) = [] ↔ first.net.predecessors handle = []
  path : ∀ path, path.renumber move ∈ second.paths ↔ path ∈ first.paths

namespace Renumbers

variable {first second : PathSet} (renumbers : Renumbers move first second)
include renumbers

/-- The paths from a renumbered node are the renumbered paths. -/
theorem mem_startingAt (handle : Handle) (path : Path) :
    path.renumber move ∈ second.startingAt (move handle) ↔ path ∈ first.startingAt handle := by
  simp [startingAt, List.mem_filter, renumbers.path]

/-- At each offset, the renumbered paths show the renumbered nodes. -/
theorem mem_atOffset (handle : Handle) (offset : Nat) (node : Handle) :
    move node ∈ second.atOffset (move handle) offset ↔ node ∈ first.atOffset handle offset := by
  simp only [atOffset, List.mem_filterMap]
  rw [(Path.renumber_surjective move).exists (p := fun path => _ ∧ path.get? offset = _)]
  simp only [renumbers.mem_startingAt, Path.get?_renumber, Option.map_eq_some_iff,
    move.injective.eq_iff, exists_eq_right]

/-- The successors of a renumbered node are the renumbered successors. -/
theorem mem_successors (handle node : Handle) :
    move node ∈ second.successors (move handle) ↔ node ∈ first.successors handle := by
  simp only [successors, List.mem_eraseDups, renumbers.mem_atOffset]

/-- Some renumbered successor passes a test when some successor passes the renumbered test. -/
theorem any_successors (test : Handle → Bool) (handle : Handle) :
    (second.successors (move handle)).any test =
      (first.successors handle).any fun node => test (move node) :=
  any_eq_any move.surjective (renumbers.mem_successors handle) test

/-- All renumbered successors pass a test when all successors pass the renumbered test. -/
theorem all_successors (test : Handle → Bool) (handle : Handle) :
    (second.successors (move handle)).all test =
      (first.successors handle).all fun node => test (move node) :=
  all_eq_all move.surjective (renumbers.mem_successors handle) test

/-- All renumbered nodes at an offset pass a test when all nodes there pass the renumbered test. -/
theorem all_atOffset (test : Handle → Bool) (handle : Handle) (offset : Nat) :
    (second.atOffset (move handle) offset).all test =
      (first.atOffset handle offset).all fun node => test (move node) :=
  all_eq_all move.surjective (renumbers.mem_atOffset handle offset) test

/-- The modal operator has the same value at the renumbered node. -/
theorem modal (next : Handle → Bool) (handle : Handle) (kind : NodeKind) :
    second.modal next (move handle) kind =
      first.modal (fun node => next (move node)) handle kind := by
  cases kind with
  | place => exact renumbers.any_successors next handle
  | transition => exact renumbers.all_successors next handle

/-- The existential modal operator has the same value at the renumbered node. -/
theorem existsModal (later next : Handle → Bool) (handle : Handle) :
    second.existsModal later next (move handle) =
      first.existsModal (fun node => later (move node)) (fun node => next (move node)) handle := by
  simp only [PathSet.existsModal, renumbers.any_successors, renumbers.all_successors]

/-- The universal modal operator has the same value at the renumbered node. -/
theorem forallModal (later next : Handle → Bool) (handle : Handle) :
    second.forallModal later next (move handle) =
      first.forallModal (fun node => later (move node)) (fun node => next (move node)) handle := by
  simp only [PathSet.forallModal, renumbers.all_atOffset]

/-- The existential next has the same value at the renumbered node. -/
theorem existsNext (later : Handle → Bool) (handle : Handle) (kind : NodeKind) :
    second.existsNext later (move handle) kind =
      first.existsNext (fun node => later (move node)) handle kind := by
  cases kind <;>
    simp only [PathSet.existsNext, renumbers.any_successors, renumbers.all_successors]

/-- The universal next has the same value at the renumbered node. -/
theorem forallNext (later : Handle → Bool) (handle : Handle) (kind : NodeKind) :
    second.forallNext later (move handle) kind =
      first.forallNext (fun node => later (move node)) handle kind := by
  cases kind <;>
    simp only [PathSet.forallNext, renumbers.any_successors, renumbers.all_successors]

/-- The existential until has the same value at the renumbered node. -/
theorem existsUntil (hold goal : Handle → Bool) (handle : Handle) :
    second.existsUntil hold goal (move handle) =
      first.existsUntil (fun node => hold (move node)) (fun node => goal (move node)) handle := by
  rw [PathSet.existsUntil,
    any_eq_any (Path.renumber_surjective move) (renumbers.mem_startingAt handle)]
  simp only [Path.walkEnd_renumber, Path.sameKind_renumber, reaches_map, PathSet.existsUntil]

/-- The eventual goal has the same value at the renumbered node. -/
theorem eventually (goal : Handle → Bool) (handle : Handle) :
    second.eventually goal (move handle) =
      first.eventually (fun node => goal (move node)) handle := by
  rw [PathSet.eventually,
    all_eq_all (Path.renumber_surjective move) (renumbers.mem_startingAt handle)]
  simp only [Path.firstRoundEnd_renumber, Path.sameKind_renumber, List.any_map,
    Function.comp_def, PathSet.eventually]

/-- Some path of a node leaves an obligation open where its image leaves the image open. -/
theorem exists_ofPath (hold goal : Handle → Bool) (handle : Handle) (obligation : Obligation) :
    (∃ path ∈ second.startingAt (move handle),
        Obligation.ofPath hold goal path = obligation.renumber move) ↔
      ∃ path ∈ first.startingAt handle, Obligation.ofPath (fun node => hold (move node))
        (fun node => goal (move node)) path = obligation := by
  rw [(Path.renumber_surjective move).exists (p := fun path => path ∈ _ ∧ _)]
  simp only [renumbers.mem_startingAt, Obligation.ofPath_renumber,
    Obligation.renumber_injective.eq_iff]

/-- A renumbered node has a broken path exactly when the node has one. -/
theorem breaks (hold goal : Handle → Bool) (handle : Handle) :
    second.Breaks hold goal (move handle) ↔
      first.Breaks (fun node => hold (move node)) (fun node => goal (move node)) handle :=
  renumbers.exists_ofPath hold goal handle .broken

/-- A renumbered node is deferred to a renumbered anchor exactly when the node is deferred to it. -/
theorem defers (hold goal : Handle → Bool) (handle anchor : Handle) :
    second.Defers hold goal (move handle) (move anchor) ↔
      first.Defers (fun node => hold (move node)) (fun node => goal (move node)) handle anchor :=
  renumbers.exists_ofPath hold goal handle (.deferred anchor)

/-- The search may meet the anchors in another order, but it meets corresponding ones. -/
theorem forallUntil (hold goal : Handle → Bool) (handle : Handle) :
    second.forallUntil hold goal (move handle) =
      first.forallUntil (fun node => hold (move node)) (fun node => goal (move node)) handle := by
  have chains (anchor : Handle) :
      Relation.ReflTransGen (second.Defers hold goal) (move handle) (move anchor) ↔
        Relation.ReflTransGen (first.Defers (fun node => hold (move node))
          fun node => goal (move node)) handle anchor := by
    constructor
    · intro chain
      have back := chain.lift move.symm (p := first.Defers (fun node => hold (move node))
          fun node => goal (move node)) fun source target defers => by
        rw [Function.onFun_apply, ← renumbers.defers, move.apply_symm_apply, move.apply_symm_apply]
        exact defers
      rwa [Function.onFun_apply, move.symm_apply_apply, move.symm_apply_apply] at back
    · exact fun chain => chain.lift move fun source target => (renumbers.defers hold goal _ _).2
  rw [Bool.eq_iff_iff, forallUntil_eq_true_iff, forallUntil_eq_true_iff,
    ← move.forall_congr_right]
  simp only [chains, renumbers.breaks]

end Renumbers

end PathSet

end PetriLogic
