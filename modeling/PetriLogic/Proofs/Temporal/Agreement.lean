import PetriLogic.Proofs.Net.Walks
import PetriLogic.Proofs.Path.Loops
import PetriLogic.Proofs.Temporal.Inspection
import PetriLogic.Temporal.Next
import Mathlib.Data.Set.Basic

namespace PetriLogic

/-- In a region the second test is met wherever the first one is. -/
def ImpliesOn (region : Set Handle) (narrow wide : Handle → Bool) : Prop :=
  ∀ node ∈ region, narrow node = true → wide node = true

variable {region : Set Handle} {narrow wide otherNarrow otherWide : Handle → Bool}
  {hold goal moreHold moreGoal : Handle → Bool}

namespace ImpliesOn

/-- A test implies itself. -/
theorem refl (region : Set Handle) (test : Handle → Bool) : ImpliesOn region test test :=
  fun _ _ met => met

/-- What misses the wider test misses the narrower one too. -/
theorem eq_false (implied : ImpliesOn region narrow wide) {node : Handle} (inside : node ∈ region)
    (missed : wide node = false) : narrow node = false := by
  cases met : narrow node with
  | false => rfl
  | true =>
      rw [implied node inside met] at missed
      cases missed

/-- Negation turns an implication around. -/
theorem not (implied : ImpliesOn region narrow wide) :
    ImpliesOn region (fun node => !wide node) (fun node => !narrow node) := by
  intro node inside missed
  rw [Bool.not_eq_true'] at missed ⊢
  exact implied.eq_false inside missed

/-- Implications carry over to conjunctions. -/
theorem and (implied : ImpliesOn region narrow wide)
    (others : ImpliesOn region otherNarrow otherWide) :
    ImpliesOn region (fun node => narrow node && otherNarrow node)
      (fun node => wide node && otherWide node) := by
  intro node inside both
  rw [Bool.and_eq_true] at both ⊢
  exact ⟨implied node inside both.1, others node inside both.2⟩

/-- Implications carry over to disjunctions. -/
theorem or (implied : ImpliesOn region narrow wide)
    (others : ImpliesOn region otherNarrow otherWide) :
    ImpliesOn region (fun node => narrow node || otherNarrow node)
      (fun node => wide node || otherWide node) := by
  intro node inside one
  rw [Bool.or_eq_true] at one ⊢
  exact one.imp (implied node inside) (others node inside)

end ImpliesOn

/-- A walk that reaches the goal reaches a wider goal with a wider condition. -/
theorem reaches_of_implies (held : ImpliesOn region hold moreHold)
    (met : ImpliesOn region goal moreGoal) {nodes : List Handle}
    (inside : ∀ node ∈ nodes, node ∈ region) (reached : reaches hold goal nodes = true) :
    reaches moreHold moreGoal nodes = true := by
  induction nodes with
  | nil => cases reached
  | cons first rest inductionHypothesis =>
      obtain ⟨firstInside, restInside⟩ := List.forall_mem_cons.1 inside
      simp only [reaches, Bool.or_eq_true, Bool.and_eq_true] at reached ⊢
      rcases reached with now | ⟨holds, later⟩
      · exact .inl (met first firstInside now)
      · exact .inr ⟨held first firstInside holds, inductionHypothesis restInside later⟩

/-- The nodes of the kind of the start are nodes of the path. -/
theorem Path.mem_nodes_of_sameKind {path : Path} {stop : Nat} {node : Handle}
    (member : node ∈ path.sameKind stop) : node ∈ path.nodes := by
  obtain ⟨index, found⟩ := mem_everyOther_iff.1 member
  exact List.mem_of_mem_take (List.mem_of_getElem? found)

/-- The anchor is a node of the path. -/
theorem Path.mem_nodes_of_anchor? {path : Path} {anchor : Handle}
    (anchored : path.anchor? = some anchor) : anchor ∈ path.nodes := by
  obtain ⟨loop, _, found⟩ := Option.bind_eq_some_iff.1 anchored
  exact List.mem_of_getElem? found

/-- The last node of the kind of the start is a node of the path. -/
theorem Path.lastSameKind_mem (path : Path) : path.lastSameKind ∈ path.nodes :=
  List.mem_of_getElem? path.nodes_lastEven

namespace Obligation

variable {path : Path} {anchor : Handle}

/-- What is asked on a path are nodes of the path. -/
theorem mem_nodes_of_asked {node : Handle} (member : node ∈ asked path) : node ∈ path.nodes :=
  Path.mem_nodes_of_sameKind (List.mem_of_mem_drop member)

/-- A path that is broken for more generous tests is broken for stricter ones. -/
theorem broken_of_implies (held : ImpliesOn region hold moreHold)
    (met : ImpliesOn region goal moreGoal) (inside : ∀ node ∈ path.nodes, node ∈ region)
    (broken : ofPath moreHold moreGoal path = .broken) : ofPath hold goal path = .broken := by
  rw [ofPath_eq_broken_iff] at broken ⊢
  rcases broken with violated | ⟨unresolved, unanchored, missedLast⟩
  · obtain ⟨index, node, found, fails, missed⟩ := Outcome.ofWalk_eq_violated_iff.1 violated
    have region {index : Nat} {node : Handle} (found : (asked path)[index]? = some node) :
        node ∈ region := inside node (mem_nodes_of_asked (List.mem_of_getElem? found))
    refine .inl (Outcome.ofWalk_eq_violated_iff.2 ⟨index, node, found, ?_, ?_⟩)
    · exact held.eq_false (region found) fails
    · intro earlier other before isOther
      exact met.eq_false (region isOther) (missed earlier other before isOther)
  · have missed : ∀ node ∈ asked path, goal node = false := by
      intro node member
      exact met.eq_false (inside node (mem_nodes_of_asked member))
        (Outcome.ofWalk_eq_unresolved_iff.1 unresolved node member).1
    have stillMissed := met.eq_false (inside _ path.lastSameKind_mem) missedLast
    exact (Outcome.ofWalk_of_missed missed).imp id fun still => ⟨still, unanchored, stillMissed⟩

/-- Stricter tests break a path that was deferred, or they defer it to the same anchor. -/
theorem deferred_of_implies (met : ImpliesOn region goal moreGoal)
    (inside : ∀ node ∈ path.nodes, node ∈ region)
    (deferred : ofPath moreHold moreGoal path = .deferred anchor) :
    ofPath hold goal path = .broken ∨ ofPath hold goal path = .deferred anchor := by
  obtain ⟨unresolved, anchored⟩ := ofPath_eq_deferred_iff.1 deferred
  have missed : ∀ node ∈ asked path, goal node = false := by
    intro node member
    exact met.eq_false (inside node (mem_nodes_of_asked member))
      (Outcome.ofWalk_eq_unresolved_iff.1 unresolved node member).1
  rw [ofPath_eq_broken_iff, ofPath_eq_deferred_iff]
  exact (Outcome.ofWalk_of_missed missed).imp .inl (⟨·, anchored⟩)

end Obligation

namespace PathSet

/-- Repetitions among the successors make no difference to a test. -/
theorem any_successors (set : PathSet) (test : Handle → Bool) (handle : Handle) :
    (set.successors handle).any test = (set.atOffset handle 1).any test := by
  rw [Bool.eq_iff_iff, List.any_eq_true, List.any_eq_true]
  simp only [successors, List.mem_eraseDups]

/-- Listing each successor once makes no difference to what all of them satisfy. -/
theorem all_successors (set : PathSet) (test : Handle → Bool) (handle : Handle) :
    (set.successors handle).all test = (set.atOffset handle 1).all test := by
  rw [Bool.eq_iff_iff, List.all_eq_true, List.all_eq_true]
  simp only [successors, List.mem_eraseDups]

/--
In a region two sets have the same paths and their nets the same kinds of nodes.
No path from a node of the region leaves it.
-/
structure Agree (region : Set Handle) (first second : PathSet) : Prop where
  kind : ∀ handle ∈ region, first.net.kind? handle = second.net.kind? handle
  path : ∀ handle ∈ region, ∀ path,
    path ∈ first.startingAt handle ↔ path ∈ second.startingAt handle
  inside : ∀ handle ∈ region, ∀ path ∈ first.startingAt handle, ∀ node ∈ path.nodes, node ∈ region

namespace Agree

/-- A set agrees with itself everywhere. -/
theorem refl (set : PathSet) : Agree Set.univ set set :=
  ⟨fun _ _ => rfl, fun _ _ _ => Iff.rfl, fun _ _ _ _ node _ => Set.mem_univ node⟩

variable {first second : PathSet} (agree : Agree region first second)
include agree

/-- The two sets can be exchanged. -/
theorem symm : Agree region second first where
  kind := fun handle inside => (agree.kind handle inside).symm
  path := fun handle inside path => (agree.path handle inside path).symm
  inside := fun handle inside path member =>
    agree.inside handle inside path ((agree.path handle inside path).2 member)

/-- The test for a kind gives the same answers in the region. -/
theorem hasKind (kind : NodeKind) :
    ImpliesOn region (first.net.hasKind kind) (second.net.hasKind kind) := by
  intro handle inside known
  rw [Net.hasKind, ← agree.kind handle inside]
  exact known

/-- The paths from a node of the region show the same nodes at each offset, all of the region. -/
theorem mem_atOffset {handle node : Handle} {offset : Nat} (inside : handle ∈ region)
    (shown : node ∈ first.atOffset handle offset) :
    node ∈ second.atOffset handle offset ∧ node ∈ region := by
  obtain ⟨path, member, found⟩ := List.mem_filterMap.1 shown
  exact ⟨List.mem_filterMap.2 ⟨path, (agree.path handle inside path).1 member, found⟩,
    agree.inside handle inside path member node (List.mem_of_getElem? found)⟩

/-- What holds at an offset of all paths of one set holds at that of the other one. -/
theorem all_atOffset (implied : ImpliesOn region narrow wide) (offset : Nat) :
    ImpliesOn region (fun handle => (first.atOffset handle offset).all narrow)
      (fun handle => (second.atOffset handle offset).all wide) := by
  intro handle inside every
  refine List.all_eq_true.2 fun node shown => ?_
  obtain ⟨shownToo, nodeInside⟩ := agree.symm.mem_atOffset inside shown
  exact implied node nodeInside (List.all_eq_true.1 every node shownToo)

/-- Having a successor that passes carries over to the other set. -/
theorem someSuccessor (implied : ImpliesOn region narrow wide) :
    ImpliesOn region (fun handle => (first.successors handle).any narrow)
      (fun handle => (second.successors handle).any wide) := by
  intro handle inside some
  simp only [any_successors, List.any_eq_true] at some ⊢
  obtain ⟨node, shown, met⟩ := some
  obtain ⟨shownToo, nodeInside⟩ := agree.mem_atOffset inside shown
  exact ⟨node, shownToo, implied node nodeInside met⟩

/-- Having only successors that pass carries over to the other set. -/
theorem everySuccessor (implied : ImpliesOn region narrow wide) :
    ImpliesOn region (fun handle => (first.successors handle).all narrow)
      (fun handle => (second.successors handle).all wide) := by
  simpa only [all_successors] using agree.all_atOffset implied 1

/-- The modal operator carries over for either kind. -/
theorem modal (next : ImpliesOn region narrow wide) (kind : NodeKind) :
    ImpliesOn region (fun handle => first.modal narrow handle kind)
      (fun handle => second.modal wide handle kind) := by
  cases kind with
  | place => exact agree.someSuccessor next
  | transition => exact agree.everySuccessor next

/-- The existential modal operator carries over. -/
theorem existsModal (later : ImpliesOn region narrow wide)
    (next : ImpliesOn region otherNarrow otherWide) :
    ImpliesOn region (first.existsModal narrow otherNarrow)
      (second.existsModal wide otherWide) :=
  agree.someSuccessor (next.and (agree.everySuccessor later))

/-- The universal modal operator carries over. -/
theorem forallModal (later : ImpliesOn region narrow wide)
    (next : ImpliesOn region otherNarrow otherWide) :
    ImpliesOn region (first.forallModal narrow otherNarrow)
      (second.forallModal wide otherWide) :=
  (agree.all_atOffset next 1).and (agree.all_atOffset later 2)

/-- The existential next carries over for either kind. -/
theorem existsNext (later : ImpliesOn region narrow wide) (kind : NodeKind) :
    ImpliesOn region (fun handle => first.existsNext narrow handle kind)
      (fun handle => second.existsNext wide handle kind) := by
  cases kind with
  | place => exact agree.someSuccessor (agree.everySuccessor later)
  | transition => exact agree.someSuccessor (agree.someSuccessor later)

/-- At places the operator says that no successor fails everywhere. -/
theorem forallNext (later : ImpliesOn region narrow wide) (kind : NodeKind) :
    ImpliesOn region (fun handle => first.forallNext narrow handle kind)
      (fun handle => second.forallNext wide handle kind) := by
  cases kind with
  | place => exact (agree.symm.someSuccessor (agree.symm.everySuccessor later.not)).not
  | transition => exact agree.everySuccessor (agree.everySuccessor later)

/-- The existential until carries over. -/
theorem existsUntil (held : ImpliesOn region hold moreHold) (met : ImpliesOn region goal moreGoal) :
    ImpliesOn region (first.existsUntil hold goal) (second.existsUntil moreHold moreGoal) := by
  intro handle inside some
  obtain ⟨path, member, reached⟩ := List.any_eq_true.1 some
  refine List.any_eq_true.2 ⟨path, (agree.path handle inside path).1 member, ?_⟩
  apply reaches_of_implies held met ?_ reached
  intro node shown
  exact agree.inside handle inside path member node (Path.mem_nodes_of_sameKind shown)

/-- The eventual goal carries over. -/
theorem eventually (met : ImpliesOn region goal moreGoal) :
    ImpliesOn region (first.eventually goal) (second.eventually moreGoal) := by
  intro handle inside every
  refine List.all_eq_true.2 fun path memberToo => ?_
  have member := (agree.path handle inside path).2 memberToo
  obtain ⟨node, shown, now⟩ := List.any_eq_true.1 (List.all_eq_true.1 every path member)
  have nodeInside := agree.inside handle inside path member node (Path.mem_nodes_of_sameKind shown)
  exact List.any_eq_true.2 ⟨node, shown, met node nodeInside now⟩

/-- A broken path of the wider tests is one of the narrower tests. -/
theorem breaks (held : ImpliesOn region hold moreHold) (met : ImpliesOn region goal moreGoal)
    {handle : Handle} (inside : handle ∈ region)
    (broken : second.Breaks moreHold moreGoal handle) : first.Breaks hold goal handle := by
  obtain ⟨path, memberToo, state⟩ := broken
  have member := (agree.path handle inside path).2 memberToo
  exact ⟨path, member,
    Obligation.broken_of_implies held met (agree.inside handle inside path member) state⟩

/-- A node from which the second set defers to an anchor breaks in the first set or does so too. -/
theorem defers (hold : Handle → Bool) (met : ImpliesOn region goal moreGoal)
    {handle anchor : Handle} (inside : handle ∈ region)
    (deferred : second.Defers moreHold moreGoal handle anchor) :
    anchor ∈ region ∧
      (first.Breaks hold goal handle ∨ first.Defers hold goal handle anchor) := by
  obtain ⟨path, memberToo, state⟩ := deferred
  have member := (agree.path handle inside path).2 memberToo
  have pathInside := agree.inside handle inside path member
  refine ⟨pathInside anchor (Path.mem_nodes_of_anchor? (Obligation.anchorOfDeferred state)), ?_⟩
  exact (Obligation.deferred_of_implies met pathInside state).imp (⟨path, member, ·⟩)
    (⟨path, member, ·⟩)

/--
More generous tests visit fewer anchors, as long as no path is broken.
The invariant is that the anchors visited with them are visited with the stricter tests too.
-/
theorem forallUntil (held : ImpliesOn region hold moreHold) (met : ImpliesOn region goal moreGoal) :
    ImpliesOn region (first.forallUntil hold goal) (second.forallUntil moreHold moreGoal) := by
  intro start inside sound
  rw [forallUntil_eq_true_iff] at sound ⊢
  intro handle chain
  have visited : handle ∈ region ∧
      Relation.ReflTransGen (first.Defers hold goal) start handle := by
    induction chain with
    | refl => exact ⟨inside, .refl⟩
    | tail _ deferred inductionHypothesis =>
        obtain ⟨between, earlier⟩ := inductionHypothesis
        obtain ⟨anchorInside, breaks | defers⟩ := agree.defers hold met between deferred
        · exact absurd breaks (sound _ earlier)
        · exact ⟨anchorInside, earlier.tail defers⟩
  intro broken
  exact sound handle visited.2 (agree.breaks held met visited.1 broken)

end Agree

end PathSet

end PetriLogic
