import PetriLogic.Proofs.Path.Positions
import PetriLogic.Proofs.Temporal.ForallUntil
import PetriLogic.Proofs.Temporal.Inspection

namespace PetriLogic

variable {hold goal : Handle → Bool} {path : Path}

/--
A walk visits the even positions from the second one on.
It stops before the position where the first loop of the path closes, or else at its end.
-/
def Path.Visits (path : Path) (position : Nat) (node : Handle) : Prop :=
  2 ≤ position ∧ position % 2 = 0 ∧ (∀ loop, path.ClosesFirst loop → position < loop.close) ∧
    path.nodes[position]? = some node

/-- The walk goes on to its end: the goal is met at none of its positions, and all of them hold. -/
def Path.Undecided (hold goal : Handle → Bool) (path : Path) : Prop :=
  ∀ position node, path.Visits position node → hold node = true ∧ goal node = false

/--
The walk holds at each position before the goal is first met.
A path that repeats no node and never meets the goal on this walk has it at its last even position.
-/
structure Path.Keeps (hold goal : Handle → Bool) (path : Path) : Prop where
  holds : ∀ position node, path.Visits position node →
    (∀ earlier other, earlier ≤ position → path.Visits earlier other → goal other = false) →
      hold node = true
  ends : path.nodes.Nodup →
    (∀ position node, path.Visits position node → goal node = false) →
      ∃ node, path.nodes[path.nodes.length - 1 - (path.nodes.length - 1) % 2]? = some node ∧
        goal node = true

/--
This is the least set of nodes that contains the start and, with a node, the anchor of each path
from it with a loop whose walk stays undecided.
The anchor is the entry of the loop, or the node after it if the entry is at an odd position.
-/
inductive PathSet.Anchored (set : PathSet) (hold goal : Handle → Bool) (start : Handle) :
    Handle → Prop where
  | start : Anchored set hold goal start start
  | anchor {node anchor : Handle} {path : Path} {loop : Path.Loop}
      (earlier : Anchored set hold goal start node) (member : path ∈ set.paths)
      (begins : path.nodes[0]? = some node) (closes : path.ClosesFirst loop)
      (undecided : path.Undecided hold goal)
      (found : path.nodes[loop.entry + loop.entry % 2]? = some anchor) :
      Anchored set hold goal start anchor

namespace Path

/-- A position of the path is in front of the loop exactly when the walk gets there. -/
theorem lt_walkEnd_iff {position : Nat} (inside : position < path.nodes.length) :
    position < path.walkEnd ↔ ∀ loop, path.ClosesFirst loop → position < loop.close := by
  rw [walkEnd]
  cases closes : path.loop? with
  | none =>
      have fresh := loop?_eq_none_iff.1 closes
      exact ⟨fun _ loop closesFirst => absurd fresh closesFirst.repeats, fun _ => inside⟩
  | some loop =>
      have closesFirst := loop?_eq_some_iff.1 closes
      exact ⟨fun before other otherFirst => closesFirst.unique otherFirst ▸ before,
        fun before => before loop closesFirst⟩

/-- What is asked on a path are the nodes of its walk. -/
theorem visits_iff {position : Nat} {node : Handle} : path.Visits position node ↔
    ∃ index, position = 2 * (index + 1) ∧ (Obligation.asked path)[index]? = some node := by
  simp only [Obligation.asked_getElem?, stretch, List.getElem?_take,
    Option.ite_none_right_eq_some]
  constructor
  · intro visits
    obtain ⟨second, even, before, found⟩ := visits
    obtain ⟨index, rfl⟩ : ∃ index, position = 2 * (index + 1) := ⟨position / 2 - 1, by omega⟩
    have inside := (List.getElem?_eq_some_iff.1 found).1
    exact ⟨index, rfl, (lt_walkEnd_iff inside).2 before, found⟩
  · intro asked
    obtain ⟨index, rfl, before, found⟩ := asked
    have inside := (List.getElem?_eq_some_iff.1 found).1
    exact ⟨by omega, by omega, (lt_walkEnd_iff inside).1 before, found⟩

/-- A walk visits what is asked, at twice the next position. -/
theorem visits_of_asked {index : Nat} {node : Handle}
    (asked : (Obligation.asked path)[index]? = some node) :
    path.Visits (2 * (index + 1)) node :=
  visits_iff.2 ⟨index, rfl, asked⟩

/-- A property of all visited nodes is one of all nodes that are asked. -/
theorem forall_visits_iff {property : Handle → Prop} :
    (∀ position node, path.Visits position node → property node) ↔
      ∀ node ∈ Obligation.asked path, property node := by
  constructor
  · intro visited node member
    obtain ⟨index, asked⟩ := List.mem_iff_getElem?.1 member
    exact visited _ node (visits_of_asked asked)
  · intro every position node visits
    obtain ⟨index, _, asked⟩ := visits_iff.1 visits
    exact every node (List.mem_of_getElem? asked)

/-- The outcome of an undecided walk is unresolved. -/
theorem undecided_iff : path.Undecided hold goal ↔
    Outcome.ofWalk hold goal (Obligation.asked path) = .unresolved := by
  rw [Undecided, forall_visits_iff, Outcome.ofWalk_eq_unresolved_iff]
  simp only [and_comm]

/-- A path is asked again from an anchor unless it repeats no node. -/
theorem anchor?_eq_none_iff : path.anchor? = none ↔ path.nodes.Nodup := by
  constructor
  · exact nodup_of_anchor?_eq_none
  · intro fresh
    rw [anchor?, loop?_eq_none_iff.2 fresh]
    rfl

/-- The anchor is at the entry of the loop that closes first, or just after it. -/
theorem anchor?_eq_some_iff {anchor : Handle} : path.anchor? = some anchor ↔
    ∃ loop, path.ClosesFirst loop ∧ path.nodes[loop.entry + loop.entry % 2]? = some anchor := by
  simp only [← loop?_eq_some_iff]
  exact Option.bind_eq_some_iff

/-- The node at the last even position is there on every path. -/
theorem lastEven_iff :
    (∃ node, path.nodes[path.nodes.length - 1 - (path.nodes.length - 1) % 2]? = some node ∧
      goal node = true) ↔ goal path.lastSameKind = true := by
  simp only [path.lastSameKind_eq, Option.some.injEq, exists_eq_left']

/-- A walk is violated where a node that does not hold comes before the goal. -/
theorem violated_iff : Outcome.ofWalk hold goal (Obligation.asked path) = .violated ↔
    ∃ position node, path.Visits position node ∧ hold node = false ∧
      ∀ earlier other, earlier ≤ position → path.Visits earlier other → goal other = false := by
  rw [Outcome.ofWalk_eq_violated_iff]
  constructor
  · intro violated
    obtain ⟨index, node, asked, fails, missed⟩ := violated
    refine ⟨_, node, visits_of_asked asked, fails, ?_⟩
    intro earlier other before visits
    obtain ⟨otherIndex, rfl, otherAsked⟩ := visits_iff.1 visits
    exact missed otherIndex other (by omega) otherAsked
  · intro violated
    obtain ⟨position, node, visits, fails, missed⟩ := violated
    obtain ⟨index, rfl, asked⟩ := visits_iff.1 visits
    refine ⟨index, node, asked, fails, ?_⟩
    intro earlier other before otherAsked
    exact missed _ other (by omega) (visits_of_asked otherAsked)

/-- The paths that keep what is asked of them are those that are not broken. -/
theorem keeps_iff : path.Keeps hold goal ↔ Obligation.ofPath hold goal path ≠ .broken := by
  rw [Ne, Obligation.ofPath_eq_broken_iff, violated_iff, ← undecided_iff, anchor?_eq_none_iff]
  constructor
  · intro keeps broken
    rcases broken with ⟨position, node, visits, fails, missed⟩ | ⟨undecided, fresh, missedLast⟩
    · rw [keeps.holds position node visits missed] at fails
      cases fails
    · have missed := fun position node visits => (undecided position node visits).2
      rw [lastEven_iff.1 (keeps.ends fresh missed)] at missedLast
      cases missedLast
  · intro sound
    have holds : ∀ position node, path.Visits position node →
        (∀ earlier other, earlier ≤ position → path.Visits earlier other → goal other = false) →
          hold node = true := by
      intro position node visits missed
      by_contra fails
      exact sound (.inl ⟨position, node, visits, Bool.eq_false_iff.2 fails, missed⟩)
    refine ⟨holds, fun fresh missed => lastEven_iff.2 ?_⟩
    by_contra missedLast
    have undecided : path.Undecided hold goal := fun position node visits =>
      ⟨holds position node visits fun earlier other _ => missed earlier other,
        missed position node visits⟩
    exact sound (.inr ⟨undecided, fresh, Bool.eq_false_iff.2 missedLast⟩)

end Path

namespace PathSet

variable {set : PathSet} {start node : Handle}

/-- The closure consists of the nodes at the end of a chain of anchors. -/
theorem anchored_iff : set.Anchored hold goal start node ↔
    Relation.ReflTransGen (set.Defers hold goal) start node := by
  constructor
  · intro anchored
    induction anchored with
    | start => exact .refl
    | anchor _ member begins closes undecided found inductionHypothesis =>
        have shown := mem_startingAt_iff.2 ⟨member, begins⟩
        refine inductionHypothesis.tail ⟨_, shown, Obligation.ofPath_eq_deferred_iff.2 ?_⟩
        exact ⟨Path.undecided_iff.1 undecided, Path.anchor?_eq_some_iff.2 ⟨_, closes, found⟩⟩
  · intro chain
    induction chain with
    | refl => exact .start
    | tail _ defers inductionHypothesis =>
        obtain ⟨path, shown, deferred⟩ := defers
        obtain ⟨member, begins⟩ := mem_startingAt_iff.1 shown
        obtain ⟨unresolved, anchored⟩ := Obligation.ofPath_eq_deferred_iff.1 deferred
        obtain ⟨loop, closes, found⟩ := Path.anchor?_eq_some_iff.1 anchored
        exact .anchor inductionHypothesis member begins closes (Path.undecided_iff.2 unresolved)
          found

/-- No path of the node is broken when all of them keep what is asked. -/
theorem not_breaks_iff : ¬set.Breaks hold goal node ↔
    ∀ path ∈ set.paths, path.nodes[0]? = some node → path.Keeps hold goal := by
  simp only [Breaks, Path.keeps_iff, mem_startingAt_iff, not_exists, not_and, Ne, and_imp]

/--
The universal until holds when every path of every node in the closure keeps what is asked of it.
The search for it expands nodes of the closure only and none of them twice, and all of them if it
succeeds.
-/
theorem forallUntil_closure (set : PathSet) (hold goal : Handle → Bool) (start : Handle) :
    (set.forallUntil hold goal start = true ↔
      ∀ node, set.Anchored hold goal start node →
        ∀ path ∈ set.paths, path.nodes[0]? = some node → path.Keeps hold goal) ∧
    (set.inspect hold goal start).answer = set.forallUntil hold goal start ∧
    (set.inspect hold goal start).expanded.Nodup ∧
    (∀ node ∈ (set.inspect hold goal start).expanded, set.Anchored hold goal start node) ∧
    (set.forallUntil hold goal start = true → ∀ node, set.Anchored hold goal start node →
      node ∈ (set.inspect hold goal start).expanded) := by
  refine ⟨?_, rfl, set.inspect_fresh hold goal start, ?_, ?_⟩
  · simp only [forallUntil_eq_true_iff, anchored_iff, not_breaks_iff]
  · intro node member
    exact anchored_iff.2 (set.chain_of_inspected hold goal start node member)
  · intro holds node anchored
    exact inspected_of_chain holds (anchored_iff.1 anchored)

/--
The loops t1 → B → t1 and t2 → C → t2 are entered at odd positions, and lead from A to B and to C.
The path from C repeats nothing and ends in A, so the answer depends on whether A is the goal.
-/
theorem ringWithExit_closure :
    let set : PathSet := ⟨Net.ringWithExit,
      [⟨[0, 3, 1, 3], by decide⟩, ⟨[1, 4, 2, 4], by decide⟩, ⟨[2, 5, 0], by decide⟩]⟩
    let hold : Handle → Bool := fun _ => true
    let isA : Handle → Bool := (· == 0)
    let never : Handle → Bool := fun _ => false
    (set.Anchored hold isA 0 2 ∧ set.forallUntil hold isA 0 = true ∧
      2 ∈ (set.inspect hold isA 0).expanded ∧
      Path.Keeps hold isA ⟨[2, 5, 0], by decide⟩) ∧
    set.Anchored hold never 0 2 ∧ set.forallUntil hold never 0 = false := by
  intro set hold isA never
  have fromA : (⟨[0, 3, 1, 3], by decide⟩ : Path) ∈ set.paths := by simp [set]
  have fromB : (⟨[1, 4, 2, 4], by decide⟩ : Path) ∈ set.paths := by simp [set]
  have fromC : (⟨[2, 5, 0], by decide⟩ : Path) ∈ set.paths := by simp [set]
  have closesA : Path.ClosesFirst ⟨[0, 3, 1, 3], by decide⟩ ⟨1, 3⟩ := by decide
  have closesB : Path.ClosesFirst ⟨[1, 4, 2, 4], by decide⟩ ⟨1, 3⟩ := by decide
  -- A walk that stops at position 3 visits position 2 only.
  have undecided {goal : Handle → Bool} {path : Path} {node : Handle}
      (closes : path.ClosesFirst ⟨1, 3⟩) (shown : path.nodes[2]? = some node)
      (missed : goal node = false) : path.Undecided hold goal := by
    intro position other visits
    obtain ⟨second, even, before, found⟩ := visits
    have early : position < 3 := before _ closes
    obtain rfl : position = 2 := by omega
    rw [shown] at found
    cases found
    exact ⟨rfl, missed⟩
  have leadsToC (goal : Handle → Bool) (missesB : goal 1 = false) (missesC : goal 2 = false) :
      set.Anchored hold goal 0 2 := by
    have toB : set.Anchored hold goal 0 1 :=
      .anchor .start fromA rfl closesA (undecided closesA rfl missesB) rfl
    exact .anchor toB fromB rfl closesB (undecided closesB rfl missesC) rfl
  refine ⟨?_, leadsToC never rfl rfl, ?_⟩
  · have reached := leadsToC isA rfl rfl
    have succeeds : set.forallUntil hold isA 0 = true := by cbv
    obtain ⟨closure, _, _, _, expands⟩ := forallUntil_closure set hold isA 0
    exact ⟨reached, succeeds, expands succeeds 2 reached, closure.1 succeeds 2 reached _ fromC rfl⟩
  · rw [← Bool.not_eq_true, (forallUntil_closure set hold never 0).1]
    intro everyKeeps
    have keeps := everyKeeps 2 (leadsToC never rfl rfl) _ fromC rfl
    obtain ⟨node, _, isGoal⟩ := keeps.ends (by decide) fun _ _ _ => rfl
    cases isGoal

end PathSet

end PetriLogic
