/-
This file gives the operators that follow the paths of a node.
-/

import PetriLogic.Path.Basic
import PetriLogic.Temporal.Walk

namespace PetriLogic

/-- The goal is met after nodes that hold. -/
def reaches (hold goal : Handle → Bool) : List Handle → Bool
  | [] => false
  | handle :: rest => goal handle || (hold handle && reaches hold goal rest)

/-- A walk ends at the first node that meets the goal or does not hold. -/
inductive Outcome where
  | satisfied
  | violated
  | unresolved
deriving DecidableEq

/-- The goal is asked for before the condition at each node. -/
def Outcome.ofWalk (hold goal : Handle → Bool) : List Handle → Outcome
  | [] => .unresolved
  | handle :: rest =>
      if goal handle then .satisfied
      else if hold handle then ofWalk hold goal rest
      else .violated

/-- What a path still asks for: nothing, the impossible, or the paths of its anchor. -/
inductive Obligation where
  | met
  | broken
  | deferred (anchor : Handle)
deriving DecidableEq

namespace Obligation

/-- The walk begins at the second node of its kind, and a path without a loop may end in the goal. -/
def ofPath (hold goal : Handle → Bool) (path : Path) : Obligation :=
  match Outcome.ofWalk hold goal ((path.sameKind path.walkEnd).drop 1) with
  | .satisfied => .met
  | .violated => .broken
  | .unresolved =>
      match path.anchor? with
      | some anchor => .deferred anchor
      | none => if goal path.lastSameKind then .met else .broken

/-- A deferred obligation waits for the anchor of its path. -/
theorem anchorOfDeferred {hold goal : Handle → Bool} {path : Path} {anchor : Handle}
    (deferred : ofPath hold goal path = .deferred anchor) : path.anchor? = some anchor := by
  unfold ofPath at deferred
  split at deferred
  · cases deferred
  · cases deferred
  · split at deferred
    · rename_i found
      cases deferred
      exact found
    · split at deferred <;> cases deferred

end Obligation

namespace PathSet

variable (set : PathSet) (hold goal : Handle → Bool)

/-- On some path, the condition holds at each node in front of one that meets the goal. -/
def existsUntil (handle : Handle) : Bool :=
  (set.startingAt handle).any fun path => reaches hold goal (path.sameKind path.walkEnd)

/-- Only the first round of a loop counts. -/
def eventually (handle : Handle) : Bool :=
  (set.startingAt handle).all fun path => (path.sameKind path.firstRoundEnd).any goal

/-- All nodes that a path of the set may be deferred to. -/
def anchors : List Handle := set.paths.filterMap Path.anchor?

/-- Checking a new node leaves fewer nodes unchecked. -/
theorem fewerUnchecked {nodes checked : List Handle} {handle : Handle} (member : handle ∈ nodes)
    (isNew : handle ∉ checked) :
    (nodes.filter (· ∉ handle :: checked)).length < (nodes.filter (· ∉ checked)).length := by
  have narrowed : nodes.filter (· ∉ handle :: checked) =
      (nodes.filter (· ∉ checked)).filter (· ≠ handle) := by
    simp only [List.filter_filter, List.mem_cons]
    congr 1
    funext other
    simp
  rw [narrowed, List.length_filter_lt_length_iff_exists]
  exact ⟨handle, by simp [member, isNew], by simp⟩

/-- The paths from a node are paths of the set. -/
theorem amongStartingAt {set : PathSet} (handle : Handle) :
    ∀ path ∈ set.startingAt handle, path ∈ set.paths :=
  fun _ member => (List.mem_filter.1 member).1

/-- An inspection gives its answer and the nodes whose paths were asked for, in their order. -/
structure Inspection where
  answer : Bool
  expanded : List Handle

/--
A path that is deferred to a new anchor puts the paths of this anchor in front of the other ones,
and a broken path ends the inspection.
-/
def inspectPaths (known : List Handle) (paths : List Path)
    (among : ∀ path ∈ paths, path ∈ set.paths) : Inspection :=
  match paths with
  | [] => ⟨true, []⟩
  | path :: paths =>
      have later := fun other member => among other (List.mem_cons_of_mem path member)
      match _state : Obligation.ofPath hold goal path with
      | .met => inspectPaths known paths later
      | .broken => ⟨false, []⟩
      | .deferred anchor =>
          if _seen : anchor ∈ known then inspectPaths known paths later
          else
            let rest := inspectPaths (anchor :: known) (set.startingAt anchor ++ paths)
              (List.forall_mem_append.2 ⟨amongStartingAt anchor, later⟩)
            ⟨rest.answer, anchor :: rest.expanded⟩
termination_by ((set.anchors.filter (· ∉ known)).length, paths.length)
decreasing_by
  · apply Prod.Lex.right
    simp
  · apply Prod.Lex.right
    simp
  · apply Prod.Lex.left
    apply fewerUnchecked _ _seen
    exact List.mem_filterMap.2
      ⟨path, among path List.mem_cons_self, Obligation.anchorOfDeferred _state⟩

/-- A loop that leads back to a node under examination is accepted. -/
def inspect (handle : Handle) : Inspection :=
  let rest := set.inspectPaths hold goal [handle] (set.startingAt handle) (amongStartingAt handle)
  ⟨rest.answer, handle :: rest.expanded⟩

/-- On every path, the condition holds until the goal is met. -/
def forallUntil (handle : Handle) : Bool := (set.inspect hold goal handle).answer

end PathSet

end PetriLogic
