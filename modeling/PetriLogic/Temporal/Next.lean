/-
This file gives the operators that look one or two steps ahead.
-/

import PetriLogic.Path.Basic
import PetriLogic.Temporal.Walk

namespace PetriLogic.PathSet

variable (set : PathSet)

/-- What the paths from a node show at an offset, those that are too short left out. -/
def atOffset (handle : Handle) (offset : Nat) : List Handle :=
  (set.startingAt handle).filterMap fun path => path.get? offset

/-- The successors that the paths show, each of them once. -/
def successors (handle : Handle) : List Handle := (set.atOffset handle 1).eraseDups

/-- Some transition leaves a place, and every place that a transition leads to is reached. -/
def modal (next : Handle → Bool) (handle : Handle) : NodeKind → Bool
  | .place => (set.successors handle).any next
  | .transition => (set.successors handle).all next

/-- Some successor passes, and so do all nodes that the paths show behind it. -/
def existsModal (later next : Handle → Bool) (handle : Handle) : Bool :=
  (set.successors handle).any fun successor =>
    next successor && (set.successors successor).all later

/-- All nodes one step ahead and all nodes two steps ahead pass. -/
def forallModal (later next : Handle → Bool) (handle : Handle) : Bool :=
  (set.atOffset handle 1).all next && (set.atOffset handle 2).all later

/-- Behind some successor, all nodes pass for a place, and one node passes for a transition. -/
def existsNext (later : Handle → Bool) (handle : Handle) : NodeKind → Bool
  | .place => (set.successors handle).any fun successor => (set.successors successor).all later
  | .transition => (set.successors handle).any fun successor => (set.successors successor).any later

/-- Behind every successor, one node passes for a place, and all nodes pass for a transition. -/
def forallNext (later : Handle → Bool) (handle : Handle) : NodeKind → Bool
  | .place =>
      !(set.successors handle).any fun successor =>
        (set.successors successor).all fun target => !later target
  | .transition => (set.successors handle).all fun successor => (set.successors successor).all later

end PetriLogic.PathSet
