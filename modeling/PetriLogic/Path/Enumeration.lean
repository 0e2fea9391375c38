/-
This file lists the paths of a net that cannot be extended, in depth-first order.
-/

import PetriLogic.Path.Basic

namespace PetriLogic

/-- Nested operators look at the paths of other nodes, which only the full scope has. -/
inductive Scope where
  | all
  | fromStart
deriving DecidableEq

/-- How many paths are admitted at most, and from which nodes they are listed. -/
structure Enumeration where
  maxPaths : Option Nat
  scope : Scope
deriving DecidableEq

namespace Path

/-- A path ends where a node comes back or where no arc leads on. -/
def isMaximal (net : Net) (path : Path) : Bool :=
  (net.successors path.last).isEmpty || path.beginning.contains path.last

/-- A path is extended by each successor of its last node, in their order. -/
def extensions (net : Net) (path : Path) : List Path := (net.successors path.last).map path.push

/-- A path consists of its beginning and its last node. -/
theorem nodesSplit (path : Path) : path.beginning ++ [path.last] = path.nodes :=
  List.dropLast_concat_getLast path.nonempty

/-- The nodes with a list of successors that the beginning of the path leaves out. -/
def unvisited (net : Net) (path : Path) : List Handle :=
  (List.range net.outgoing.size).filter (· ∉ path.beginning)

/-- An extension step visits a node that was not visited before. -/
theorem unvisitedPush {net : Net} {path : Path} {handle : Handle}
    (extensible : path.isMaximal net = false) :
    ((path.push handle).unvisited net).length < (path.unvisited net).length := by
  simp only [isMaximal, Bool.or_eq_false_iff, List.isEmpty_eq_false_iff,
    List.contains_eq_mem, decide_eq_false_iff_not] at extensible
  obtain ⟨leadsOn, isNew⟩ := extensible
  have inRange : path.last < net.outgoing.size := by
    apply Decidable.byContradiction
    intro outside
    exact leadsOn (by simp [Net.successors, Array.getElem?_eq_none (Nat.le_of_not_lt outside)])
  have beginningPush : (path.push handle).beginning = path.beginning ++ [path.last] := by
    rw [nodesSplit]
    simp [beginning, push]
  have narrowed : (path.push handle).unvisited net =
      (path.unvisited net).filter (· ≠ path.last) := by
    simp only [unvisited, beginningPush, List.filter_filter, List.mem_append, List.mem_singleton]
    congr 1
    funext other
    simp [Bool.and_comm]
  rw [narrowed, List.length_filter_lt_length_iff_exists]
  exact ⟨path.last, by simp [unvisited, inRange, isNew], by simp⟩

/-- Every extension of a path leaves fewer nodes unvisited. -/
theorem unvisitedExtension {net : Net} {path longer : Path}
    (extensible : path.isMaximal net = false) (member : longer ∈ path.extensions net) :
    (longer.unvisited net).length < (path.unvisited net).length := by
  obtain ⟨handle, _, rfl⟩ := List.mem_map.1 member
  exact unvisitedPush extensible

end Path

/-- The number of arcs that lists of successors stand for. -/
def arcCount : List (List Handle) → Nat
  | [] => 0
  | successors :: rest => successors.length + arcCount rest

/-- No list of neighbours is longer than all of them together. -/
theorem lengthLeArcCount {lists : List (List Handle)} {list : List Handle}
    (member : list ∈ lists) : list.length ≤ arcCount lists := by
  induction lists with
  | nil => cases member
  | cons first rest inductionHypothesis =>
      simp only [arcCount]
      rcases List.mem_cons.1 member with same | later
      · exact same ▸ Nat.le_add_right _ _
      · exact Nat.le_trans (inductionHypothesis later) (Nat.le_add_left _ _)

namespace Net

/-- No node has as many successors as this. -/
def branching (net : Net) : Nat := arcCount net.outgoing.toList + 1

/-- The branching of a net exceeds the number of successors of each node. -/
theorem successorsLength (net : Net) (handle : Handle) :
    (net.successors handle).length < net.branching := by
  apply Nat.lt_succ_of_le
  simp only [successors]
  cases found : net.outgoing[handle]? with
  | none => simp
  | some list => exact lengthLeArcCount (Array.mem_toList_iff.2 (Array.mem_of_getElem? found))

end Net

/-- The stack holds the paths to extend, and the next one is its head. -/
structure Search where
  stack : List Path
  found : Array Path

namespace Search

/-- The head of the stack is found or extended, and its first successor is followed first. -/
def advance (net : Net) (path : Path) (stack : List Path) (found : Array Path) : Search :=
  if path.isMaximal net then ⟨stack, found.push path⟩
  else ⟨path.extensions net ++ stack, found⟩

/-- A path with more room weighs more than all its extensions together. -/
def capacity (branching : Nat) : Nat → Nat
  | 0 => 1
  | room + 1 => branching * capacity branching room

/-- A path has some weight even when it has no room left. -/
theorem capacityPositive {branching : Nat} (positive : 0 < branching) (room : Nat) :
    0 < capacity branching room := by
  induction room with
  | zero => exact Nat.one_pos
  | succ room inductionHypothesis => exact Nat.mul_pos positive inductionHypothesis

/-- More room never lowers the capacity. -/
theorem capacityMono {branching lower upper : Nat} (positive : 0 < branching)
    (below : lower ≤ upper) : capacity branching lower ≤ capacity branching upper := by
  induction below with
  | refl => exact Nat.le_refl _
  | step _ inductionHypothesis =>
      exact Nat.le_trans inductionHypothesis (Nat.le_mul_of_pos_left _ positive)

/-- A path weighs more the more nodes it leaves unvisited. -/
def pathWeight (net : Net) (path : Path) : Nat :=
  capacity net.branching (path.unvisited net).length

/-- The weight of all paths on a stack. -/
def stackWeight (net : Net) : List Path → Nat
  | [] => 0
  | path :: stack => pathWeight net path + stackWeight net stack

/-- The weight of what is still to be searched. -/
def weight (net : Net) (search : Search) : Nat := stackWeight net search.stack

/-- The weights of two stacks add up. -/
theorem stackWeightAppend (net : Net) (first second : List Path) :
    stackWeight net (first ++ second) = stackWeight net first + stackWeight net second := by
  induction first with
  | nil => simp [stackWeight]
  | cons path paths inductionHypothesis =>
      simp only [List.cons_append, stackWeight, inductionHypothesis]
      omega

/-- A bound on each path gives one on the stack. -/
theorem stackWeightLe {paths : List Path} {net : Net} {bound : Nat}
    (below : ∀ path ∈ paths, pathWeight net path ≤ bound) :
    stackWeight net paths ≤ paths.length * bound := by
  induction paths with
  | nil => simp [stackWeight]
  | cons path paths inductionHypothesis =>
      have first := below path List.mem_cons_self
      have others := inductionHypothesis fun other member =>
        below other (List.mem_cons_of_mem _ member)
      simp only [stackWeight, List.length_cons, Nat.succ_mul]
      omega

/-- All extensions of a path together weigh less than the path. -/
theorem extensionsWeight {net : Net} {path : Path} (extensible : path.isMaximal net = false) :
    stackWeight net (path.extensions net) < pathWeight net path := by
  have positive : 0 < net.branching := Nat.succ_pos _
  generalize free : (path.unvisited net).length = room
  cases room with
  | zero =>
      cases extended : path.extensions net with
      | nil => exact capacityPositive positive _
      | cons longer rest =>
          have := Path.unvisitedExtension extensible (extended ▸ List.mem_cons_self)
          omega
  | succ room =>
      have bounded : ∀ longer ∈ path.extensions net,
          pathWeight net longer ≤ capacity net.branching room := by
        intro longer member
        have := Path.unvisitedExtension extensible member
        exact capacityMono positive (by omega)
      have total := stackWeightLe bounded
      have count : (path.extensions net).length < net.branching := by
        simpa [Path.extensions] using net.successorsLength path.last
      have product := Nat.mul_lt_mul_of_pos_right count (capacityPositive positive room)
      have whole : pathWeight net path = net.branching * capacity net.branching room := by
        rw [pathWeight, free, capacity]
      omega

/-- Each step of the search lowers its weight. -/
theorem advanceWeight (net : Net) (path : Path) (stack : List Path) (found : Array Path) :
    (advance net path stack found).weight net < weight net ⟨path :: stack, found⟩ := by
  unfold advance
  split
  · have positive : 0 < pathWeight net path := capacityPositive (Nat.succ_pos _) _
    simp only [weight, stackWeight]
    omega
  · rename_i extensible
    have := extensionsWeight (Bool.eq_false_iff.2 extensible)
    simp only [weight, stackWeightAppend, stackWeight]
    omega

/-- The limit counts every path found so far. -/
def run (net : Net) (limit : Option Nat) : Search → Except Fault (Array Path)
  | ⟨[], found⟩ => .ok found
  | ⟨path :: stack, found⟩ =>
      let next := advance net path stack found
      match limit.filter (· < next.found.size) with
      | some most => .error (.pathLimit most)
      | none => run net limit next
termination_by search => search.weight net
decreasing_by exact advanceWeight net path stack found

end Search

namespace Net

/-- The paths from a node are added to the ones found before. -/
def explore (net : Net) (limit : Option Nat) (found : Array Path) (start : Handle) :
    Except Fault (Array Path) :=
  match net.get? start with
  | none => .error (.unknownHandle start)
  | some _ => Search.run net limit ⟨[.single start], found⟩

/-- The limit holds for the paths of this node. -/
def pathsFrom (net : Net) (limit : Option Nat) (start : Handle) : Except Fault PathSet := do
  let found ← net.explore limit #[] start
  pure ⟨net, found.toList⟩

/-- The limit holds for the paths of all nodes together. -/
def allPaths (net : Net) (limit : Option Nat) : Except Fault PathSet := do
  let found ← net.handles.foldlM (net.explore limit) #[]
  pure ⟨net, found.toList⟩

/-- The paths in the scope of an enumeration. -/
def pathSet (net : Net) (enumeration : Enumeration) (start : Handle) : Except Fault PathSet :=
  match enumeration.scope with
  | .all => net.allPaths enumeration.maxPaths
  | .fromStart => net.pathsFrom enumeration.maxPaths start

end Net

end PetriLogic
