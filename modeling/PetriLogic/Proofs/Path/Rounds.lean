import PetriLogic.Proofs.Path.Limit
import Mathlib.Algebra.Group.Nat.Defs
import Mathlib.Data.List.Perm.Subperm

namespace PetriLogic

/-- The neighbours in two parts of a table add up. -/
theorem arcCount_append (first second : List (List Handle)) :
    arcCount (first ++ second) = arcCount first + arcCount second := by
  induction first with
  | nil => simp [arcCount]
  | cons list lists inductionHypothesis =>
      simp only [List.cons_append, arcCount, inductionHypothesis]
      omega

/-- A new entry in one list of neighbours counts once. -/
theorem arcCount_modify {lists : List (List Handle)} {index : Nat}
    (inside : index < lists.length) (target : Handle) :
    arcCount (lists.modify index (· ++ [target])) = arcCount lists + 1 := by
  induction lists generalizing index with
  | nil => cases inside
  | cons list lists inductionHypothesis =>
      cases index with
      | zero =>
          simp only [List.modify_zero_cons, arcCount, List.length_append, List.length_singleton]
          omega
      | succ index =>
          have later := inductionHypothesis (Nat.lt_of_succ_lt_succ inside)
          simp only [List.modify_succ_cons, arcCount, later]
          omega

/-- The lists of successors stand for the arcs of the net. -/
theorem Net.Built.arcCount_eq {net : Net} (built : net.Built) :
    arcCount net.outgoing.toList = net.arcs.size := by
  induction built with
  | empty id => rfl
  | node node _ added inductionHypothesis =>
      obtain ⟨_, rfl⟩ := addNode_ok_iff.1 added
      simp [withNode, arcCount_append, arcCount, inductionHypothesis]
  | @arc net _ source target earlier added inductionHypothesis =>
      obtain ⟨first, _, found, _, _, rfl⟩ := addArc_ok_iff.1 added
      split
      · exact inductionHypothesis
      · have inside : source < net.outgoing.toList.length := by
          rw [Array.length_toList, earlier.consistent.outgoingSize]
          exact (Array.getElem?_eq_some_iff.1 found).1
        simp [withArc, Array.toList_modify, arcCount_modify inside, inductionHypothesis]

/-- The path leads from the start along arcs, and only its last node may come back. -/
structure Path.Leads (net : Net) (start : Handle) (path : Path) : Prop where
  walk : net.IsWalk start path.last path.nodes
  fresh : path.beginning.Nodup

namespace Path.Leads

variable {net : Net} {start : Handle} {path longer : Path}

/-- The path of the start alone leads from it. -/
theorem single (net : Net) (start : Handle) : (Path.single start).Leads net start :=
  ⟨.single net start, .nil⟩

/-- An extension of a path that leads from the start does so too. -/
theorem extension (consistent : net.Consistent) (leads : path.Leads net start)
    (extensible : path.isMaximal net = false) (member : longer ∈ path.extensions net) :
    longer.Leads net start := by
  obtain ⟨next, isNext, rfl⟩ := List.mem_map.1 member
  have arc := consistent.mem_successors_iff.1 isNext
  refine ⟨⟨?_, Path.getLast?_nodes _, Path.push_follows leads.walk.follows arc⟩, ?_⟩
  · rw [Path.push_nodes, List.head?_append_of_ne_nil _ path.nonempty]
    exact leads.walk.begins
  · rw [Path.push_beginning]
    exact Path.nodes_nodup leads.fresh extensible

/-- The nodes before the last one are different nodes of the net. -/
theorem length_le (consistent : net.Consistent) (known : start < net.size)
    (leads : path.Leads net start) : path.length ≤ net.size + 1 := by
  have among : path.beginning ⊆ List.range net.size := fun node member =>
    List.mem_range.2 (leads.walk.known consistent known node (List.dropLast_subset _ member))
  have fewer := (List.subperm_of_subset leads.fresh among).length_le
  simp only [Path.beginning, List.length_dropLast, List.length_range] at fewer
  rw [Path.length]
  omega

end Path.Leads

namespace Search

variable {net : Net} {limit : Option Nat} {search next last : Search}

/-- A round takes the next path from the stack, and the limit lets the search go on. -/
inductive Round (net : Net) (limit : Option Nat) : Search → Search → Prop where
  | take {path : Path} {stack : List Path} {found : Array Path}
      (within : limit.filter (· < (advance net path stack found).found.size) = none) :
      Round net limit ⟨path :: stack, found⟩ (advance net path stack found)

/-- The search stops when no path is left, or when the next path breaks the limit. -/
inductive Stops (net : Net) (limit : Option Nat) : Search → Except Fault (Array Path) → Prop where
  | exhausted {found : Array Path} : Stops net limit ⟨[], found⟩ (.ok found)
  | refused {path : Path} {stack : List Path} {found : Array Path} {most : Nat}
      (exceeded : limit.filter (· < (advance net path stack found).found.size) = some most) :
      Stops net limit ⟨path :: stack, found⟩ (.error (.pathLimit most))

/-- Each round lowers the weight of the search. -/
theorem Round.weight_lt (round : Round net limit search next) :
    next.weight net < search.weight net := by
  cases round with
  | take within => exact advanceWeight _ _ _ _

/-- The weight of a search bounds the number of its rounds. -/
theorem rounds_le {searches : List Search}
    (rounds : (search :: searches).IsChain (Round net limit)) :
    searches.length ≤ search.weight net := by
  induction searches generalizing search with
  | nil => exact Nat.zero_le _
  | cons next searches inductionHypothesis =>
      obtain ⟨round, later⟩ := List.isChain_cons_cons.1 rounds
      have lighter := round.weight_lt
      have bounded := inductionHypothesis later
      rw [List.length_cons]
      omega

/-- A search that stops gives the answer at once. -/
theorem run_of_stops {answer : Except Fault (Array Path)} (stops : Stops net limit search answer) :
    run net limit search = answer := by
  cases stops with
  | exhausted => rw [run]
  | refused exceeded =>
      rw [run]
      simp only [exceeded]

/-- A round changes nothing about the answer of the search. -/
theorem run_of_round (round : Round net limit search next) :
    run net limit search = run net limit next := by
  cases round with
  | take within =>
      rw [run]
      simp only [within]

/-- Every search stops, and its answer is the one with which it stops. -/
theorem exists_stops (net : Net) (limit : Option Nat) (search : Search) :
    ∃ last, Relation.ReflTransGen (Round net limit) search last ∧
      Stops net limit last (run net limit search) := by
  generalize measured : search.weight net = weight
  induction weight using Nat.strongRecOn generalizing search with
  | ind weight inductionHypothesis =>
      obtain ⟨stack, found⟩ := search
      cases stack with
      | nil =>
          rw [run]
          exact ⟨_, .refl, .exhausted⟩
      | cons path stack =>
          cases exceeded : limit.filter (· < (advance net path stack found).found.size) with
          | some most =>
              have stops := Stops.refused exceeded
              exact ⟨_, .refl, (run_of_stops stops).symm ▸ stops⟩
          | none =>
              have round := Round.take exceeded
              obtain ⟨last, rounds, stops⟩ :=
                inductionHypothesis _ (measured ▸ round.weight_lt) _ rfl
              exact ⟨last, .head round rounds, (run_of_round round).symm ▸ stops⟩

/-- A search gives an answer exactly when its rounds lead to where it stops with this answer. -/
theorem run_eq_iff {answer : Except Fault (Array Path)} :
    run net limit search = answer ↔
      ∃ last, Relation.ReflTransGen (Round net limit) search last ∧
        Stops net limit last answer := by
  constructor
  · rintro rfl
    exact exists_stops net limit search
  · rintro ⟨last, rounds, stops⟩
    induction rounds using Relation.ReflTransGen.head_induction_on with
    | refl => exact run_of_stops stops
    | head round _ inductionHypothesis => exact (run_of_round round).trans inductionHypothesis

/-- Every path of the stack leads from the start, and so does every path found since the first. -/
structure LeadsFrom (net : Net) (start : Handle) (earlier : Array Path) (search : Search) :
    Prop where
  stack : ∀ path ∈ search.stack, path.Leads net start
  found : ∃ more : List Path, search.found = earlier ++ more.toArray ∧
    ∀ path ∈ more, path.Leads net start

variable {start : Handle} {earlier : Array Path}

/-- A round takes paths that lead from the start to such paths. -/
theorem LeadsFrom.round (consistent : net.Consistent)
    (leads : search.LeadsFrom net start earlier) (round : Round net limit search next) :
    next.LeadsFrom net start earlier := by
  cases round with
  | @take path stack found within =>
      obtain ⟨onStack, more, whole, moreLead⟩ := leads
      obtain ⟨pathLeads, stackLeads⟩ := List.forall_mem_cons.1 onStack
      unfold advance
      cases maximal : path.isMaximal net with
      | true =>
          refine ⟨stackLeads, more ++ [path], ?_, ?_⟩
          · simp_all
          · exact List.forall_mem_append.2 ⟨moreLead, List.forall_mem_singleton.2 pathLeads⟩
      | false =>
          refine ⟨List.forall_mem_append.2 ⟨fun longer member => ?_, stackLeads⟩,
            more, whole, moreLead⟩
          exact pathLeads.extension consistent maximal member

/-- Any number of rounds takes paths that lead from the start to such paths. -/
theorem LeadsFrom.rounds (consistent : net.Consistent)
    (leads : search.LeadsFrom net start earlier)
    (rounds : Relation.ReflTransGen (Round net limit) search last) :
    last.LeadsFrom net start earlier := by
  induction rounds with
  | refl => exact leads
  | tail _ round inductionHypothesis => exact inductionHypothesis.round consistent round

/-- The search from a node begins with the path that ends there at once. -/
def opening (start : Handle) (earlier : Array Path) : Search := ⟨[.single start], earlier⟩

/-- The search opens with the path of the start alone. -/
theorem LeadsFrom.opening (net : Net) (start : Handle) (earlier : Array Path) :
    (Search.opening start earlier).LeadsFrom net start earlier where
  stack := List.forall_mem_singleton.2 (.single net start)
  found := ⟨[], by simp [Search.opening], by simp⟩

/-- The capacity is a power of the branching. -/
theorem capacity_eq (branching room : Nat) : capacity branching room = branching ^ room := by
  induction room with
  | zero => rfl
  | succ room inductionHypothesis => rw [capacity, inductionHypothesis, Nat.pow_succ, Nat.mul_comm]

/-- The search opens with one more than the number of arcs, to the power of the number of nodes. -/
theorem weight_opening (built : net.Built) (start : Handle) (earlier : Array Path) :
    (opening start earlier).weight net = (net.arcs.size + 1) ^ net.size := by
  have room : ((Path.single start).unvisited net).length = net.size := by
    simp [Path.unvisited, Path.beginning, Path.single, built.consistent.outgoingSize]
  have branching : net.branching = net.arcs.size + 1 := congrArg (· + 1) built.arcCount_eq
  simp [weight, opening, stackWeight, pathWeight, room, capacity_eq, branching]

end Search

namespace Net

/--
The search from a node stops, and then it gives its answer: no sequence of its rounds is longer
than the bound. In between, every path on its stack and every path that it finds is a walk from
the node that repeats no node before its last one.
-/
theorem search_stops {net : Net} (built : net.Built) {start : Handle} (known : start < net.size)
    (limit : Option Nat) (earlier : Array Path) :
    (∀ searches : List Search,
      (Search.opening start earlier :: searches).IsChain (Search.Round net limit) →
        searches.length ≤ (net.arcs.size + 1) ^ net.size) ∧
    (∀ answer, net.explore limit earlier start = answer ↔
      ∃ last, Relation.ReflTransGen (Search.Round net limit) (Search.opening start earlier) last ∧
        Search.Stops net limit last answer) ∧
    (∀ search,
      Relation.ReflTransGen (Search.Round net limit) (Search.opening start earlier) search →
        (∀ path ∈ search.stack, path.Leads net start ∧ path.length ≤ net.size + 1) ∧
        ∃ more : List Path, search.found = earlier ++ more.toArray ∧
          ∀ path ∈ more, path.Leads net start ∧ path.length ≤ net.size + 1) ∧
    ∀ (scope : Scope) (set : PathSet), net.pathSet ⟨limit, scope⟩ start = .ok set →
      ∀ path ∈ set.paths, path.length ≤ net.size + 1 := by
  have consistent := built.consistent
  refine ⟨fun searches rounds => ?_, fun answer => ?_, fun search rounds => ?_,
    fun scope set found path member => ?_⟩
  · rw [← Search.weight_opening built start earlier]
    exact Search.rounds_le rounds
  · rw [explore_eq_run known]
    exact Search.run_eq_iff
  · have bounded {path : Path} (leads : path.Leads net start) :
        path.Leads net start ∧ path.length ≤ net.size + 1 :=
      ⟨leads, leads.length_le consistent known⟩
    obtain ⟨onStack, more, whole, moreLead⟩ :=
      (Search.LeadsFrom.opening net start earlier).rounds consistent rounds
    exact ⟨fun path member => bounded (onStack path member), more, whole,
      fun path member => bounded (moreLead path member)⟩
  · obtain ⟨origin, originKnown, trace⟩ := consistent.exists_isTrace found path member
    have leads : path.Leads net origin := ⟨trace.isWalk, trace.fresh⟩
    exact leads.length_le consistent originKnown

/-- The search of the ring from A stops although the ring can be walked round for ever. -/
theorem ringWithExit_searched : ringWithExit.Built ∧ 0 < ringWithExit.size ∧
    (∃ last, Relation.ReflTransGen (Search.Round ringWithExit (some 1)) (Search.opening 0 #[]) last ∧
      Search.Stops ringWithExit (some 1) last (.error (.pathLimit 1))) ∧
    ∃ set, ringWithExit.pathSet ⟨some 2, .fromStart⟩ 0 = .ok set ∧
      ∀ path ∈ set.paths, path.length ≤ 7 := by
  have known : 0 < ringWithExit.size := by decide
  have refused : ringWithExit.explore (some 1) #[] 0 = .error (.pathLimit 1) := by cbv
  obtain ⟨_, stops, _⟩ := search_stops ringWithExit_built known (some 1) #[]
  obtain ⟨_, _, _, short⟩ := search_stops ringWithExit_built known (some 2) #[]
  have found : (ringWithExit.pathSet ⟨some 2, .fromStart⟩ 0).toOption.isSome = true := by cbv
  cases searched : ringWithExit.pathSet ⟨some 2, .fromStart⟩ 0 with
  | error fault => simp [searched, Except.toOption] at found
  | ok set =>
      exact ⟨ringWithExit_built, known, (stops _).1 refused, set, rfl,
        short .fromStart set searched⟩

end Net

end PetriLogic
