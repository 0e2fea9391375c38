import PetriLogic.Formula.Evaluation
import PetriLogic.Proofs.Path.Limit

namespace PetriLogic

/-- Neighbours on the path are nodes of the net, a place next to a transition. -/
def Path.Alternates (net : Net) (path : Path) : Prop :=
  path.nodes.IsChain fun first second =>
    ∃ kind, net.kind? first = some kind ∧ net.kind? second = some kind.other

/-- The other kind of the other kind is the kind itself. -/
theorem NodeKind.other_other (kind : NodeKind) : kind.other.other = kind := by
  cases kind <;> rfl

/-- The even positions of alternating nodes keep the kind of the first one. -/
theorem hasKind_of_mem_everyOther {net : Net} {kind : NodeKind} {nodes : List Handle}
    (alternates : nodes.IsChain fun first second =>
      ∃ kind, net.kind? first = some kind ∧ net.kind? second = some kind.other)
    (first : ∀ start ∈ nodes.head?, net.hasKind kind start = true) :
    ∀ node ∈ everyOther nodes, net.hasKind kind node = true := by
  induction nodes using everyOther.induct with
  | case1 => simp [everyOther]
  | case2 handle => simpa [everyOther] using first
  | case3 start second rest inductionHypothesis =>
      obtain ⟨⟨startKind, known, secondKnown⟩, later⟩ := List.isChain_cons_cons.1 alternates
      have startIs : net.kind? start = some kind := of_decide_eq_true (first start rfl)
      obtain rfl : startKind = kind := Option.some.inj (known.symm.trans startIs)
      have restKind : ∀ third ∈ rest.head?, net.hasKind startKind third = true := by
        intro third isNext
        obtain ⟨between, secondIs, thirdIs⟩ := later.rel_head? isNext
        rw [secondKnown] at secondIs
        rw [← Option.some.inj secondIs, NodeKind.other_other] at thirdIs
        exact decide_eq_true thirdIs
      exact List.forall_mem_cons.2 ⟨first start rfl, inductionHypothesis later.tail restKind⟩

namespace PathSet

/-- Every path of the set alternates between places and transitions. -/
def Alternates (set : PathSet) : Prop := ∀ path ∈ set.paths, path.Alternates set.net

variable {set : PathSet} {kind : NodeKind} {handle successor : Handle}

/-- The successors of a node are what its paths show at their second position. -/
theorem mem_successors_iff :
    successor ∈ set.successors handle ↔
      ∃ path ∈ set.startingAt handle, path.nodes[1]? = some successor := by
  rw [successors, List.mem_eraseDups, atOffset, List.mem_filterMap]
  rfl

/-- The successors of a node have the other kind. -/
theorem Alternates.hasKind_successor (alternates : set.Alternates)
    (known : set.net.hasKind kind handle = true) (follows : successor ∈ set.successors handle) :
    set.net.hasKind kind.other successor = true := by
  obtain ⟨⟨nodes, nonempty⟩, member, second⟩ := mem_successors_iff.1 follows
  obtain ⟨inPaths, begins⟩ := List.mem_filter.1 member
  cases nodes with
  | nil => cases second
  | cons start rest =>
      cases rest with
      | nil => cases second
      | cons next rest =>
          cases second
          obtain rfl : start = handle := of_decide_eq_true begins
          obtain ⟨startKind, startIs, successorIs⟩ := (alternates _ inPaths).rel
          rw [of_decide_eq_true known] at startIs
          cases startIs
          exact decide_eq_true successorIs

/-- What a walk along a path looks at has the kind of its start. -/
theorem Alternates.hasKind_of_mem_sameKind (alternates : set.Alternates)
    (known : set.net.hasKind kind handle = true) {path : Path}
    (member : path ∈ set.startingAt handle) (stop : Nat) :
    ∀ node ∈ path.sameKind stop, set.net.hasKind kind node = true := by
  obtain ⟨inPaths, begins⟩ := List.mem_filter.1 member
  apply hasKind_of_mem_everyOther ((alternates path inPaths).take stop)
  intro start isFirst
  have isHead := head?_of_part (List.take_prefix stop path.nodes) isFirst
  rw [path.head?_nodes, of_decide_eq_true begins] at isHead
  exact Option.some.inj isHead ▸ known

variable {hold goal otherHold otherGoal : Handle → Bool}

/-- Tests that agree on the nodes of a walk reach the same goals. -/
theorem reaches_congr {nodes : List Handle} (sameHold : ∀ node ∈ nodes, hold node = otherHold node)
    (sameGoal : ∀ node ∈ nodes, goal node = otherGoal node) :
    reaches hold goal nodes = reaches otherHold otherGoal nodes := by
  induction nodes with
  | nil => rfl
  | cons first rest inductionHypothesis =>
      obtain ⟨firstHold, restHold⟩ := List.forall_mem_cons.1 sameHold
      obtain ⟨firstGoal, restGoal⟩ := List.forall_mem_cons.1 sameGoal
      rw [reaches, reaches, firstHold, firstGoal, inductionHypothesis restHold restGoal]

/-- The tests of an existential until are asked at nodes of one kind only. -/
theorem Alternates.existsUntil_congr (alternates : set.Alternates)
    (known : set.net.hasKind kind handle = true)
    (sameHold : ∀ node, set.net.hasKind kind node = true → hold node = otherHold node)
    (sameGoal : ∀ node, set.net.hasKind kind node = true → goal node = otherGoal node) :
    set.existsUntil hold goal handle = set.existsUntil otherHold otherGoal handle := by
  rw [Bool.eq_iff_iff]
  simp only [existsUntil, List.any_eq_true]
  refine exists_congr fun path => and_congr_right fun member => ?_
  have ofKind := alternates.hasKind_of_mem_sameKind known member path.walkEnd
  rw [reaches_congr (fun node inWalk => sameHold node (ofKind node inWalk))
    (fun node inWalk => sameGoal node (ofKind node inWalk))]

/-- The goal that is certain is asked for at nodes of one kind only. -/
theorem Alternates.eventually_congr (alternates : set.Alternates)
    (known : set.net.hasKind kind handle = true)
    (sameGoal : ∀ node, set.net.hasKind kind node = true → goal node = otherGoal node) :
    set.eventually goal handle = set.eventually otherGoal handle := by
  rw [Bool.eq_iff_iff]
  simp only [eventually, List.all_eq_true, List.any_eq_true]
  refine forall₂_congr fun path member => exists_congr fun node => and_congr_right fun inWalk => ?_
  rw [sameGoal node (alternates.hasKind_of_mem_sameKind known member _ node inWalk)]

/-- The second successors have the kind of the start again. -/
theorem Alternates.hasKind_second (alternates : set.Alternates)
    (known : set.net.hasKind kind handle = true) (follows : successor ∈ set.successors handle)
    {second : Handle} (followsToo : second ∈ set.successors successor) :
    set.net.hasKind kind second = true := by
  have between := alternates.hasKind_successor known follows
  have ofKind := alternates.hasKind_successor between followsToo
  rwa [NodeKind.other_other] at ofKind

/-- The next nodes but one are asked for as nodes of one kind only. -/
theorem Alternates.existsNext_congr (alternates : set.Alternates)
    (known : set.net.hasKind kind handle = true)
    (same : ∀ node, set.net.hasKind kind node = true → goal node = otherGoal node) :
    set.existsNext goal handle kind = set.existsNext otherGoal handle kind := by
  have sameSecond : ∀ successor ∈ set.successors handle, ∀ second ∈ set.successors successor,
      goal second = otherGoal second := fun successor follows second followsToo =>
    same second (alternates.hasKind_second known follows followsToo)
  rw [Bool.eq_iff_iff]
  cases kind with
  | place =>
      simp only [existsNext, List.any_eq_true, List.all_eq_true]
      refine exists_congr fun successor => and_congr_right fun follows => ?_
      refine forall₂_congr fun second followsToo => ?_
      rw [sameSecond successor follows second followsToo]
  | transition =>
      simp only [existsNext, List.any_eq_true]
      refine exists_congr fun successor => and_congr_right fun follows => ?_
      refine exists_congr fun second => and_congr_right fun followsToo => ?_
      rw [sameSecond successor follows second followsToo]

/-- What holds next in every case is what fails next in no case. -/
theorem forallNext_eq_not_existsNext (set : PathSet) (later : Handle → Bool) (handle : Handle)
    (kind : NodeKind) :
    set.forallNext later handle kind = !set.existsNext (fun node => !later node) handle kind := by
  cases kind with
  | place => rfl
  | transition => simp [forallNext, existsNext, List.all_eq_not_any_not]

end PathSet

/-- The paths that the search finds alternate. -/
theorem Net.Consistent.alternates {net : Net} (consistent : net.Consistent) {start : Handle}
    (known : start < net.size) {enumeration : Enumeration} {set : PathSet}
    (found : net.pathSet enumeration start = .ok set) : set.Alternates := by
  have traces := consistent.exists_isTrace found
  rw [pathSet_eq known] at found
  obtain rfl := eq_of_limited found
  intro path member
  obtain ⟨origin, _, trace⟩ := traces path member
  apply trace.follows.imp
  intro first second arc
  exact consistent.arcsAlternate _ arc

end PetriLogic
