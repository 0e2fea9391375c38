import PetriLogic.Proofs.Path.Enumeration
import PetriLogic.Proofs.Temporal.Agreement

namespace PetriLogic.Net

/--
Both nets have the same nodes in a region and the same arcs from them.
No arc leads out of the region.
-/
structure SameWithin (region : Set Handle) (first second : Net) : Prop where
  known : ∀ handle ∈ region, handle < first.size
  node : ∀ handle ∈ region, first.get? handle = second.get? handle
  arc : ∀ source ∈ region, ∀ target, first.HasArc source target ↔ second.HasArc source target
  closed : ∀ source ∈ region, ∀ target, first.HasArc source target → target ∈ region

namespace SameWithin

variable {region : Set Handle} {first second : Net} (same : SameWithin region first second)
include same

/-- The nodes of the region have the same kinds in both nets. -/
theorem kind (handle : Handle) (inside : handle ∈ region) :
    first.kind? handle = second.kind? handle := by
  rw [kind?, kind?, same.node handle inside]

/-- The two nets can be exchanged. -/
theorem symm : SameWithin region second first where
  known := by
    intro handle inside
    rw [← kind?_isSome_iff, ← same.kind handle inside, kind?_isSome_iff]
    exact same.known handle inside
  node := fun handle inside => (same.node handle inside).symm
  arc := fun source inside target => (same.arc source inside target).symm
  closed := fun source inside target arc =>
    same.closed source inside target ((same.arc source inside target).2 arc)

/-- Nodes that follow each other from the region on stay there, and do so in both nets. -/
theorem follows {nodes : List Handle} (chain : nodes.IsChain first.HasArc)
    (begins : ∀ start ∈ nodes.head?, start ∈ region) :
    nodes.IsChain second.HasArc ∧ ∀ node ∈ nodes, node ∈ region := by
  induction nodes with
  | nil => exact ⟨.nil, by simp⟩
  | cons node rest inductionHypothesis =>
      have inside : node ∈ region := begins node rfl
      obtain ⟨restChain, restInside⟩ := inductionHypothesis chain.tail fun next isNext =>
        same.closed node inside next (chain.rel_head? isNext)
      refine ⟨restChain.cons ?_, List.forall_mem_cons.2 ⟨inside, restInside⟩⟩
      intro next isNext
      exact (same.arc node inside next).1 (chain.rel_head? isNext)

/-- In the region, both nets have the same dead ends. -/
theorem successors_eq_nil_iff (firstConsistent : first.Consistent)
    (secondConsistent : second.Consistent) {handle : Handle} (inside : handle ∈ region) :
    first.successors handle = [] ↔ second.successors handle = [] := by
  rw [firstConsistent.successors_eq_nil_iff, secondConsistent.successors_eq_nil_iff]
  simp only [same.arc handle inside]

/-- A trace from the region is a trace of both nets and stays in the region. -/
theorem isTrace (firstConsistent : first.Consistent) (secondConsistent : second.Consistent)
    {start : Handle} {nodes : List Handle} (inside : start ∈ region)
    (trace : first.IsTrace start nodes) :
    second.IsTrace start nodes ∧ ∀ node ∈ nodes, node ∈ region := by
  have begins : ∀ head ∈ nodes.head?, head ∈ region := by
    intro head isHead
    rw [trace.begins] at isHead
    exact Option.some.inj isHead ▸ inside
  obtain ⟨follows, stays⟩ := same.follows trace.follows begins
  refine ⟨⟨trace.begins, follows, trace.fresh, ?_⟩, stays⟩
  intro finish isFinish
  have finishInside := stays finish (List.mem_of_mem_getLast? isFinish)
  exact (trace.stops finish isFinish).imp_right
    (same.successors_eq_nil_iff firstConsistent secondConsistent finishInside).1

/-- The enumeration finds the same paths from the nodes of the region. -/
theorem agree (firstConsistent : first.Consistent) (secondConsistent : second.Consistent) :
    PathSet.Agree region first.everyPath second.everyPath where
  kind := same.kind
  path := by
    intro handle inside path
    rw [startingAt_everyPath firstConsistent (same.known handle inside),
      startingAt_everyPath secondConsistent (same.symm.known handle inside),
      mem_traces_iff firstConsistent, mem_traces_iff secondConsistent]
    constructor
    · exact fun trace => (same.isTrace firstConsistent secondConsistent inside trace).1
    · exact fun trace => (same.symm.isTrace secondConsistent firstConsistent inside trace).1
  inside := by
    intro handle inside path member
    rw [startingAt_everyPath firstConsistent (same.known handle inside),
      mem_traces_iff firstConsistent] at member
    exact (same.isTrace firstConsistent secondConsistent inside member).2

end SameWithin

end PetriLogic.Net
