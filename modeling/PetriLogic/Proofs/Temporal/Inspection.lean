import PetriLogic.Proofs.Temporal.Anchors

namespace PetriLogic.PathSet

variable {set : PathSet} {hold goal : Handle → Bool} {start anchor : Handle} {known : List Handle}
  {path : Path} {paths : List Path}

/-- No node is expanded twice, and none that was known before. -/
theorem inspectPaths_fresh {among : ∀ path ∈ paths, path ∈ set.paths} :
    (set.inspectPaths hold goal known paths among).expanded.Nodup ∧
      ∀ node ∈ (set.inspectPaths hold goal known paths among).expanded, node ∉ known := by
  -- The cases are: no path is left, and the first one is met, broken, or deferred to an anchor
  -- that is known or new. Only a new anchor is expanded.
  fun_induction set.inspectPaths hold goal known paths among with
  | case1 | case3 => simp
  | case2 known path paths _ _ _ _ inductionHypothesis => exact inductionHypothesis
  | case4 known path paths _ _ _ _ _ _ inductionHypothesis => exact inductionHypothesis
  | case5 known path paths _ _ anchor _ isNew rest _ inductionHypothesis =>
      obtain ⟨fresh, apart⟩ := inductionHypothesis
      have anchorFresh : anchor ∉ rest.expanded := fun member =>
        apart anchor member List.mem_cons_self
      refine ⟨List.nodup_cons.2 ⟨anchorFresh, fresh⟩, List.forall_mem_cons.2 ⟨isNew, ?_⟩⟩
      exact fun node member inKnown => apart node member (List.mem_cons_of_mem _ inKnown)

/-- Some path is deferred to the first anchor of a chain that ends at the node. -/
def LeadsTo (set : PathSet) (hold goal : Handle → Bool) (paths : List Path) (node : Handle) :
    Prop :=
  ∃ path ∈ paths, ∃ anchor, Obligation.ofPath hold goal path = .deferred anchor ∧
    Relation.ReflTransGen (set.Defers hold goal) anchor node

namespace LeadsTo

variable {node : Handle}

/-- With one more path, the paths still lead to the node. -/
theorem cons (leads : set.LeadsTo hold goal paths node) :
    set.LeadsTo hold goal (path :: paths) node := by
  obtain ⟨other, member, rest⟩ := leads
  exact ⟨other, List.mem_cons_of_mem _ member, rest⟩

/-- The paths of a node lead to where a chain of anchors from this node leads. -/
theorem chain (leads : set.LeadsTo hold goal (set.startingAt anchor) node) :
    Relation.ReflTransGen (set.Defers hold goal) anchor node := by
  obtain ⟨path, member, next, deferred, chain⟩ := leads
  exact .head ⟨path, member, deferred⟩ chain

/-- The paths of an anchor lead nowhere that the path which is deferred to it does not lead. -/
theorem ofAnchor (deferred : Obligation.ofPath hold goal path = .deferred anchor)
    (leads : set.LeadsTo hold goal (set.startingAt anchor ++ paths) node) :
    set.LeadsTo hold goal (path :: paths) node := by
  obtain ⟨other, member, next, nextDeferred, chain⟩ := leads
  rcases List.mem_append.1 member with shown | inPaths
  · exact ⟨path, List.mem_cons_self, anchor, deferred,
      .head ⟨other, shown, nextDeferred⟩ chain⟩
  · exact ⟨other, List.mem_cons_of_mem _ inPaths, next, nextDeferred, chain⟩

end LeadsTo

/-- Nodes are expanded because the paths lead to them. -/
theorem leadsTo_of_expanded {among : ∀ path ∈ paths, path ∈ set.paths} :
    ∀ node ∈ (set.inspectPaths hold goal known paths among).expanded,
      set.LeadsTo hold goal paths node := by
  fun_induction set.inspectPaths hold goal known paths among with
  | case1 | case3 => simp
  | case2 known path paths _ _ _ _ inductionHypothesis
  | case4 known path paths _ _ _ _ _ _ inductionHypothesis =>
      exact fun node member => (inductionHypothesis node member).cons
  | case5 known path paths _ _ anchor deferred _ rest _ inductionHypothesis =>
      refine List.forall_mem_cons.2 ⟨⟨path, List.mem_cons_self, anchor, deferred, .refl⟩, ?_⟩
      exact fun node member => (inductionHypothesis node member).ofAnchor deferred

/-- A refused inspection has met a broken path, or the paths lead to a node that has one. -/
theorem exists_broken_of_refused {among : ∀ path ∈ paths, path ∈ set.paths}
    (refused : (set.inspectPaths hold goal known paths among).answer = false) :
    (∃ path ∈ paths, Obligation.ofPath hold goal path = .broken) ∨
      ∃ node, set.LeadsTo hold goal paths node ∧ set.Breaks hold goal node := by
  fun_induction set.inspectPaths hold goal known paths among with
  | case1 => cases refused
  | case2 known path paths _ _ _ _ inductionHypothesis
  | case4 known path paths _ _ _ _ _ _ inductionHypothesis =>
      rcases inductionHypothesis refused with ⟨other, member, broken⟩ | ⟨node, leads, breaks⟩
      · exact .inl ⟨other, List.mem_cons_of_mem _ member, broken⟩
      · exact .inr ⟨node, leads.cons, breaks⟩
  | case3 known path paths _ _ broken => exact .inl ⟨path, List.mem_cons_self, broken⟩
  | case5 known path paths _ _ anchor deferred _ rest _ inductionHypothesis =>
      rcases inductionHypothesis refused with ⟨other, member, broken⟩ | ⟨node, leads, breaks⟩
      · rcases List.mem_append.1 member with shown | inPaths
        · exact .inr ⟨anchor, ⟨path, List.mem_cons_self, anchor, deferred, .refl⟩,
            other, shown, broken⟩
        · exact .inl ⟨other, List.mem_cons_of_mem _ inPaths, broken⟩
      · exact .inr ⟨node, leads.ofAnchor deferred, breaks⟩

/-- A path needs no more checking when it is met or deferred to a known anchor. -/
def Cleared (hold goal : Handle → Bool) (known : List Handle) (path : Path) : Prop :=
  Obligation.ofPath hold goal path ≠ .broken ∧
    ∀ anchor, Obligation.ofPath hold goal path = .deferred anchor → anchor ∈ known

/-- This is the invariant: every path of a known node is cleared or still to be looked at. -/
def Covered (set : PathSet) (hold goal : Handle → Bool) (known : List Handle)
    (paths : List Path) : Prop :=
  ∀ node ∈ known, ∀ path ∈ set.startingAt node, path ∈ paths ∨ Cleared hold goal known path

/-- A cleared path needs no more looking at. -/
theorem Covered.skip (covered : set.Covered hold goal known (path :: paths))
    (cleared : Cleared hold goal known path) : set.Covered hold goal known paths := by
  intro node member other shown
  rcases covered node member other shown with inPaths | clear
  · rcases List.mem_cons.1 inPaths with rfl | later
    · exact .inr cleared
    · exact .inl later
  · exact .inr clear

/-- A new anchor becomes known together with its paths, none of which was looked at. -/
theorem Covered.expand (covered : set.Covered hold goal known (path :: paths))
    (deferred : Obligation.ofPath hold goal path = .deferred anchor) :
    set.Covered hold goal (anchor :: known) (set.startingAt anchor ++ paths) := by
  intro node member other shown
  rcases List.mem_cons.1 member with rfl | earlier
  · exact .inl (List.mem_append_left _ shown)
  · rcases covered node earlier other shown with inPaths | clear
    · rcases List.mem_cons.1 inPaths with rfl | later
      · refine .inr ⟨by simp [deferred], fun next deferredNext => ?_⟩
        rw [deferred] at deferredNext
        cases deferredNext
        exact List.mem_cons_self
      · exact .inl (List.mem_append_right _ later)
    · exact .inr ⟨clear.1, fun next deferredNext =>
        List.mem_cons_of_mem _ (clear.2 next deferredNext)⟩

/-- An inspection that succeeds leaves the known and the expanded nodes without open paths. -/
theorem exists_covered_of_accepted {among : ∀ path ∈ paths, path ∈ set.paths}
    (covered : set.Covered hold goal known paths)
    (accepted : (set.inspectPaths hold goal known paths among).answer = true) :
    ∃ all, set.Covered hold goal all [] ∧ known ⊆ all ∧
      all ⊆ known ++ (set.inspectPaths hold goal known paths among).expanded := by
  fun_induction set.inspectPaths hold goal known paths among with
  | case1 known =>
      exact ⟨known, covered, List.Subset.refl _, List.subset_append_left _ _⟩
  | case2 known path paths _ _ met _ inductionHypothesis =>
      exact inductionHypothesis (covered.skip ⟨by simp [met], by simp [met]⟩) accepted
  | case3 => cases accepted
  | case4 known path paths _ _ anchor deferred seen _ inductionHypothesis =>
      refine inductionHypothesis (covered.skip ⟨by simp [deferred], fun next same => ?_⟩) accepted
      rw [deferred] at same
      cases same
      exact seen
  | case5 known path paths _ _ anchor deferred _ rest _ inductionHypothesis =>
      obtain ⟨all, closed, earlier, bounded⟩ :=
        inductionHypothesis (covered.expand deferred) accepted
      refine ⟨all, closed, List.Subset.trans (List.subset_cons_self _ _) earlier, ?_⟩
      exact List.Subset.trans bounded List.perm_middle.symm.subset

/-- None of the nodes has a broken path, and they contain all their anchors. -/
structure Settled (set : PathSet) (hold goal : Handle → Bool) (nodes : List Handle) : Prop where
  sound : ∀ node ∈ nodes, ¬set.Breaks hold goal node
  closed : ∀ node ∈ nodes, ∀ anchor, set.Defers hold goal node anchor → anchor ∈ nodes

/-- Settled nodes contain all chains of anchors from them. -/
theorem Settled.mem_of_chain {nodes : List Handle} (settled : set.Settled hold goal nodes)
    {first last : Handle} (member : first ∈ nodes)
    (chain : Relation.ReflTransGen (set.Defers hold goal) first last) : last ∈ nodes := by
  induction chain with
  | refl => exact member
  | tail _ defers inductionHypothesis => exact settled.closed _ inductionHypothesis _ defers

/-- When no path is left to be looked at, the known nodes are settled. -/
theorem Covered.settled (covered : set.Covered hold goal known []) :
    set.Settled hold goal known where
  sound := by
    intro node member breaks
    obtain ⟨path, shown, broken⟩ := breaks
    rcases covered node member path shown with inPaths | clear
    · cases inPaths
    · exact clear.1 broken
  closed := by
    intro node member anchor defers
    obtain ⟨path, shown, deferred⟩ := defers
    rcases covered node member path shown with inPaths | clear
    · cases inPaths
    · exact clear.2 anchor deferred

section

variable (set : PathSet) (hold goal : Handle → Bool) (start : Handle)

/-- An inspection expands no node twice. -/
theorem inspect_fresh : (set.inspect hold goal start).expanded.Nodup :=
  List.nodup_cons.2 ⟨fun member => inspectPaths_fresh.2 start member List.mem_cons_self,
    inspectPaths_fresh.1⟩

/-- Only nodes at the end of a chain of anchors are expanded. -/
theorem chain_of_inspected : ∀ node ∈ (set.inspect hold goal start).expanded,
    Relation.ReflTransGen (set.Defers hold goal) start node :=
  List.forall_mem_cons.2 ⟨.refl, fun node member => (leadsTo_of_expanded node member).chain⟩

end

/-- An inspection that succeeds has expanded a set of nodes that the anchors do not leave. -/
theorem exists_settled_of_forallUntil (holds : set.forallUntil hold goal start = true) :
    ∃ nodes, set.Settled hold goal nodes ∧ start ∈ nodes ∧
      nodes ⊆ (set.inspect hold goal start).expanded := by
  have initially : set.Covered hold goal [start] (set.startingAt start) := by
    intro node member path shown
    rw [List.mem_singleton.1 member] at shown
    exact .inl shown
  obtain ⟨nodes, covered, known, bounded⟩ := exists_covered_of_accepted initially holds
  exact ⟨nodes, covered.settled, known List.mem_cons_self, bounded⟩

/-- An inspection that succeeds has expanded every node at the end of a chain of anchors. -/
theorem inspected_of_chain (holds : set.forallUntil hold goal start = true) {node : Handle}
    (chain : Relation.ReflTransGen (set.Defers hold goal) start node) :
    node ∈ (set.inspect hold goal start).expanded := by
  obtain ⟨nodes, settled, member, bounded⟩ := exists_settled_of_forallUntil holds
  exact bounded (settled.mem_of_chain member chain)

/-- The search succeeds when no chain of anchors from the start ends at a broken path. -/
theorem forallUntil_eq_true_iff :
    set.forallUntil hold goal start = true ↔
      ∀ node, Relation.ReflTransGen (set.Defers hold goal) start node →
        ¬set.Breaks hold goal node := by
  constructor
  · intro holds node chain
    obtain ⟨nodes, settled, member, _⟩ := exists_settled_of_forallUntil holds
    exact settled.sound node (settled.mem_of_chain member chain)
  · intro sound
    cases searched : set.forallUntil hold goal start with
    | true => rfl
    | false =>
        rcases exists_broken_of_refused searched with ⟨path, shown, broken⟩ | ⟨node, leads, breaks⟩
        · exact absurd ⟨path, shown, broken⟩ (sound start .refl)
        · exact absurd breaks (sound node leads.chain)

end PetriLogic.PathSet
