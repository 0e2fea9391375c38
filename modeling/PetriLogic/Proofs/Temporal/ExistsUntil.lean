import PetriLogic.Formula.Evaluation
import PetriLogic.Proofs.Path.Enumeration

namespace PetriLogic

/-- A goal is reached when the condition holds at all nodes in front of it. -/
theorem reaches_iff {hold goal : Handle → Bool} {nodes : List Handle} :
    reaches hold goal nodes = true ↔
      ∃ before node after, nodes = before ++ node :: after ∧ goal node = true ∧
        ∀ other ∈ before, hold other = true := by
  induction nodes with
  | nil => simp [reaches]
  | cons first rest inductionHypothesis =>
      simp only [reaches, Bool.or_eq_true, Bool.and_eq_true, inductionHypothesis]
      constructor
      · intro shown
        obtain met | ⟨holds, before, node, after, rfl, met, held⟩ := shown
        · exact ⟨[], first, rest, rfl, met, by simp⟩
        · refine ⟨first :: before, node, after, rfl, met, ?_⟩
          intro other member
          rcases List.mem_cons.1 member with rfl | later
          · exact holds
          · exact held other later
      · intro shown
        obtain ⟨before, node, after, whole, met, held⟩ := shown
        cases before with
        | nil =>
            cases whole
            exact .inl met
        | cons head before =>
            cases whole
            exact .inr ⟨held first List.mem_cons_self, before, node, after, rfl, met,
              fun other later => held other (List.mem_cons_of_mem _ later)⟩

namespace Net

variable {net : Net} {kind : NodeKind} {hold goal : Handle → Bool} {start finish : Handle}
  {count : Nat} {nodes : List Handle}

/-- Every second node of the walk holds until the last node meets the goal. -/
structure IsUntilWalk (net : Net) (hold goal : Handle → Bool) (start finish : Handle)
    (count : Nat) (nodes : List Handle) : Prop where
  walk : net.IsWalk start finish nodes
  size : nodes.length = 2 * count + 1
  met : goal finish = true
  held : ∀ index < count, ∀ node, nodes[2 * index]? = some node → hold node = true

namespace IsUntilWalk

/-- An until walk ends at a node of the kind of its start. -/
theorem ofKind (untilWalk : net.IsUntilWalk hold goal start finish count nodes)
    (consistent : net.Consistent) (startKind : net.hasKind kind start = true) :
    net.hasKind kind finish = true := by
  rw [untilWalk.walk.hasKind_finish consistent kind, startKind, untilWalk.size]
  simp

/-- In terms of kinds the nodes before the last one hold. -/
theorem held_of_mem (untilWalk : net.IsUntilWalk hold goal start finish count nodes)
    (consistent : net.Consistent) (startKind : net.hasKind kind start = true) {node : Handle}
    (member : node ∈ nodes) (different : node ≠ finish)
    (nodeKind : net.hasKind kind node = true) : hold node = true := by
  have walk := untilWalk.walk
  obtain ⟨index, found⟩ :=
    (even_iff consistent walk.follows (walk.firstKind startKind)).2 ⟨member, nodeKind⟩
  have size := untilWalk.size
  have inside : 2 * index < nodes.length := (List.getElem?_eq_some_iff.1 found).1
  have notLast : index ≠ count := by
    intro same
    have last := walk.ends
    rw [List.getLast?_eq_getElem?, size, Nat.add_sub_cancel, ← same, found] at last
    exact different (Option.some.inj last)
  exact untilWalk.held index (by omega) node found

/-- The rounds of the walk can be left out. -/
theorem exists_reaching_path (untilWalk : net.IsUntilWalk hold goal start finish count nodes)
    (consistent : net.Consistent) (startKind : net.hasKind kind start = true) :
    ∃ path ∈ net.traces start, reaches hold goal (everyOther path.stretch) = true := by
  obtain ⟨short, shortWalk, fresh, among⟩ := untilWalk.walk.shorten
  obtain ⟨path, member, isPart⟩ := shortWalk.exists_trace consistent fresh
  obtain ⟨rest, whole⟩ := Path.part_of_stretch isPart fresh
  have trace := (mem_traces_iff consistent).1 member
  have shortSplit := List.dropLast_append_getLast? finish shortWalk.ends
  have finishKind := untilWalk.ofKind consistent startKind
  refine ⟨path, member, reaches_iff.2 ⟨short.dropLast.filter (net.hasKind kind), finish,
    rest.filter (net.hasKind kind), ?_, untilWalk.met, ?_⟩⟩
  · rw [trace.everyOther_stretch consistent startKind, ← whole, List.filter_append]
    conv_lhs => rw [← shortSplit]
    simp [finishKind]
  · intro node inFiltered
    obtain ⟨inShort, nodeKind⟩ := List.mem_filter.1 inFiltered
    have different : node ≠ finish := by
      intro same
      rw [← shortSplit] at fresh
      exact List.disjoint_of_nodup_append fresh inShort (List.mem_singleton.2 same)
    exact untilWalk.held_of_mem consistent startKind (among (List.dropLast_subset _ inShort))
      different nodeKind

end IsUntilWalk

/-- The walk that a path shows is cut at the node that meets the goal. -/
theorem exists_untilWalk {path : Path} (trace : net.IsTrace start path.nodes)
    (reached : reaches hold goal (everyOther path.stretch) = true) :
    ∃ count finish nodes, net.IsUntilWalk hold goal start finish count nodes := by
  obtain ⟨before, finish, after, split, met, held⟩ := reaches_iff.1 reached
  have shown (index : Nat) : (before ++ finish :: after)[index]? = path.stretch[2 * index]? := by
    rw [← split, everyOther_getElem?]
  have found : path.stretch[2 * before.length]? = some finish := by simp [← shown]
  refine ⟨before.length, finish, path.stretch.take (2 * before.length + 1),
    trace.upTo found, ?_, met, ?_⟩
  · have inside := (List.getElem?_eq_some_iff.1 found).1
    rw [List.length_take]
    omega
  · intro index below node isNode
    rw [List.getElem?_take_of_lt (by omega), ← shown, List.getElem?_append_left below] at isNode
    exact held node (List.mem_of_getElem? isNode)

/-- Over all traces, the existential until holds exactly when there is an until walk. -/
theorem existsUntil_iff (consistent : net.Consistent) (startKind : net.hasKind kind start = true) :
    net.everyPath.existsUntil hold goal start = true ↔
      ∃ count finish nodes, net.IsUntilWalk hold goal start finish count nodes := by
  rw [PathSet.existsUntil, startingAt_everyPath consistent (known_of_hasKind startKind),
    List.any_eq_true]
  constructor
  · intro shown
    obtain ⟨path, member, reached⟩ := shown
    exact exists_untilWalk ((mem_traces_iff consistent).1 member) reached
  · intro walks
    obtain ⟨count, finish, nodes, untilWalk⟩ := walks
    exact untilWalk.exists_reaching_path consistent startKind

/-- Without a condition on the way the goal is met at some reachable node. -/
theorem existsUntil_true_iff (consistent : net.Consistent)
    (startKind : net.hasKind kind start = true) :
    net.everyPath.existsUntil (fun _ => true) goal start = true ↔
      ∃ finish, net.Reaches start finish ∧ net.hasKind kind finish = true ∧
        goal finish = true := by
  rw [existsUntil_iff consistent startKind]
  constructor
  · intro walks
    obtain ⟨count, finish, nodes, untilWalk⟩ := walks
    exact ⟨finish, reaches_iff_walk.2 ⟨nodes, untilWalk.walk⟩,
      untilWalk.ofKind consistent startKind, untilWalk.met⟩
  · intro found
    obtain ⟨finish, reachable, finishKind, met⟩ := found
    obtain ⟨nodes, walk⟩ := reaches_iff_walk.1 reachable
    have odd := walk.hasKind_finish consistent kind
    rw [startKind, finishKind] at odd
    simp only [Bool.true_eq, beq_iff_eq] at odd
    exact ⟨nodes.length / 2, finish, nodes, walk, by omega, met, fun _ _ _ _ => rfl⟩

/-- Over all paths the existential operators say what the walks of the net do. -/
theorem existsUntil_exact {net : Net} (built : net.Built) :
    ∃ set, net.allPaths none = .ok set ∧
      ∀ (kind : NodeKind) (start : Handle), net.hasKind kind start = true →
        (∀ hold goal : Formula kind, (hold.existsUntil goal).holds set start = true ↔
          ∃ count finish nodes,
            net.IsUntilWalk (hold.holds set) (goal.holds set) start finish count nodes) ∧
        (∀ goal : Formula kind, goal.possibly.holds set start = true ↔
          ∃ finish, net.Reaches start finish ∧ net.hasKind kind finish = true ∧
            goal.holds set finish = true) ∧
        (∀ hold : Formula kind, hold.invariantly.holds set start = true ↔
          ∀ finish, net.Reaches start finish → net.hasKind kind finish = true →
            hold.holds set finish = true) := by
  have consistent := built.consistent
  refine ⟨net.everyPath, net.allPaths_none, fun kind start startKind => ⟨?_, ?_, ?_⟩⟩
  · intro hold goal
    rw [Formula.holds, ← existsUntil_iff consistent startKind]
    simp [startKind]
  · intro goal
    rw [Formula.holds, ← existsUntil_true_iff consistent startKind]
    simp [startKind]
  · intro hold
    have missed : net.everyPath.existsUntil (fun _ => true)
        (fun node => !hold.holds net.everyPath node) start = true ↔ _ :=
      existsUntil_true_iff consistent startKind
    constructor
    · intro invariant finish reachable finishKind
      by_contra fails
      have reached := missed.2 ⟨finish, reachable, finishKind, by simpa using fails⟩
      simp [Formula.holds, reached] at invariant
    · intro everywhere
      have unmet : net.everyPath.existsUntil (fun _ => true)
          (fun node => !hold.holds net.everyPath node) start = false := by
        rw [← Bool.not_eq_true, missed]
        intro found
        obtain ⟨finish, reachable, finishKind, fails⟩ := found
        simp [everywhere finish reachable finishKind] at fails
      simp [Formula.holds, unmet, startKind]

/-- The ring can be left for C, and no node before C is C. -/
theorem ringWithExit_leaves : ringWithExit.Built ∧ ringWithExit.hasKind .place 0 = true ∧
    ∃ set, ringWithExit.allPaths none = .ok set ∧
      (Formula.existsUntil (.not (.test (.id "C"))) (.test (.id "C")) : Formula .place).holds
        set 0 = true := by
  refine ⟨ringWithExit_built, rfl, ?_⟩
  obtain ⟨set, whole, exact⟩ := existsUntil_exact ringWithExit_built
  have same : set = ringWithExit.everyPath :=
    Except.ok.inj (whole.symm.trans ringWithExit.allPaths_none)
  refine ⟨set, whole, ((exact .place 0 rfl).1 _ _).2 ⟨2, 2, [0, 3, 1, 5, 2], ?_⟩⟩
  subst same
  refine ⟨⟨rfl, rfl, by decide⟩, rfl, rfl, ?_⟩
  intro index below node found
  match index, below with
  | 0, _ | 1, _ =>
      cases found
      rfl

end Net

end PetriLogic
