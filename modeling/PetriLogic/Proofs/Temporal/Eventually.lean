import PetriLogic.Formula.Evaluation
import PetriLogic.Proofs.Path.Enumeration
import Mathlib.Data.Fintype.Pigeonhole
import Mathlib.Order.Monotone.Basic

namespace PetriLogic.Net

variable {net : Net} {kind : NodeKind} {keeps goal : Handle → Bool} {start finish : Handle}
  {nodes : List Handle}

/-- The walk keeps to its condition at every second node and ends where it can last. -/
structure IsLastingWalk (net : Net) (keeps : Handle → Bool) (start finish : Handle)
    (nodes : List Handle) : Prop where
  walk : net.IsWalk start finish nodes
  kept : ∀ index node, nodes[2 * index]? = some node → keeps node = true
  lasts : net.successors finish = [] ∨ net.OnCycle finish

/-- A trace keeps to a condition up to the entry of its loop. -/
def KeepsFirstRound (keeps : Handle → Bool) (path : Path) : Prop :=
  ∀ node ∈ everyOther path.firstRound, keeps node = true

/-- A trace that keeps to its condition up to the entry of its loop leads to a lasting walk. -/
theorem exists_lastingWalk {path : Path} (trace : net.IsTrace start path.nodes)
    (kept : KeepsFirstRound keeps path) :
    ∃ finish nodes, net.IsLastingWalk keeps start finish nodes := by
  have keptAt : ∀ index node, path.firstRound[2 * index]? = some node → keeps node = true :=
    fun index node found => kept node (mem_everyOther_iff.2 ⟨index, found⟩)
  rcases nodup_or_repeats path.nodes with fresh | ⟨before, handle, after, split, fresh, earlier⟩
  · rw [Path.firstRound_of_nodup fresh] at keptAt
    exact ⟨path.last, path.nodes, trace.isWalk, keptAt, .inl (trace.stuck_of_nodup fresh)⟩
  · rw [Path.firstRound_of_repeats split fresh earlier] at keptAt
    have entry : path.nodes[before.idxOf handle]? = some handle := by
      rw [split, List.getElem?_append_left (List.idxOf_lt_length_of_mem earlier)]
      exact List.getElem?_idxOf earlier
    exact ⟨handle, _, trace.isWalk.upTo entry, keptAt,
      .inr (onCycle_of_repeated (split ▸ trace.follows) earlier)⟩

/-- The walk without its rounds is a trace or the stem of one. -/
theorem IsLastingWalk.exists_trace (lasting : net.IsLastingWalk keeps start finish nodes)
    (consistent : net.Consistent) (startKind : net.hasKind kind start = true) :
    ∃ path ∈ net.traces start, KeepsFirstRound keeps path := by
  obtain ⟨short, shortWalk, fresh, among⟩ := lasting.walk.shorten
  -- Kinds alternate, so a node at an even position of the short walk has one in the long walk too.
  have keptShort {part : List Handle} (isPart : part <+: short) :
      ∀ node ∈ everyOther part, keeps node = true := by
    intro node member
    obtain ⟨index, found⟩ := mem_everyOther_iff.1 member
    have inShort : short[2 * index]? = some node := by
      obtain ⟨rest, rfl⟩ := isPart
      rw [List.getElem?_append_left (List.getElem?_eq_some_iff.1 found).1, found]
    obtain ⟨position, inNodes⟩ :=
      lasting.walk.even_of_subset shortWalk among consistent startKind ⟨index, inShort⟩
    exact lasting.kept position node inNodes
  rcases lasting.lasts with stuck | cyclic
  · let path : Path := ⟨short, shortWalk.nonempty⟩
    have whole : path.firstRound = short := Path.firstRound_of_nodup fresh
    refine ⟨path, (mem_traces_iff consistent).2 (shortWalk.trace_of_stuck fresh stuck), ?_⟩
    rw [KeepsFirstRound, whole]
    exact keptShort List.prefix_rfl
  · obtain ⟨more, node, follows, apart, closes⟩ := shortWalk.exists_lasso fresh cyclic
    let path : Path := ⟨short ++ (more ++ [node]), by simp⟩
    refine ⟨path, (mem_traces_iff consistent).2 (shortWalk.trace_of_return follows apart closes), ?_⟩
    have split : path.nodes = (short ++ more) ++ node :: [] := by simp [path]
    have entry : (short ++ more).idxOf node + 1 ≤ short.length := by
      rw [List.idxOf_append_of_mem closes]
      exact List.idxOf_lt_length_of_mem closes
    have round : path.firstRound = short.take ((short ++ more).idxOf node + 1) := by
      rw [Path.firstRound_of_repeats split apart (List.mem_append_left _ closes)]
      exact List.take_append_of_le_length entry
    rw [KeepsFirstRound, round]
    exact keptShort (List.take_prefix _ _)

/-- A goal is missed exactly along a walk that can last without it. -/
theorem eventually_eq_false_iff (consistent : net.Consistent)
    (startKind : net.hasKind kind start = true) :
    net.everyPath.eventually goal start = false ↔
      ∃ finish nodes, net.IsLastingWalk (fun node => !goal node) start finish nodes := by
  have missed (path : Path) : (path.sameKind path.firstRoundEnd).any goal = false ↔
      KeepsFirstRound (fun node => !goal node) path := by
    simp [KeepsFirstRound, Path.firstRound, Path.sameKind]
  rw [PathSet.eventually, startingAt_everyPath consistent (known_of_hasKind startKind),
    List.all_eq_false]
  simp only [Bool.not_eq_true, missed]
  constructor
  · intro shown
    obtain ⟨path, member, kept⟩ := shown
    exact exists_lastingWalk ((mem_traces_iff consistent).1 member) kept
  · intro lasts
    obtain ⟨finish, nodes, lasting⟩ := lasts
    exact lasting.exists_trace consistent startKind

/-- An endless walk has a next node at every position. -/
structure IsEndlessWalk (net : Net) (start : Handle) (steps : Nat → Handle) : Prop where
  begins : steps 0 = start
  follows : ∀ index, net.HasArc (steps index) (steps (index + 1))

namespace IsEndlessWalk

variable {steps : Nat → Handle}

/-- The steps of an endless walk up to an index form a walk. -/
theorem upTo (endless : net.IsEndlessWalk start steps) (index : Nat) :
    net.IsWalk start (steps index) ((List.range (index + 1)).map steps) where
  begins := by
    rw [← endless.begins]
    simp [List.range_succ_eq_map]
  ends := by simp [List.range_succ]
  follows := by
    rw [List.isChain_iff_getElem]
    intro position inside
    simpa using endless.follows position

/-- A net has too few nodes for an endless walk without a cycle. -/
theorem exists_onCycle (endless : net.IsEndlessWalk start steps) (consistent : net.Consistent) :
    ∃ index, net.OnCycle (steps index) := by
  have inside (index : Nat) : steps index < net.size := by
    obtain ⟨kind, source, _⟩ := consistent.arcsAlternate _ (endless.follows index)
    exact kindInRange source
  let places (index : Nat) : Fin net.size := ⟨steps index, inside index⟩
  obtain ⟨first, second, different, same⟩ := Finite.exists_ne_map_eq_of_infinite places
  have repeated : steps first = steps second := congrArg Fin.val same
  have onward {earlier later : Nat} (before : earlier < later) :
      Relation.TransGen net.HasArc (steps earlier) (steps later) :=
    Nat.rel_of_forall_rel_succ_of_lt (Relation.TransGen net.HasArc)
      (fun index => .single (endless.follows index)) before
  rcases Nat.lt_or_gt_of_ne different with before | after
  · have round := onward before
    rw [← repeated] at round
    exact ⟨first, round⟩
  · have round := onward after
    rw [repeated] at round
    exact ⟨second, round⟩

end IsEndlessWalk

/-- Where a goal is certain, every endless walk meets it at an even position. -/
theorem IsEndlessWalk.meets {steps : Nat → Handle} (endless : net.IsEndlessWalk start steps)
    (consistent : net.Consistent) (startKind : net.hasKind kind start = true)
    (certain : net.everyPath.eventually goal start = true) :
    ∃ index, goal (steps (2 * index)) = true := by
  by_contra missed
  obtain ⟨last, cyclic⟩ := endless.exists_onCycle consistent
  have lasting : net.IsLastingWalk (fun node => !goal node) start (steps last)
      ((List.range (last + 1)).map steps) := by
    refine ⟨endless.upTo last, ?_, .inr cyclic⟩
    intro index node found
    have same : steps (2 * index) = node := by
      obtain ⟨inside, equal⟩ := List.getElem?_eq_some_iff.1 found
      simpa using equal
    rw [Bool.not_eq_true', ← Bool.not_eq_true]
    intro met
    exact missed ⟨index, same ▸ met⟩
  have evaded := (eventually_eq_false_iff consistent startKind).2 ⟨_, _, lasting⟩
  rw [certain] at evaded
  cases evaded

/-- Where a goal is certain, every walk into a dead end meets it at an even position. -/
theorem IsWalk.meets (walk : net.IsWalk start finish nodes) (stuck : net.successors finish = [])
    (consistent : net.Consistent) (startKind : net.hasKind kind start = true)
    (certain : net.everyPath.eventually goal start = true) :
    ∃ index node, nodes[2 * index]? = some node ∧ goal node = true := by
  by_contra missed
  have lasting : net.IsLastingWalk (fun node => !goal node) start finish nodes := by
    refine ⟨walk, ?_, .inl stuck⟩
    intro index node found
    rw [Bool.not_eq_true', ← Bool.not_eq_true]
    intro met
    exact missed ⟨index, node, found, met⟩
  have evaded := (eventually_eq_false_iff consistent startKind).2 ⟨_, _, lasting⟩
  rw [certain] at evaded
  cases evaded

/-- Over all paths a goal is evaded along walks into dead ends and onto cycles. -/
theorem eventually_exact {net : Net} (built : net.Built) :
    ∃ set, net.allPaths none = .ok set ∧
      ∀ (kind : NodeKind) (start : Handle), net.hasKind kind start = true →
        (∀ goal : Formula kind, goal.eventually.holds set start = false ↔
          ∃ finish nodes,
            net.IsLastingWalk (fun node => !goal.holds set node) start finish nodes) ∧
        (∀ goal : Formula kind, goal.eventually.holds set start = true →
          (∀ steps, net.IsEndlessWalk start steps →
            ∃ index, goal.holds set (steps (2 * index)) = true) ∧
          ∀ finish nodes, net.IsWalk start finish nodes → net.successors finish = [] →
            ∃ index node, nodes[2 * index]? = some node ∧ goal.holds set node = true) ∧
        (∀ hold : Formula kind, hold.along.holds set start = true ↔
          ∃ finish nodes, net.IsLastingWalk (hold.holds set) start finish nodes) := by
  have consistent := built.consistent
  refine ⟨net.everyPath, net.allPaths_none, fun kind start startKind => ⟨?_, ?_, ?_⟩⟩
  · intro goal
    rw [← eventually_eq_false_iff consistent startKind]
    simp [Formula.holds, startKind]
  · intro goal certain
    have sure : net.everyPath.eventually (goal.holds net.everyPath) start = true := by
      simpa [Formula.holds, startKind] using certain
    exact ⟨fun steps endless => endless.meets consistent startKind sure,
      fun finish nodes walk stuck => walk.meets stuck consistent startKind sure⟩
  · intro hold
    have evaded : net.everyPath.eventually (fun node => !hold.holds net.everyPath node) start =
        false ↔ _ := eventually_eq_false_iff consistent startKind
    simp only [Bool.not_not] at evaded
    rw [← evaded]
    simp [Formula.holds, startKind]

/-- On the ring the exit may never be taken. -/
theorem ringWithExit_stays : ringWithExit.Built ∧ ringWithExit.hasKind .place 0 = true ∧
    ∃ set, ringWithExit.allPaths none = .ok set ∧
      (Formula.eventually (.test (.id "C")) : Formula .place).holds set 0 = false := by
  refine ⟨ringWithExit_built, rfl, ?_⟩
  obtain ⟨set, whole, exact⟩ := eventually_exact ringWithExit_built
  have same : set = ringWithExit.everyPath :=
    Except.ok.inj (whole.symm.trans ringWithExit.allPaths_none)
  refine ⟨set, whole, ((exact .place 0 rfl).1 _).2 ⟨0, [0], .single _ _, ?_, .inr ?_⟩⟩
  · subst same
    intro index node found
    cases index with
    | zero =>
        cases found
        rfl
    | succ index => simp [Nat.mul_succ] at found
  · have round : ([0, 3, 1, 4] ++ 0 :: []).IsChain ringWithExit.HasArc := by decide
    exact onCycle_of_repeated round (by decide)

end PetriLogic.Net
