import PetriLogic.Formula.Evaluation
import PetriLogic.Proofs.Path.DepthFirst
import PetriLogic.Proofs.Temporal.Agreement

namespace PetriLogic

/-- Blocks that repeat different values show each value once, in the order of the blocks. -/
theorem eraseDups_flatMap {values : List Handle} {block : Handle → List Handle}
    (fresh : values.Nodup) (filled : ∀ value ∈ values, block value ≠ [])
    (uniform : ∀ value ∈ values, ∀ other ∈ block value, other = value) :
    (values.flatMap block).eraseDups = values := by
  induction values with
  | nil => rfl
  | cons value values inductionHypothesis =>
      obtain ⟨isNew, restFresh⟩ := List.nodup_cons.1 fresh
      obtain ⟨firstFilled, restFilled⟩ := List.forall_mem_cons.1 filled
      obtain ⟨firstUniform, restUniform⟩ := List.forall_mem_cons.1 uniform
      obtain ⟨first, more, whole⟩ := List.exists_cons_of_ne_nil firstFilled
      rw [whole] at firstUniform
      obtain ⟨rfl, moreUniform⟩ := List.forall_mem_cons.1 firstUniform
      have repeated : more.filter (fun other => !other == first) = [] := by
        simpa [List.filter_eq_nil_iff] using moreUniform
      have others : (values.flatMap block).filter (fun other => !other == first) =
          values.flatMap block := by
        apply List.filter_eq_self.2
        intro other member
        obtain ⟨source, inValues, inBlock⟩ := List.mem_flatMap.1 member
        have same := restUniform source inValues other inBlock
        have different : other ≠ first := fun equal => isNew (equal ▸ same ▸ inValues)
        simpa using different
      rw [List.flatMap_cons, whole, List.cons_append, List.eraseDups_cons, List.filter_append,
        repeated, others, List.nil_append, inductionHypothesis restFresh restFilled restUniform]

namespace Net

variable {net : Net} {start : Handle}

/-- At each offset, the set of all traces shows what the traces of the start have there. -/
theorem atOffset_everyPath (consistent : net.Consistent) (known : start < net.size)
    (offset : Nat) : net.everyPath.atOffset start offset =
      (net.traces start).filterMap fun path => path.get? offset := by
  rw [PathSet.atOffset, startingAt_everyPath consistent known]

/-- No path begins at an unknown node. -/
theorem startingAt_everyPath_of_unknown (consistent : net.Consistent)
    (unknown : net.size ≤ start) : net.everyPath.startingAt start = [] := by
  apply List.filter_eq_nil_iff.2
  intro path member
  obtain ⟨origin, inHandles, inTraces⟩ := List.mem_flatMap.1 member
  have inside : origin < net.size := List.mem_range.1 inHandles
  rw [first_of_mem_traces consistent inTraces, decide_eq_true_eq]
  exact Nat.ne_of_lt (Nat.lt_of_lt_of_le inside unknown)

/-- A node outside the net has no successors. -/
theorem successors_of_unknown (consistent : net.Consistent) (unknown : net.size ≤ start) :
    net.successors start = [] := by
  rw [successors, Array.getElem?_eq_none (consistent.outgoingSize ▸ unknown)]
  rfl

/-- The paths show the successors of a node in the order of its arcs. -/
theorem successors_everyPath (consistent : net.Consistent) (start : Handle) :
    net.everyPath.successors start = net.successors start := by
  rcases Nat.lt_or_ge start net.size with known | unknown
  case inr =>
    rw [PathSet.successors, PathSet.atOffset, startingAt_everyPath_of_unknown consistent unknown,
      successors_of_unknown consistent unknown]
    rfl
  rw [PathSet.successors, atOffset_everyPath consistent known, traces]
  cases stuck : net.successors start with
  | nil =>
      have maximal : (Path.single start).isMaximal net = true := by
        simp [Path.isMaximal, Path.last, Path.single, stuck]
      rw [Path.completions_of_maximal maximal]
      rfl
  | cons next others =>
      have extensible : (Path.single start).isMaximal net = false := by
        simp [Path.isMaximal, Path.last, Path.single, Path.beginning, stuck]
      have extensions : (Path.single start).extensions net =
          (net.successors start).map (Path.single start).push := rfl
      rw [← stuck, Path.completions_of_extensible extensible, extensions, List.flatMap_map,
        List.filterMap_flatMap]
      have second {successor : Handle} {path : Path}
          (member : path ∈ ((Path.single start).push successor).completions net) :
          path.get? 1 = some successor := by
        obtain ⟨rest, whole⟩ := Path.part_of_mem_completions member
        rw [Path.get?, ← whole]
        rfl
      apply eraseDups_flatMap (consistent.successors_nodup start)
      · intro successor _ empty
        have grows : ((Path.single start).push successor).completions net ≠ [] :=
          Path.completions_ne_nil _
        obtain ⟨path, member⟩ := List.exists_mem_of_ne_nil _ grows
        have shown := List.filterMap_eq_nil_iff.1 empty path member
        rw [second member] at shown
        cases shown
      · intro successor _ other inBlock
        obtain ⟨path, member, found⟩ := List.mem_filterMap.1 inBlock
        rw [second member] at found
        exact (Option.some.inj found).symm

/-- Two steps ahead the paths show the successors of the successors. -/
theorem mem_atOffset_two_iff (consistent : net.Consistent) (known : start < net.size)
    {later : Handle} : later ∈ net.everyPath.atOffset start 2 ↔
      ∃ next ∈ net.successors start, later ∈ net.successors next := by
  rw [atOffset_everyPath consistent known, List.mem_filterMap]
  simp only [consistent.mem_successors_iff]
  constructor
  · intro shown
    obtain ⟨⟨nodes, nonempty⟩, member, found⟩ := shown
    have trace := (mem_traces_iff consistent).1 member
    have begins := trace.begins
    have follows := trace.follows
    rcases nodes with _ | ⟨first, _ | ⟨next, _ | ⟨last, rest⟩⟩⟩
    · cases found
    · cases found
    · cases found
    · cases begins
      cases found
      obtain ⟨firstArc, secondFollows⟩ := List.isChain_cons_cons.1 follows
      exact ⟨next, firstArc, (List.isChain_cons_cons.1 secondFollows).1⟩
  · intro arcs
    obtain ⟨next, firstArc, secondArc⟩ := arcs
    have walk : net.IsWalk start later [start, next, later] :=
      ⟨rfl, rfl, .cons_cons firstArc (.cons_cons secondArc (.singleton later))⟩
    -- The third node may be the first one again, so only the nodes before it have to differ.
    have apart : start ≠ next := by
      intro same
      have changes := firstArc.hasKind consistent .place
      rw [← same] at changes
      cases kind : net.hasKind .place start <;> simp [kind] at changes
    obtain ⟨path, member, rest, whole⟩ :=
      walk.exists_trace_of_beginning consistent (by simpa using apart)
    refine ⟨path, member, ?_⟩
    rw [Path.get?, ← whole]
    rfl

section

variable (consistent : net.Consistent) {later next : Handle → Bool}
include consistent

/-- Some successor on the paths passes a test exactly when one in the net does. -/
theorem any_successors_everyPath : (net.everyPath.successors start).any next = true ↔
    ∃ successor ∈ net.successors start, next successor = true := by
  rw [successors_everyPath consistent, List.any_eq_true]

/-- All successors on the paths pass a test exactly when those in the net do. -/
theorem all_successors_everyPath : (net.everyPath.successors start).all next = true ↔
    ∀ successor ∈ net.successors start, next successor = true := by
  rw [successors_everyPath consistent, List.all_eq_true]

/-- The existential modal operator looks at one arc of the net and all arcs after it. -/
theorem existsModal_iff : net.everyPath.existsModal later next start = true ↔
    ∃ successor ∈ net.successors start, next successor = true ∧
      ∀ target ∈ net.successors successor, later target = true := by
  simp only [PathSet.existsModal, any_successors_everyPath consistent, Bool.and_eq_true,
    all_successors_everyPath consistent]

/-- The universal modal operator looks at all arcs of the net and all arcs after them. -/
theorem forallModal_iff (known : start < net.size) :
    net.everyPath.forallModal later next start = true ↔
      (∀ successor ∈ net.successors start, next successor = true) ∧
        ∀ successor ∈ net.successors start, ∀ target ∈ net.successors successor,
          later target = true := by
  have twoAhead : (net.everyPath.atOffset start 2).all later = true ↔
      ∀ successor ∈ net.successors start, ∀ target ∈ net.successors successor,
        later target = true := by
    simp only [List.all_eq_true, mem_atOffset_two_iff consistent known]
    exact ⟨fun every successor follows target followsToo =>
      every target ⟨successor, follows, followsToo⟩,
      fun every target ⟨successor, follows, followsToo⟩ =>
        every successor follows target followsToo⟩
  rw [PathSet.forallModal, Bool.and_eq_true, ← PathSet.all_successors,
    all_successors_everyPath consistent, twoAhead]

/-- At a place, some transition leads to places that all pass. -/
theorem existsNext_place_iff : net.everyPath.existsNext later start .place = true ↔
    ∃ successor ∈ net.successors start, ∀ target ∈ net.successors successor,
      later target = true := by
  simp only [PathSet.existsNext, any_successors_everyPath consistent,
    all_successors_everyPath consistent]

/-- At a transition, some arc and some arc after it lead to a transition that passes. -/
theorem existsNext_transition_iff : net.everyPath.existsNext later start .transition = true ↔
    ∃ successor ∈ net.successors start, ∃ target ∈ net.successors successor,
      later target = true := by
  simp only [PathSet.existsNext, any_successors_everyPath consistent]

/-- At a place, each transition leads to some place that passes. -/
theorem forallNext_place_iff : net.everyPath.forallNext later start .place = true ↔
    ∀ successor ∈ net.successors start, ∃ target ∈ net.successors successor,
      later target = true := by
  rw [PathSet.forallNext, Bool.not_eq_true', ← Bool.not_eq_true,
    any_successors_everyPath consistent]
  simp only [all_successors_everyPath consistent, Bool.not_eq_true', not_exists, not_and,
    not_forall, Bool.not_eq_false, exists_prop]

/-- At a transition, all arcs and all arcs after them lead to transitions that pass. -/
theorem forallNext_transition_iff : net.everyPath.forallNext later start .transition = true ↔
    ∀ successor ∈ net.successors start, ∀ target ∈ net.successors successor,
      later target = true := by
  simp only [PathSet.forallNext, all_successors_everyPath consistent]

end

/--
Over all paths the operators that look ahead say what the arcs of the net do. A place wants some
transition behind it, with all the places that this one leads to, and a transition looks at every
place behind it. Nodes without successors meet what is said of all successors.
-/
theorem next_exact {net : Net} (built : net.Built) :
    ∃ set, net.allPaths none = .ok set ∧
      (∀ node < net.size, set.successors node = net.successors node ∧
        ∀ later, later ∈ set.atOffset node 2 ↔
          ∃ next ∈ net.successors node, later ∈ net.successors next) ∧
      (∀ place, net.hasKind .place place = true →
        (∀ next : Formula .transition,
          (Formula.modal next : Formula .place).holds set place = true ↔
            ∃ transition ∈ net.successors place, next.holds set transition = true) ∧
        (∀ later : Formula .place, later.existsNext.holds set place = true ↔
          ∃ transition ∈ net.successors place, ∀ target ∈ net.successors transition,
            later.holds set target = true) ∧
        (∀ later : Formula .place, later.forallNext.holds set place = true ↔
          ∀ transition ∈ net.successors place, ∃ target ∈ net.successors transition,
            later.holds set target = true) ∧
        ∀ (later : Formula .place) (next : Formula .transition),
          ((Formula.existsModal later next : Formula .place).holds set place = true ↔
            ∃ transition ∈ net.successors place, next.holds set transition = true ∧
              ∀ target ∈ net.successors transition, later.holds set target = true) ∧
          ((Formula.forallModal later next : Formula .place).holds set place = true ↔
            (∀ transition ∈ net.successors place, next.holds set transition = true) ∧
              ∀ transition ∈ net.successors place, ∀ target ∈ net.successors transition,
                later.holds set target = true)) ∧
      ∀ transition, net.hasKind .transition transition = true →
        (∀ next : Formula .place,
          (Formula.modal next : Formula .transition).holds set transition = true ↔
            ∀ place ∈ net.successors transition, next.holds set place = true) ∧
        (∀ later : Formula .transition, later.existsNext.holds set transition = true ↔
          ∃ place ∈ net.successors transition, ∃ target ∈ net.successors place,
            later.holds set target = true) ∧
        (∀ later : Formula .transition, later.forallNext.holds set transition = true ↔
          ∀ place ∈ net.successors transition, ∀ target ∈ net.successors place,
            later.holds set target = true) ∧
        ∀ (later : Formula .transition) (next : Formula .place),
          ((Formula.existsModal later next : Formula .transition).holds set transition = true ↔
            ∃ place ∈ net.successors transition, next.holds set place = true ∧
              ∀ target ∈ net.successors place, later.holds set target = true) ∧
          ((Formula.forallModal later next : Formula .transition).holds set transition = true ↔
            (∀ place ∈ net.successors transition, next.holds set place = true) ∧
              ∀ place ∈ net.successors transition, ∀ target ∈ net.successors place,
                later.holds set target = true) := by
  have consistent := built.consistent
  refine ⟨net.everyPath, net.allPaths_none, ?_, ?_, ?_⟩
  · intro node known
    exact ⟨successors_everyPath consistent node, fun _ => mem_atOffset_two_iff consistent known⟩
  · intro place placeKind
    have known := known_of_hasKind placeKind
    simp only [Formula.holds, everyPath_net, placeKind, Bool.true_and]
    exact ⟨fun _ => any_successors_everyPath consistent, fun _ => existsNext_place_iff consistent,
      fun _ => forallNext_place_iff consistent,
      fun _ _ => ⟨existsModal_iff consistent, forallModal_iff consistent known⟩⟩
  · intro transition transitionKind
    have known := known_of_hasKind transitionKind
    simp only [Formula.holds, everyPath_net, transitionKind, Bool.true_and]
    exact ⟨fun _ => all_successors_everyPath consistent,
      fun _ => existsNext_transition_iff consistent,
      fun _ => forallNext_transition_iff consistent,
      fun _ _ => ⟨existsModal_iff consistent, forallModal_iff consistent known⟩⟩

/-- From B one transition leads to C and the other one does not. -/
theorem ringWithExit_parts : ringWithExit.Built ∧ ringWithExit.hasKind .place 1 = true ∧
    ∃ set, ringWithExit.allPaths none = .ok set ∧ set.successors 1 = [4, 5] ∧
      (Formula.existsNext (.test (.id "C")) : Formula .place).holds set 1 = true ∧
      (Formula.forallNext (.test (.id "C")) : Formula .place).holds set 1 ≠ true := by
  refine ⟨ringWithExit_built, rfl, ?_⟩
  obtain ⟨set, whole, ahead, atPlaces, _⟩ := next_exact ringWithExit_built
  have same : set = ringWithExit.everyPath :=
    Except.ok.inj (whole.symm.trans ringWithExit.allPaths_none)
  obtain ⟨_, existsNext, forallNext, _⟩ := atPlaces 1 rfl
  refine ⟨set, whole, (ahead 1 (by decide)).1, (existsNext _).2 ⟨5, by decide, ?_⟩, ?_⟩
  · intro target member
    obtain rfl : target = 2 := List.mem_singleton.1 member
    rw [same]
    rfl
  · intro every
    obtain ⟨target, member, shown⟩ := (forallNext _).1 every 4 (by decide)
    obtain rfl : target = 0 := List.mem_singleton.1 member
    rw [same] at shown
    cases shown

end Net

end PetriLogic
