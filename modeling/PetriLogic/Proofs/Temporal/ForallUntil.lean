import PetriLogic.Formula.Evaluation
import PetriLogic.Proofs.Path.Enumeration
import PetriLogic.Proofs.Temporal.Inspection

namespace PetriLogic

/-- Nodes miss a goal at every even position after the first one. -/
def MissesLater (goal : Handle → Bool) (nodes : List Handle) : Prop :=
  ∀ index node, 1 ≤ index → nodes[2 * index]? = some node → goal node = false

namespace MissesLater

variable {goal : Handle → Bool} {nodes more part : List Handle}

/-- Nodes that miss a goal do so as far as any beginning of them goes. -/
theorem ofPrefix (misses : MissesLater goal nodes) (isPart : part <+: nodes) :
    MissesLater goal part := by
  intro index node later found
  obtain ⟨rest, rfl⟩ := isPart
  apply misses index node later
  rw [List.getElem?_append_left (List.getElem?_eq_some_iff.1 found).1, found]

/-- The shared node has an even position in both parts, and its first one counts. -/
theorem append (misses : MissesLater goal nodes) (odd : nodes.length % 2 = 1)
    (others : MissesLater goal more) : MissesLater goal (nodes ++ more.tail) := by
  intro index node later found
  rcases Nat.lt_or_ge (2 * index) nodes.length with inside | outside
  · rw [List.getElem?_append_left inside] at found
    exact misses index node later found
  · rw [List.getElem?_append_right outside, List.getElem?_tail] at found
    have position : 2 * index - nodes.length + 1 = 2 * (index - nodes.length / 2) := by omega
    rw [position] at found
    exact others _ node (by omega) found

end MissesLater

namespace Obligation

variable {hold goal : Handle → Bool} {path : Path}

/-- The nodes that are asked stand at the even positions of the stretch from the second one on. -/
theorem asked_getElem? (path : Path) (index : Nat) :
    (asked path)[index]? = path.stretch[2 * (index + 1)]? := by
  rw [asked, List.getElem?_drop, Nat.add_comm 1]
  exact everyOther_getElem? _ _

/-- A path misses the goal where it is asked when its stretch misses it. -/
theorem missesLater_stretch_iff :
    MissesLater goal path.stretch ↔ ∀ node ∈ asked path, goal node = false := by
  constructor
  · intro misses node member
    obtain ⟨index, found⟩ := List.mem_iff_getElem?.1 member
    rw [asked_getElem?] at found
    exact misses (index + 1) node (by omega) found
  · intro missed index node later found
    obtain ⟨before, rfl⟩ := Nat.exists_eq_add_of_le' later
    rw [← asked_getElem?] at found
    exact missed node (List.mem_of_getElem? found)

/-- The stretch of an undecided walk misses the goal. -/
theorem missesLater_of_unresolved
    (unresolved : Outcome.ofWalk hold goal (asked path) = .unresolved) :
    MissesLater goal path.stretch := by
  rw [missesLater_stretch_iff]
  intro node member
  exact (Outcome.ofWalk_eq_unresolved_iff.1 unresolved node member).1

end Obligation

namespace Net

variable {net : Net} {kind : NodeKind} {hold goal : Handle → Bool} {start middle finish : Handle}
  {nodes more : List Handle} {path : Path}

/-- A violation comes to a node of its kind that does not hold, and it misses the goal so far. -/
structure IsViolation (net : Net) (hold goal : Handle → Bool) (start finish : Handle)
    (nodes : List Handle) : Prop where
  walk : net.IsWalk start finish nodes
  odd : nodes.length % 2 = 1
  moves : 3 ≤ nodes.length
  missed : MissesLater goal nodes
  fails : hold finish = false

/-- A dead end cannot go on, and it misses the goal, a start without later nodes included. -/
structure IsDeadEnd (net : Net) (goal : Handle → Bool) (start finish : Handle)
    (nodes : List Handle) : Prop where
  walk : net.IsWalk start finish nodes
  stuck : net.successors finish = []
  missed : MissesLater goal nodes
  missedAtStart : nodes.length < 3 → goal start = false

/-- A walk that misses the goal can be put in front of a violation. -/
theorem IsViolation.extend (violation : net.IsViolation hold goal middle finish more)
    (walk : net.IsWalk start middle nodes) (odd : nodes.length % 2 = 1)
    (misses : MissesLater goal nodes) :
    net.IsViolation hold goal start finish (nodes ++ more.tail) := by
  have oddLater := violation.odd
  have moves := violation.moves
  have size : (nodes ++ more.tail).length = nodes.length + (more.length - 1) := by simp
  exact ⟨walk.append violation.walk, by omega, by omega, misses.append odd violation.missed,
    violation.fails⟩

/-- A walk that misses the goal can be put in front of a dead end. -/
theorem IsDeadEnd.extend (deadEnd : net.IsDeadEnd goal middle finish more)
    (walk : net.IsWalk start middle nodes) (odd : nodes.length % 2 = 1)
    (misses : MissesLater goal nodes) : net.IsDeadEnd goal start finish (nodes ++ more.tail) := by
  refine ⟨walk.append deadEnd.walk, deadEnd.stuck, misses.append odd deadEnd.missed, ?_⟩
  intro short
  have size : (nodes ++ more.tail).length = nodes.length + (more.length - 1) := by simp
  obtain ⟨only, rfl⟩ := List.length_eq_one_iff.1 (show nodes.length = 1 by omega)
  have sameStart : only = start := Option.some.inj walk.begins
  have sameMiddle : only = middle := Option.some.inj walk.ends
  rw [← sameStart, sameMiddle]
  apply deadEnd.missedAtStart
  rw [List.length_singleton] at size
  omega

/-- A deferred path shows a walk to its anchor. -/
theorem IsTrace.exists_walk_of_deferred (trace : net.IsTrace start path.nodes)
    (consistent : net.Consistent)
    (deferred : Obligation.ofPath hold goal path = .deferred middle) :
    ∃ nodes, net.IsWalk start middle nodes ∧ nodes.length % 2 = 1 ∧ MissesLater goal nodes := by
  obtain ⟨unresolved, anchored⟩ := Obligation.ofPath_eq_deferred_iff.1 deferred
  have misses := Obligation.missesLater_of_unresolved unresolved
  rcases nodup_or_repeats path.nodes with fresh | ⟨before, handle, after, split, fresh, earlier⟩
  · rw [Path.anchor?_of_nodup fresh] at anchored
    cases anchored
  · rw [Path.anchor?_of_repeats split fresh earlier] at anchored
    have entry := List.idxOf_lt_length_of_mem earlier
    -- The entry is not the last node before the loop closes, as no node follows itself.
    have apart : before.idxOf handle + 1 ≠ before.length := by
      intro adjacent
      have last : before.getLast? = some handle := by
        rw [List.getLast?_eq_getElem?, ← adjacent, Nat.add_sub_cancel]
        exact List.getElem?_idxOf earlier
      have arc : net.HasArc handle handle :=
        (List.isChain_append.1 (split ▸ trace.follows)).2.2 handle last handle rfl
      have flipped := arc.hasKind consistent .place
      cases known : net.hasKind .place handle <;> simp [known] at flipped
    have inside : before.idxOf handle + before.idxOf handle % 2 < before.length := by omega
    rw [split, List.getElem?_append_left inside,
      ← Path.stretch_of_repeats split fresh earlier] at anchored
    refine ⟨_, trace.upTo anchored, ?_, misses.ofPrefix (List.take_prefix _ _)⟩
    have shown := (List.getElem?_eq_some_iff.1 anchored).1
    rw [List.length_take]
    omega

/-- A broken path shows a violation or is a dead end. -/
theorem IsTrace.exists_refutation_of_broken (trace : net.IsTrace start path.nodes)
    (broken : Obligation.ofPath hold goal path = .broken) :
    ∃ finish nodes, net.IsViolation hold goal start finish nodes ∨
      net.IsDeadEnd goal start finish nodes := by
  rcases Obligation.ofPath_eq_broken_iff.1 broken with
    violated | ⟨unresolved, unanchored, missedLast⟩
  · obtain ⟨index, node, found, fails, missed⟩ := Outcome.ofWalk_eq_violated_iff.1 violated
    rw [Obligation.asked_getElem?] at found
    have shown := (List.getElem?_eq_some_iff.1 found).1
    have size : (path.stretch.take (2 * (index + 1) + 1)).length = 2 * (index + 1) + 1 := by
      rw [List.length_take]
      omega
    refine ⟨node, _, .inl ⟨trace.upTo found, by omega, by omega, ?_, fails⟩⟩
    intro position other later isOther
    have below := (List.getElem?_eq_some_iff.1 isOther).1
    obtain ⟨before, rfl⟩ := Nat.exists_eq_add_of_le' later
    rw [List.getElem?_take_of_lt (by omega), ← Obligation.asked_getElem?] at isOther
    exact missed before other (by omega) isOther
  · have fresh := Path.nodup_of_anchor?_eq_none unanchored
    have misses := Obligation.missesLater_of_unresolved unresolved
    rw [Path.stretch_of_nodup fresh] at misses
    refine ⟨path.last, path.nodes, .inr ⟨trace.isWalk, trace.stuck_of_nodup fresh, misses, ?_⟩⟩
    intro short
    rw [← trace.first_eq, ← Path.lastSameKind_of_short short]
    exact missedLast

/-- The walks of a chain of anchors are joined, and a broken path ends them. -/
theorem exists_refutation_of_chain (consistent : net.Consistent)
    (chain : Relation.ReflTransGen (net.everyPath.Defers hold goal) start middle)
    (breaks : net.everyPath.Breaks hold goal middle) (startKind : net.hasKind kind start = true) :
    ∃ finish nodes, net.IsViolation hold goal start finish nodes ∨
      net.IsDeadEnd goal start finish nodes := by
  induction chain using Relation.ReflTransGen.head_induction_on with
  | refl =>
      obtain ⟨path, member, broken⟩ := breaks
      rw [startingAt_everyPath consistent (known_of_hasKind startKind)] at member
      exact ((mem_traces_iff consistent).1 member).exists_refutation_of_broken broken
  | @head start anchor defers _ inductionHypothesis =>
      obtain ⟨path, member, deferred⟩ := defers
      rw [startingAt_everyPath consistent (known_of_hasKind startKind)] at member
      have trace := (mem_traces_iff consistent).1 member
      obtain ⟨nodes, walk, odd, misses⟩ := trace.exists_walk_of_deferred consistent deferred
      have anchorKind : net.hasKind kind anchor = true := by
        rw [walk.hasKind_finish consistent kind, startKind, odd]
        rfl
      obtain ⟨finish, more, violation | deadEnd⟩ := inductionHypothesis anchorKind
      · exact ⟨finish, _, .inl (violation.extend walk odd misses)⟩
      · exact ⟨finish, _, .inr (deadEnd.extend walk odd misses)⟩

/-- In terms of kinds the goal is missed at the later nodes of the kind of the start. -/
theorem IsWalk.missesLater_iff (walk : net.IsWalk start finish nodes)
    (consistent : net.Consistent) (startKind : net.hasKind kind start = true) :
    MissesLater goal nodes ↔ ∀ node ∈ nodes.tail, net.hasKind kind node = true →
      goal node = false := by
  constructor
  · intro misses node member nodeKind
    obtain ⟨index, later, found⟩ :=
      (walk.even_later_iff consistent startKind).2 ⟨member, nodeKind⟩
    exact misses index node later found
  · intro missed index node later found
    obtain ⟨member, nodeKind⟩ := (walk.even_later_iff consistent startKind).1 ⟨index, later, found⟩
    exact missed node member nodeKind

/-- A walk to fewer nodes without repetitions misses what the whole walk misses. -/
theorem IsWalk.missesLater_of_subset {short : List Handle} (walk : net.IsWalk start finish nodes)
    (shortWalk : net.IsWalk start finish short) (fresh : short.Nodup) (among : short ⊆ nodes)
    (consistent : net.Consistent) (startKind : net.hasKind kind start = true)
    (misses : MissesLater goal nodes) : MissesLater goal short := by
  rw [shortWalk.missesLater_iff consistent startKind]
  intro node member nodeKind
  have different : node ≠ start := by
    intro same
    rw [shortWalk.eq_cons] at fresh
    exact (List.nodup_cons.1 fresh).1 (same ▸ member)
  have inNodes := among (List.mem_of_mem_tail member)
  rw [walk.eq_cons] at inNodes
  rcases List.mem_cons.1 inNodes with same | later
  · exact absurd same different
  · exact (walk.missesLater_iff consistent startKind).1 misses node later nodeKind

/-- The rounds of a violation can be left out when it ends away from its start. -/
theorem IsViolation.exists_simple (violation : net.IsViolation hold goal start finish nodes)
    (away : finish ≠ start) (consistent : net.Consistent)
    (startKind : net.hasKind kind start = true) :
    ∃ short, net.IsViolation hold goal start finish short ∧ short.Nodup := by
  obtain ⟨short, shortWalk, fresh, among⟩ := violation.walk.shorten
  have finishKind := violation.walk.hasKind_finish consistent kind
  have odd := shortWalk.hasKind_finish consistent kind
  rw [finishKind, startKind, violation.odd] at odd
  simp only [beq_self_eq_true, Bool.true_eq, beq_iff_eq] at odd
  have several : short.length ≠ 1 := by
    intro single
    obtain ⟨only, rfl⟩ := List.length_eq_one_iff.1 single
    have begins := shortWalk.begins
    have ends := shortWalk.ends
    exact away (Option.some.inj (ends.symm.trans begins))
  refine ⟨short, ⟨shortWalk, odd, by omega, ?_, violation.fails⟩, fresh⟩
  exact violation.walk.missesLater_of_subset shortWalk fresh among consistent startKind
    violation.missed

/-- A violation without repetitions breaks each path that begins with it. -/
theorem IsViolation.broken_of_prefix (violation : net.IsViolation hold goal start finish nodes)
    (fresh : nodes.Nodup) (isPart : nodes <+: path.nodes) :
    Obligation.ofPath hold goal path = .broken := by
  have odd := violation.odd
  have moves := violation.moves
  obtain ⟨rest, whole⟩ := Path.part_of_stretch isPart fresh
  have shared {index : Nat} (inside : index < nodes.length) :
      path.stretch[index]? = nodes[index]? := by
    rw [← whole, List.getElem?_append_left inside]
  refine Obligation.ofPath_eq_broken_iff.2 (.inl (Outcome.ofWalk_eq_violated_iff.2
    ⟨nodes.length / 2 - 1, finish, ?_, violation.fails, ?_⟩))
  · have last : 2 * (nodes.length / 2 - 1 + 1) = nodes.length - 1 := by omega
    rw [Obligation.asked_getElem?, last, shared (by omega), ← List.getLast?_eq_getElem?]
    exact violation.walk.ends
  · intro earlier other before isOther
    rw [Obligation.asked_getElem?, shared (by omega)] at isOther
    exact violation.missed (earlier + 1) other (by omega) isOther

/-- The rounds behind the first arc are left out when none of them comes to the start. -/
theorem IsWalk.shortenBehind {second : Handle} {rest : List Handle}
    (walk : net.IsWalk start finish (start :: second :: rest)) (apart : start ∉ second :: rest) :
    ∃ short, net.IsWalk second finish short ∧ net.IsWalk start finish (start :: short) ∧
      (start :: short).Nodup ∧ short ⊆ second :: rest := by
  have ends := walk.ends
  rw [List.getLast?_cons_cons] at ends
  obtain ⟨short, shortWalk, fresh, among⟩ := IsWalk.shorten ⟨rfl, ends, walk.follows.tail⟩
  refine ⟨short, shortWalk, ⟨rfl, ?_, ?_⟩, ?_, among⟩
  · rw [shortWalk.eq_cons, List.getLast?_cons_cons, ← shortWalk.eq_cons]
    exact shortWalk.ends
  · apply shortWalk.follows.cons
    intro next isNext
    rw [shortWalk.begins] at isNext
    exact Option.some.inj isNext ▸ walk.follows.rel
  · exact List.nodup_cons.2 ⟨fun inShort => apart (among inShort), fresh⟩

/-- The rounds of a dead end can be left out, but not the last node of its kind. -/
theorem IsDeadEnd.exists_simple (deadEnd : net.IsDeadEnd goal start finish nodes)
    (consistent : net.Consistent) (startKind : net.hasKind kind start = true) :
    ∃ short, net.IsDeadEnd goal start finish short ∧ short.Nodup := by
  have walk := deadEnd.walk
  by_cases returns : start ∈ nodes.tail
  · -- The goal is missed at the start as well, so the length does not matter.
    obtain ⟨short, shortWalk, fresh, among⟩ := walk.shorten
    have missedStart : goal start = false :=
      (walk.missesLater_iff consistent startKind).1 deadEnd.missed start returns startKind
    exact ⟨short, ⟨shortWalk, deadEnd.stuck, walk.missesLater_of_subset shortWalk fresh among
      consistent startKind deadEnd.missed, fun _ => missedStart⟩, fresh⟩
  · have whole := walk.eq_cons
    cases behind : nodes.tail with
    | nil =>
        refine ⟨nodes, deadEnd, ?_⟩
        rw [whole, behind]
        exact List.nodup_singleton start
    | cons second rest =>
        rw [behind] at whole returns
        subst whole
        obtain ⟨short, shortWalk, fullWalk, fresh, among⟩ := walk.shortenBehind returns
        refine ⟨start :: short, ⟨fullWalk, deadEnd.stuck, ?_, ?_⟩, fresh⟩
        · exact walk.missesLater_of_subset fullWalk fresh (List.cons_subset_cons start among)
            consistent startKind deadEnd.missed
        · intro few
          -- The second node is the last one, so no arc leads from it to a third one.
          have single : short.length = 1 := by
            have positive := List.length_pos_iff.2 shortWalk.nonempty
            rw [List.length_cons] at few
            omega
          obtain ⟨only, rfl⟩ := List.length_eq_one_iff.1 single
          have sameSecond : only = second := Option.some.inj shortWalk.begins
          have sameFinish : only = finish := Option.some.inj shortWalk.ends
          apply deadEnd.missedAtStart
          cases rest with
          | nil => simp
          | cons third rest =>
              have arc : net.HasArc second third := walk.follows.tail.rel
              have leads := consistent.mem_successors_iff.2 arc
              rw [← sameSecond, sameFinish, deadEnd.stuck] at leads
              cases leads

/-- A dead end without repetitions is a broken path. -/
theorem IsDeadEnd.broken (deadEnd : net.IsDeadEnd goal start finish path.nodes)
    (fresh : path.nodes.Nodup) : Obligation.ofPath hold goal path = .broken := by
  have missed : ∀ node ∈ Obligation.asked path, goal node = false := by
    rw [← Obligation.missesLater_stretch_iff, Path.stretch_of_nodup fresh]
    exact deadEnd.missed
  rcases Outcome.ofWalk_of_missed missed with violated | unresolved
  · exact Obligation.ofPath_eq_broken_iff.2 (.inl violated)
  · refine Obligation.ofPath_eq_broken_iff.2
      (.inr ⟨unresolved, Path.anchor?_of_nodup fresh, ?_⟩)
    rcases Nat.lt_or_ge path.nodes.length 3 with few | many
    · have trace := deadEnd.walk.trace_of_stuck fresh deadEnd.stuck
      rw [Path.lastSameKind_of_short few, trace.first_eq]
      exact deadEnd.missedAtStart few
    · have later : 1 ≤ path.lastEven / 2 := by
        simp only [Path.lastEven, Path.length]
        omega
      have even : 2 * (path.lastEven / 2) = path.lastEven := by
        simp only [Path.lastEven, Path.length]
        omega
      apply deadEnd.missed _ _ later
      rw [even]
      exact path.nodes_lastEven

/-- A broken path of the start refutes the formula at once. -/
theorem forallUntil_eq_false (consistent : net.Consistent) (known : start < net.size)
    (trace : net.IsTrace start path.nodes)
    (broken : Obligation.ofPath hold goal path = .broken) :
    net.everyPath.forallUntil hold goal start = false := by
  rw [← Bool.not_eq_true, PathSet.forallUntil_eq_true_iff]
  intro sound
  refine sound start .refl ⟨path, ?_, broken⟩
  rw [startingAt_everyPath consistent known]
  exact (mem_traces_iff consistent).2 trace

/-- A violation away from the start refutes the universal until over all traces. -/
theorem IsViolation.forallUntil_eq_false (violation : net.IsViolation hold goal start finish nodes)
    (away : finish ≠ start) (consistent : net.Consistent)
    (startKind : net.hasKind kind start = true) :
    net.everyPath.forallUntil hold goal start = false := by
  obtain ⟨short, simple, fresh⟩ := violation.exists_simple away consistent startKind
  obtain ⟨path, member, isPart⟩ := simple.walk.exists_trace consistent fresh
  exact Net.forallUntil_eq_false consistent (known_of_hasKind startKind)
    ((mem_traces_iff consistent).1 member) (simple.broken_of_prefix fresh isPart)

/-- A dead end without the goal refutes the universal until over all traces. -/
theorem IsDeadEnd.forallUntil_eq_false (deadEnd : net.IsDeadEnd goal start finish nodes)
    (consistent : net.Consistent) (startKind : net.hasKind kind start = true) :
    net.everyPath.forallUntil hold goal start = false := by
  obtain ⟨short, simple, fresh⟩ := deadEnd.exists_simple consistent startKind
  let path : Path := ⟨short, simple.walk.nonempty⟩
  have broken : Obligation.ofPath hold goal path = .broken := simple.broken fresh
  have trace : net.IsTrace start path.nodes := simple.walk.trace_of_stuck fresh simple.stuck
  exact Net.forallUntil_eq_false consistent (known_of_hasKind startKind) trace broken

/--
Where a universal until is refuted, a violation or a dead end leads from the node.
Every dead end refutes it, and so does every violation that ends away from the node.
-/
theorem forallUntil_exact {net : Net} (built : net.Built) :
    ∃ set, net.allPaths none = .ok set ∧
      ∀ (kind : NodeKind) (start : Handle), net.hasKind kind start = true →
        ∀ hold goal : Formula kind,
          ((hold.forallUntil goal).holds set start = false →
            ∃ finish nodes, net.IsViolation (hold.holds set) (goal.holds set) start finish nodes ∨
              net.IsDeadEnd (goal.holds set) start finish nodes) ∧
          ((∃ finish nodes, net.IsDeadEnd (goal.holds set) start finish nodes) ∨
            (∃ finish nodes, finish ≠ start ∧
              net.IsViolation (hold.holds set) (goal.holds set) start finish nodes) →
            (hold.forallUntil goal).holds set start = false) := by
  have consistent := built.consistent
  refine ⟨net.everyPath, net.allPaths_none, ?_⟩
  intro kind start startKind hold goal
  have evaluated : (hold.forallUntil goal).holds net.everyPath start =
      net.everyPath.forallUntil (hold.holds net.everyPath) (goal.holds net.everyPath) start := by
    simp [Formula.holds, startKind]
  rw [evaluated]
  constructor
  · intro refuted
    by_contra unseen
    rw [← Bool.not_eq_true, PathSet.forallUntil_eq_true_iff] at refuted
    apply refuted
    intro handle chain breaks
    exact unseen (exists_refutation_of_chain consistent chain breaks startKind)
  · intro refuting
    obtain ⟨finish, nodes, deadEnd⟩ | ⟨finish, nodes, away, violation⟩ := refuting
    · exact deadEnd.forallUntil_eq_false consistent startKind
    · exact violation.forallUntil_eq_false away consistent startKind

/-- From A the ring comes to B before C is met, and B is refused on the way. -/
theorem ringWithExit_refutes : ringWithExit.Built ∧ ringWithExit.hasKind .place 0 = true ∧
    ∃ set, ringWithExit.allPaths none = .ok set ∧
      (Formula.forallUntil (.not (.test (.id "B"))) (.test (.id "C")) : Formula .place).holds
        set 0 = false := by
  refine ⟨ringWithExit_built, rfl, ?_⟩
  obtain ⟨set, whole, exact⟩ := forallUntil_exact ringWithExit_built
  have same : set = ringWithExit.everyPath :=
    Except.ok.inj (whole.symm.trans ringWithExit.allPaths_none)
  subst same
  refine ⟨_, whole, (exact .place 0 rfl _ _).2 (.inr ⟨1, [0, 3, 1], by decide, ?_⟩)⟩
  refine ⟨⟨rfl, rfl, by decide⟩, rfl, by decide, ?_, rfl⟩
  intro index node later found
  match index, later with
  | 1, _ =>
      cases found
      rfl
  | index + 2, _ => simp [Nat.mul_add] at found

end Net

end PetriLogic
