import PetriLogic.Formula.Evaluation
import PetriLogic.Proofs.Net.Construction
import PetriLogic.Proofs.Path.Positions
import PetriLogic.Proofs.Temporal.Inspection

namespace PetriLogic

/-- A test gives the same answers over all sets of paths of a net. -/
def IgnoresPaths (net : Net) (test : PathSet → Handle → Bool) : Prop :=
  ∀ first second : List Path, test ⟨net, first⟩ = test ⟨net, second⟩

namespace Formula

/-- A propositional formula consists of predicates and Boolean operators. -/
def isPropositional {kind : NodeKind} : Formula kind → Bool
  | .truth | .falsity | .test _ => true
  | .not operand => operand.isPropositional
  | .and first second | .or first second => first.isPropositional && second.isPropositional
  | _ => false

/-- A propositional formula looks at the node alone. -/
theorem ignoresPaths_of_isPropositional (net : Net) {kind : NodeKind} {formula : Formula kind}
    (propositional : formula.isPropositional = true) :
    IgnoresPaths net fun set => formula.holds set := by
  intro firstPaths secondPaths
  funext handle
  induction formula with
  | truth | falsity | test => rfl
  | not operand inductionHypothesis =>
      simp only [holds, inductionHypothesis propositional]
  | and first second firstHypothesis secondHypothesis
  | or first second firstHypothesis secondHypothesis =>
      obtain ⟨firstPlain, secondPlain⟩ := Bool.and_eq_true_iff.1 propositional
      simp only [holds, firstHypothesis firstPlain, secondHypothesis secondPlain]
  | _ => cases propositional

end Formula

/-- The first node that meets the goal or does not hold decides, if there is one. -/
def decided (hold goal : Handle → Bool) (nodes : List Handle) (otherwise : Bool) : Bool :=
  match nodes.find? fun node => goal node || !hold node with
  | some node => goal node
  | none => otherwise

/-- The first deciding node gives what the outcome of the walk stands for. -/
theorem decided_eq (hold goal : Handle → Bool) (nodes : List Handle) (otherwise : Bool) :
    decided hold goal nodes otherwise =
      match Outcome.ofWalk hold goal nodes with
      | .satisfied => true
      | .violated => false
      | .unresolved => otherwise := by
  induction nodes with
  | nil => rfl
  | cons first rest inductionHypothesis =>
      rw [decided, List.find?_cons, Outcome.ofWalk]
      cases met : goal first with
      | true => simp [met]
      | false =>
          cases holds : hold first with
          | true => simpa [decided] using inductionHypothesis
          | false => simp [met]

namespace Path

/-- The nodes at the even positions before the stop. -/
def evenNodes (path : Path) (stop : Nat) : List Handle :=
  ((List.range stop).filter (· % 2 = 0)).filterMap (path.nodes[·]?)

/-- The loop that closes first, looked for among all pairs of positions. -/
def closing? (path : Path) : Option Loop :=
  let positions := List.range path.nodes.length
  (positions.flatMap fun entry => positions.map fun close => ⟨entry, close⟩).find?
    fun loop => path.ClosesFirst loop

/--
A path without a loop that stays undecided has to end in the goal, at its last even position.
A path with a loop that is undecided when the loop closes is asked again from the entry of the
loop, or from the node after the entry if this one is at an odd position.
-/
def succeeds (hold goal again : Handle → Bool) (path : Path) : Bool :=
  match path.closing? with
  | none =>
      let last := path.nodes.length - 1
      decided hold goal ((path.evenNodes path.nodes.length).drop 1)
        (path.nodes[last - last % 2]?.any goal)
  | some loop =>
      decided hold goal ((path.evenNodes loop.close).drop 1)
        (path.nodes[loop.entry + loop.entry % 2]?.any again)

/-- Every other node of a list stands at an even position. -/
theorem everyOther_positions (nodes : List Handle) (stop : Nat) :
    ((List.range stop).filter (· % 2 = 0)).filterMap (nodes[·]?) =
      everyOther (nodes.take stop) := by
  induction nodes using everyOther.induct generalizing stop with
  | case1 => simp [everyOther]
  | case2 handle =>
      cases stop with
      | zero => rfl
      | succ stop =>
          simp [everyOther, List.range_succ_eq_map, List.filter_map, List.filterMap_map]
  | case3 first second rest inductionHypothesis =>
      have shifted : (fun position => decide (position % 2 = 0)) ∘ Nat.succ ∘ Nat.succ =
          fun position => decide (position % 2 = 0) := by
        funext position
        simp only [Function.comp, Nat.succ_eq_add_one, decide_eq_decide]
        omega
      rcases stop with _ | _ | stop
      · rfl
      · rfl
      · simp [everyOther, List.range_succ_eq_map, List.filter_map, List.filterMap_map,
          ← inductionHypothesis, shifted]

/-- The nodes at even positions are those that show the kind of the start. -/
theorem evenNodes_eq (path : Path) (stop : Nat) : path.evenNodes stop = path.sameKind stop :=
  everyOther_positions path.nodes stop

/-- Looking at all pairs of positions finds the loop that closes first. -/
theorem closing?_eq_some_iff {path : Path} {loop : Loop} :
    path.closing? = some loop ↔ path.ClosesFirst loop := by
  have closesFirst {other : Loop} (found : path.closing? = some other) :
      path.ClosesFirst other := by
    rw [closing?] at found
    simpa only [decide_eq_true_eq] using List.find?_some found
  refine ⟨closesFirst, fun closes => ?_⟩
  cases found : path.closing? with
  | some other => rw [(closesFirst found).unique closes]
  | none =>
      have inside := closes.inside
      have listed : loop ∈ (List.range path.nodes.length).flatMap fun entry =>
          (List.range path.nodes.length).map fun close => Loop.mk entry close := by
        simp only [List.mem_flatMap, List.mem_map, List.mem_range]
        exact ⟨_, Nat.lt_trans closes.ordered inside, _, inside, rfl⟩
      rw [closing?] at found
      exact absurd (decide_eq_true closes) (List.find?_eq_none.1 found loop listed)

/-- The loop that closes first is the one that the path finds. -/
theorem closing?_eq (path : Path) : path.closing? = path.loop? := by
  ext loop
  rw [closing?_eq_some_iff, loop?_eq_some_iff]

/-- Whether a path succeeds is read off its obligation. -/
theorem succeeds_eq (hold goal again : Handle → Bool) (path : Path) :
    path.succeeds hold goal again =
      match Obligation.ofPath hold goal path with
      | .met => true
      | .broken => false
      | .deferred anchor => again anchor := by
  rw [succeeds, closing?_eq, Obligation.ofPath]
  cases closes : path.loop? with
  | none =>
      have whole : path.walkEnd = path.nodes.length := by rw [walkEnd, closes, length]
      have unanchored : path.anchor? = none := by rw [anchor?, closes]; rfl
      simp only [decided_eq, evenNodes_eq, path.lastSameKind_eq, whole, unanchored, Option.any_some]
      cases Outcome.ofWalk hold goal ((path.sameKind path.nodes.length).drop 1) with
      | satisfied => rfl
      | violated => rfl
      | unresolved => cases met : goal path.lastSameKind <;> rfl
  | some loop =>
      have stops : path.walkEnd = loop.close := by rw [walkEnd, closes]
      have picked : path.nodes[loop.entry + loop.entry % 2]? = some _ :=
        List.getElem?_eq_getElem (anchorInRange closes)
      have anchored : path.anchor? = path.nodes[loop.entry + loop.entry % 2]? := by
        rw [anchor?, closes]
        rfl
      simp only [decided_eq, evenNodes_eq, stops, anchored, picked, Option.any_some]
      cases Outcome.ofWalk hold goal ((path.sameKind loop.close).drop 1) with
      | satisfied => rfl
      | violated => rfl
      | unresolved => rfl

end Path

namespace PathSet

/--
A universal until by plain recursion: every path from the start has to succeed.
A path is asked again over the set without this path.
-/
def untilByRemoval (hold goal : PathSet → Handle → Bool) (set : PathSet) (start : Handle) :
    Bool :=
  (List.finRange set.paths.length).all fun position =>
    set.paths[position].nodes[0]? ≠ some start ||
      set.paths[position].succeeds (hold set) (goal set) fun anchor =>
        untilByRemoval hold goal ⟨set.net, set.paths.eraseIdx position⟩ anchor
termination_by set.paths.length
decreasing_by
  have inside := position.isLt
  simp only [List.length_eraseIdx_of_lt inside]
  omega

variable {hold goal : PathSet → Handle → Bool} {set : PathSet} {start : Handle}

/-- The recursion fails at a path from the start, by itself or behind its anchor. -/
theorem untilByRemoval_eq_false_iff :
    set.untilByRemoval hold goal start = false ↔
      ∃ (position : Nat) (path : Path), set.paths[position]? = some path ∧
        path.nodes[0]? = some start ∧
        (Obligation.ofPath (hold set) (goal set) path = .broken ∨
          ∃ anchor, Obligation.ofPath (hold set) (goal set) path = .deferred anchor ∧
            (set.without position).untilByRemoval hold goal anchor = false) := by
  have fails (path : Path) (again : Handle → Bool) :
      path.succeeds (hold set) (goal set) again = false ↔
        Obligation.ofPath (hold set) (goal set) path = .broken ∨
          ∃ anchor, Obligation.ofPath (hold set) (goal set) path = .deferred anchor ∧
            again anchor = false := by
    rw [Path.succeeds_eq]
    cases Obligation.ofPath (hold set) (goal set) path <;> simp
  rw [untilByRemoval, List.all_eq_false]
  constructor
  · intro refuted
    obtain ⟨position, _, fell⟩ := refuted
    simp only [Bool.or_eq_true, not_or, decide_eq_true_eq, Bool.not_eq_true, not_not, fails,
      ne_eq] at fell
    exact ⟨position, _, List.getElem?_eq_getElem position.isLt, fell⟩
  · intro refuted
    obtain ⟨position, path, found, begins, fell⟩ := refuted
    obtain ⟨inside, rfl⟩ := List.getElem?_eq_some_iff.1 found
    refine ⟨⟨position, inside⟩, List.mem_finRange _, ?_⟩
    simpa [fails] using ⟨begins, fell⟩

/-- A smaller set shows nothing that the whole set does not show. -/
theorem startingAt_without_subset {position : Nat} {handle : Handle} :
    (set.without position).startingAt handle ⊆ set.startingAt handle :=
  List.filter_subset _ (List.eraseIdx_subset)

/-- The paths from other nodes stay when a path is removed. -/
theorem mem_startingAt_without {position : Nat} {path other : Path} {handle : Handle}
    (found : set.paths[position]? = some path) (apart : path.nodes[0]? ≠ some handle)
    (member : other ∈ set.startingAt handle) :
    other ∈ (set.without position).startingAt handle := by
  obtain ⟨inPaths, begins⟩ := mem_startingAt_iff.1 member
  refine mem_startingAt_iff.2 ⟨List.mem_eraseIdx_iff_getElem?.2 ?_, begins⟩
  obtain ⟨index, isOther⟩ := List.mem_iff_getElem?.1 inPaths
  refine ⟨index, ?_, isOther⟩
  intro same
  subst same
  rw [found] at isOther
  cases isOther
  exact apart begins

/-- A broken path of fewer paths is one of more paths. -/
theorem Breaks.of_subset {other : PathSet} {hold goal : Handle → Bool} {handle : Handle}
    (shown : other.startingAt handle ⊆ set.startingAt handle)
    (breaks : other.Breaks hold goal handle) : set.Breaks hold goal handle := by
  obtain ⟨path, member, broken⟩ := breaks
  exact ⟨path, shown member, broken⟩

/-- A path of fewer paths that is deferred is one of more paths. -/
theorem Defers.of_subset {other : PathSet} {hold goal : Handle → Bool} {handle anchor : Handle}
    (shown : other.startingAt handle ⊆ set.startingAt handle)
    (defers : other.Defers hold goal handle anchor) : set.Defers hold goal handle anchor := by
  obtain ⟨path, member, deferred⟩ := defers
  exact ⟨path, shown member, deferred⟩

/-- A test that does not look at the paths keeps its answers when one of them is removed. -/
theorem ignored_without {test : PathSet → Handle → Bool} (fixed : IgnoresPaths set.net test)
    (position : Nat) : test (set.without position) = test set :=
  fixed _ _

/-- The recursion fails only behind a chain of anchors to a broken path. -/
theorem exists_breaks_of_untilByRemoval (holdFixed : IgnoresPaths set.net hold)
    (goalFixed : IgnoresPaths set.net goal)
    (refuted : set.untilByRemoval hold goal start = false) :
    ∃ handle, Relation.ReflTransGen (set.Defers (hold set) (goal set)) start handle ∧
      set.Breaks (hold set) (goal set) handle := by
  -- The induction is on the number of paths, of which each anchor takes one away.
  generalize size : set.paths.length = count
  induction count generalizing set start with
  | zero =>
      obtain ⟨position, path, found, _⟩ := untilByRemoval_eq_false_iff.1 refuted
      have inside := (List.getElem?_eq_some_iff.1 found).1
      omega
  | succ count inductionHypothesis =>
      obtain ⟨position, path, found, begins, fell⟩ := untilByRemoval_eq_false_iff.1 refuted
      have member := mem_startingAt_iff.2 ⟨List.mem_of_getElem? found, begins⟩
      rcases fell with broken | ⟨anchor, deferred, later⟩
      · exact ⟨start, .refl, path, member, broken⟩
      · have inside := (List.getElem?_eq_some_iff.1 found).1
        have smaller : (set.without position).paths.length = count := by
          simp only [without, List.length_eraseIdx_of_lt inside]
          omega
        obtain ⟨handle, chain, breaks⟩ :=
          @inductionHypothesis (set.without position) anchor holdFixed goalFixed later smaller
        rw [ignored_without holdFixed, ignored_without goalFixed] at chain breaks
        have shown : ∀ first second,
            (set.without position).Defers (hold set) (goal set) first second →
            set.Defers (hold set) (goal set) first second :=
          fun _ _ => Defers.of_subset startingAt_without_subset
        exact ⟨handle, .head ⟨path, member, deferred⟩ (Relation.ReflTransGen.mono shown _ _ chain),
          breaks.of_subset startingAt_without_subset⟩

/--
A chain of anchors without repetitions refutes the recursion if its last node has a broken path.
-/
theorem untilByRemoval_of_chain {finish : Handle} {nodes : List Handle}
    (holdFixed : IgnoresPaths set.net hold) (goalFixed : IgnoresPaths set.net goal)
    (follows : nodes.IsChain (set.Defers (hold set) (goal set))) (fresh : nodes.Nodup)
    (begins : nodes.head? = some start) (ends : nodes.getLast? = some finish)
    (breaks : set.Breaks (hold set) (goal set) finish) :
    set.untilByRemoval hold goal start = false := by
  induction nodes generalizing set start with
  | nil => cases begins
  | cons first rest inductionHypothesis =>
      obtain rfl : first = start := Option.some.inj begins
      rw [untilByRemoval_eq_false_iff]
      cases rest with
      | nil =>
          cases ends
          obtain ⟨path, member, broken⟩ := breaks
          obtain ⟨inPaths, begins⟩ := mem_startingAt_iff.1 member
          obtain ⟨position, found⟩ := List.mem_iff_getElem?.1 inPaths
          exact ⟨position, path, found, begins, .inl broken⟩
      | cons second rest =>
          obtain ⟨⟨path, member, deferred⟩, later⟩ := List.isChain_cons_cons.1 follows
          obtain ⟨isNew, restFresh⟩ := List.nodup_cons.1 fresh
          obtain ⟨inPaths, pathBegins⟩ := mem_startingAt_iff.1 member
          obtain ⟨position, found⟩ := List.mem_iff_getElem?.1 inPaths
          -- The removed path starts at a node that the rest of the chain does not visit.
          have stays {node : Handle} (inRest : node ∈ second :: rest) :
              set.startingAt node ⊆ (set.without position).startingAt node := by
            intro other shown
            apply mem_startingAt_without found _ shown
            intro same
            obtain rfl : first = node := Option.some.inj (pathBegins.symm.trans same)
            exact isNew inRest
          refine ⟨position, path, found, pathBegins, .inr ⟨second, deferred, ?_⟩⟩
          rw [List.getLast?_cons_cons] at ends
          apply @inductionHypothesis (set.without position) second holdFixed goalFixed _ restFresh
            rfl ends
          · rw [ignored_without holdFixed, ignored_without goalFixed]
            exact breaks.of_subset (stays (List.mem_of_mem_getLast? ends))
          · rw [ignored_without holdFixed, ignored_without goalFixed]
            apply later.imp_of_mem_imp
            intro earlier anchor inRest _ defers
            exact defers.of_subset (stays inRest)

/--
One set of checked anchors, shared by all branches, gives the answer of the recursion that
removes paths, for tests that do not look at the paths. Propositional formulas are such tests.
-/
theorem forallUntil_by_removal (net : Net) :
    (∀ hold goal : PathSet → Handle → Bool, IgnoresPaths net hold → IgnoresPaths net goal →
      ∀ (paths : List Path) (start : Handle),
        forallUntil ⟨net, paths⟩ (hold ⟨net, paths⟩) (goal ⟨net, paths⟩) start =
          untilByRemoval hold goal ⟨net, paths⟩ start) ∧
      ∀ (kind : NodeKind) (formula : Formula kind), formula.isPropositional = true →
        IgnoresPaths net fun set => formula.holds set := by
  refine ⟨?_, fun kind formula => formula.ignoresPaths_of_isPropositional net⟩
  intro hold goal holdFixed goalFixed paths start
  cases removal : untilByRemoval hold goal ⟨net, paths⟩ start with
  | false =>
      obtain ⟨handle, chain, breaks⟩ :=
        exists_breaks_of_untilByRemoval holdFixed goalFixed removal
      rw [← Bool.not_eq_true, forallUntil_eq_true_iff]
      intro sound
      exact sound handle chain breaks
  | true =>
      rw [forallUntil_eq_true_iff]
      intro handle chain breaks
      obtain ⟨rest, follows, last⟩ := List.exists_isChain_cons_of_relationReflTransGen chain
      obtain ⟨short, shortFollows, fresh, begins, ends, _⟩ := Net.exists_shortcut follows
      rw [List.getLast?_eq_some_getLast (List.cons_ne_nil _ _), last] at ends
      rw [untilByRemoval_of_chain holdFixed goalFixed shortFollows fresh begins ends breaks]
        at removal
      cases removal

/--
The loop t1 → B → t1 is entered at an odd position, so that the first path is asked again from B.
This fails where B goes back to A only, and holds where B goes on to C, whatever t1 does.
-/
theorem ringWithExit_removal :
    IgnoresPaths Net.ringWithExit (fun _ _ => true) ∧
      (Formula.test (.id "C") : Formula .place).isPropositional = true ∧
      let isC : PathSet → Handle → Bool :=
        fun set => (Formula.test (.id "C") : Formula .place).holds set
      let back : PathSet := ⟨Net.ringWithExit,
        [⟨[0, 3, 1, 3], by decide⟩, ⟨[1, 4, 0], by decide⟩]⟩
      let onwards : PathSet := ⟨Net.ringWithExit,
        [⟨[0, 3, 1, 3], by decide⟩, ⟨[1, 5, 2], by decide⟩, ⟨[3, 1, 4, 0], by decide⟩]⟩
      (forallUntil back (fun _ => true) (isC back) 0 = false ∧
        untilByRemoval (fun _ _ => true) isC back 0 = false) ∧
      forallUntil onwards (fun _ => true) (isC onwards) 0 = true ∧
        untilByRemoval (fun _ _ => true) isC onwards 0 = true := by
  have trivially : IgnoresPaths Net.ringWithExit (fun _ _ => true) := fun _ _ => rfl
  have plain : (Formula.test (.id "C") : Formula .place).isPropositional = true := rfl
  obtain ⟨agrees, ignores⟩ := forallUntil_by_removal Net.ringWithExit
  have same := agrees _ _ trivially (ignores .place _ plain)
  refine ⟨trivially, plain, ⟨?_, ?_⟩, ?_, ?_⟩
  · cbv
  · exact (same _ 0).symm.trans (by cbv)
  · cbv
  · exact (same _ 0).symm.trans (by cbv)

end PathSet

end PetriLogic
