import PetriLogic.Proofs.Path.Limit
import PetriLogic.Proofs.Temporal.Removal

namespace PetriLogic

namespace PathSet

variable {hold goal : Handle → Bool}

/-- With fewer paths there are fewer anchors to visit and fewer paths that can be broken. -/
theorem forallUntil_of_subset {narrow wide : PathSet} (fewer : narrow.paths ⊆ wide.paths)
    {handle : Handle} (holds : wide.forallUntil hold goal handle = true) :
    narrow.forallUntil hold goal handle = true := by
  have shown (node : Handle) : narrow.startingAt node ⊆ wide.startingAt node :=
    List.filter_subset _ fewer
  rw [forallUntil_eq_true_iff] at holds ⊢
  intro last chain breaks
  have wideChain : Relation.ReflTransGen (wide.Defers hold goal) handle last :=
    Relation.ReflTransGen.mono (fun first _ => Defers.of_subset (shown first)) _ _ chain
  exact holds last wideChain (breaks.of_subset (shown last))

end PathSet

namespace Formula

/--
A direct formula is a Boolean combination of propositional formulas and of operators on them
that follow the paths of the node at hand and of no other node.
-/
def isDirect {kind : NodeKind} : Formula kind → Bool
  | .truth | .falsity | .test _ => true
  | .not operand => operand.isDirect
  | .and first second | .or first second => first.isDirect && second.isDirect
  | .modal next => next.isPropositional
  | .existsUntil hold goal => hold.isPropositional && goal.isPropositional
  | .forallModal later next => later.isPropositional && next.isPropositional
  | .eventually operand | .possibly operand | .invariantly operand
  | .along operand => operand.isPropositional
  | _ => false

/-- A direct formula asks for nothing but the paths of the node it is evaluated at. -/
theorem holds_of_isDirect {net : Net} {firstPaths secondPaths : List Path} {handle : Handle}
    (shown : PathSet.startingAt ⟨net, firstPaths⟩ handle =
      PathSet.startingAt ⟨net, secondPaths⟩ handle)
    {kind : NodeKind} {formula : Formula kind} (direct : formula.isDirect = true) :
    formula.holds ⟨net, firstPaths⟩ handle = formula.holds ⟨net, secondPaths⟩ handle := by
  have fixed {kind : NodeKind} {operand : Formula kind}
      (propositional : operand.isPropositional = true) :
      operand.holds ⟨net, firstPaths⟩ = operand.holds ⟨net, secondPaths⟩ :=
    operand.ignoresPaths_of_isPropositional net propositional _ _
  induction formula with
  | truth | falsity | test => rfl
  | not operand inductionHypothesis =>
      simp only [holds, inductionHypothesis direct]
  | and first second firstHypothesis secondHypothesis
  | or first second firstHypothesis secondHypothesis =>
      obtain ⟨firstDirect, secondDirect⟩ := Bool.and_eq_true_iff.1 direct
      simp only [holds, firstHypothesis firstDirect, secondHypothesis secondDirect]
  | modal next =>
      simp only [holds, fixed direct, PathSet.modal, PathSet.successors, PathSet.atOffset, shown]
  | existsUntil hold goal =>
      obtain ⟨holdPlain, goalPlain⟩ := Bool.and_eq_true_iff.1 direct
      simp only [holds, fixed holdPlain, fixed goalPlain, PathSet.existsUntil, shown]
  | forallModal later next =>
      obtain ⟨laterPlain, nextPlain⟩ := Bool.and_eq_true_iff.1 direct
      simp only [holds, fixed laterPlain, fixed nextPlain, PathSet.forallModal, PathSet.atOffset,
        shown]
  | eventually operand | along operand =>
      simp only [holds, fixed direct, PathSet.eventually, shown]
  | possibly operand | invariantly operand =>
      simp only [holds, fixed direct, PathSet.existsUntil, shown]
  | _ => cases direct

/-- A universal until is kept by fewer paths when its operands do not look at them. -/
theorem forallUntil_holds_of_subset {net : Net} {narrow wide : List Path} (fewer : narrow ⊆ wide)
    {kind : NodeKind} {hold goal : Formula kind} (holdPlain : hold.isPropositional = true)
    (goalPlain : goal.isPropositional = true) {handle : Handle}
    (holds : (Formula.forallUntil hold goal).holds ⟨net, wide⟩ handle = true) :
    (Formula.forallUntil hold goal).holds ⟨net, narrow⟩ handle = true := by
  have holdFixed : hold.holds ⟨net, narrow⟩ = hold.holds ⟨net, wide⟩ :=
    hold.ignoresPaths_of_isPropositional net holdPlain narrow wide
  have goalFixed : goal.holds ⟨net, narrow⟩ = goal.holds ⟨net, wide⟩ :=
    goal.ignoresPaths_of_isPropositional net goalPlain narrow wide
  simp only [Formula.holds, Bool.and_eq_true] at holds ⊢
  obtain ⟨known, kept⟩ := holds
  rw [holdFixed, goalFixed]
  exact ⟨known, PathSet.forallUntil_of_subset fewer kept⟩

end Formula

namespace Net

/--
Without a limit the scope makes no difference to the direct formulas at the start.
A universal until with propositional operands that holds in the full scope holds in the small
one, because for fixed tests it is kept by every subset of the paths.
-/
theorem scope_exact {net : Net} (built : net.Built) {start : Handle} (known : start < net.size) :
    ∃ own every, net.pathSet ⟨none, .fromStart⟩ start = .ok own ∧
      net.pathSet ⟨none, .all⟩ start = .ok every ∧
      (∀ (kind : NodeKind) (formula : Formula kind), formula.isDirect = true →
        formula.holds own start = formula.holds every start) ∧
      (∀ (kind : NodeKind) (hold goal : Formula kind), hold.isPropositional = true →
        goal.isPropositional = true →
          (Formula.forallUntil hold goal).holds every start = true →
            (Formula.forallUntil hold goal).holds own start = true) ∧
      ∀ (hold goal : Handle → Bool) (narrow wide : PathSet), narrow.paths ⊆ wide.paths →
        ∀ handle, wide.forallUntil hold goal handle = true →
          narrow.forallUntil hold goal handle = true := by
  have consistent := built.consistent
  have whole : net.everyPath.startingAt start = net.traces start :=
    startingAt_everyPath consistent known
  have own : PathSet.startingAt ⟨net, net.traces start⟩ start = net.traces start :=
    List.filter_eq_self.2 fun path member => by
      simp [first_of_mem_traces consistent member]
  have fewer : net.traces start ⊆ net.everyPath.paths := whole ▸ List.filter_subset_self _
  refine ⟨⟨net, net.traces start⟩, net.everyPath, pathsFrom_none known, net.allPaths_none,
    ?_, ?_, ?_⟩
  · intro kind formula direct
    exact Formula.holds_of_isDirect (own.trans whole.symm) direct
  · intro kind hold goal holdPlain goalPlain holds
    exact Formula.forallUntil_holds_of_subset fewer holdPlain goalPlain holds
  · intro hold goal narrow wide fewerPaths handle kept
    exact PathSet.forallUntil_of_subset fewerPaths kept

/-- One place and one transition lead to each other. -/
def roundTrip : Net where
  id := "round trip"
  nodes := #[.place ⟨"A", .empty⟩, .transition ⟨"t", .idle⟩]
  arcs := #[⟨0, 1⟩, ⟨1, 0⟩]
  index := [("t", 1), ("A", 0)]
  outgoing := #[[1], [0]]
  incoming := #[[1], [0]]

/-- The round through A is accepted in both scopes although its goal is never met. -/
theorem roundTrip_scopes :
    let stays : Formula .place := .and (.along (.not (.test .terminal))) (.modal (.test (.id "t")))
    let round : Formula .place := .forallUntil .truth .falsity
    let whole : Path := ⟨[0, 1, 0], by decide⟩
    let half : Path := ⟨[0, 1], by decide⟩
    roundTrip.Built ∧ 0 < roundTrip.size ∧ stays.isDirect = true ∧
      (.truth : Formula .place).isPropositional = true ∧
      (.falsity : Formula .place).isPropositional = true ∧
      (∃ own every, roundTrip.pathSet ⟨none, .fromStart⟩ 0 = .ok own ∧
        roundTrip.pathSet ⟨none, .all⟩ 0 = .ok every ∧
        stays.holds own 0 = stays.holds every 0 ∧
        round.holds every 0 = true ∧ round.holds own 0 = true) ∧
      [half] ⊆ [whole, half] ∧
      PathSet.forallUntil ⟨roundTrip, [whole, half]⟩ (fun _ => true) (· = 0) 0 = true ∧
      PathSet.forallUntil ⟨roundTrip, [half]⟩ (fun _ => true) (· = 0) 0 = true := by
  intro stays round whole half
  have built : roundTrip.Built :=
    .ofDescription (show Net.ofDescription roundTrip.description = .ok roundTrip by rfl)
  have known : 0 < roundTrip.size := by decide
  have fewer : [half] ⊆ [whole, half] := List.subset_cons_self _ _
  have accepted : (roundTrip.pathSet ⟨none, .all⟩ 0).toOption.map (round.holds · 0) =
      some true := by
    cbv
  have wide : PathSet.forallUntil ⟨roundTrip, [whole, half]⟩ (fun _ => true) (· = 0) 0 = true := by
    cbv
  obtain ⟨own, every, searchedOwn, searchedEvery, alike, kept, keptBySubset⟩ :=
    scope_exact built known
  have holdsEvery : round.holds every 0 = true := by
    simpa [searchedEvery, Except.toOption] using accepted
  exact ⟨built, known, rfl, rfl, rfl,
    ⟨own, every, searchedOwn, searchedEvery, alike .place stays rfl, holdsEvery,
      kept .place _ _ rfl rfl holdsEvery⟩,
    fewer, wide, keptBySubset _ _ _ _ fewer 0 wide⟩

end Net

end PetriLogic
